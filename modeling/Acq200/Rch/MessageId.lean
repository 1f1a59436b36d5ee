import Acq200.Rch.DeviceInv
import Acq200.Rch.Transitions

/-!
# The id of a handler and the id of its message

`buildRch` predicts the id of the next message from `i2o_last_id_out`, and
`acq200_sendI2O_kbuf` makes the id by incrementing that counter.  Only
`buffer_AB_busy_mutex` could keep another message out in between, and the
AB files do not hold it in their read, write and release operations.

An id has seven bits of the counter, so the prediction is right just when
the number of messages sent in between is a multiple of 128.
`message_id_eq_iff` says so for every message of every run, wherever the
counter starts, and `writes_interleave` is a run of two AB files with one
message in between.
-/

namespace Acq200.Rch

open Acq200.Lib Device

/-! ## Seven bits of a counter -/

/-- The id of message number `n` of a counter that started at `0`. -/
def idOf (n : Nat) : BitVec 16 := BitVec.ofNat 16 (n % 128 * 256 + 0xdc)

theorem idOf_inj {n m : Nat} : idOf n = idOf m ↔ n % 128 = m % 128 := by
  constructor
  · intro h
    have hnat := congrArg BitVec.toNat h
    rw [idOf, idOf, BitVec.toNat_ofNat, BitVec.toNat_ofNat] at hnat
    omega
  · intro h
    rw [idOf, idOf, h]

theorem makeIdDtacq_eq (n : BitVec 32) : makeIdDtacq n = idOf n.toNat := by
  have hand : (n &&& 0x7f#32).toNat = n.toNat % 128 := by
    rw [BitVec.toNat_and]
    exact Nat.and_two_pow_sub_one_eq_mod n.toNat 7
  have hshift : ((n &&& 0x7f#32) <<< 8).toNat = n.toNat % 128 * 256 := by
    rw [BitVec.toNat_shiftLeft, hand, Nat.shiftLeft_eq]
    omega
  have hor : n.toNat % 128 * 256 ||| 0xdc = n.toNat % 128 * 256 + 0xdc := by
    have hlt : 0xdc < 2 ^ 8 := by decide
    have hadd := Nat.shiftLeft_add_eq_or_of_lt hlt (n.toNat % 128)
    rw [Nat.shiftLeft_eq] at hadd
    exact hadd.symm
  apply BitVec.eq_of_toNat_eq
  rw [makeIdDtacq, idOf, BitVec.toNat_setWidth, BitVec.toNat_or, hshift,
    BitVec.toNat_ofNat]
  exact congrArg (· % 2 ^ 16) hor

/-- The sign extension of the `short` counter to `int` keeps its low bits. -/
theorem toNat_signExtend_mod (v : BitVec 16) :
    (v.signExtend 32).toNat % 128 = v.toNat % 128 := by
  have hlt := v.isLt
  rw [BitVec.toNat_signExtend, BitVec.toNat_setWidth]
  split <;> omega

/-- The id in `buildRch`, where the counter is promoted before it is
incremented. -/
theorem makeIdDtacq_next (v : BitVec 16) :
    makeIdDtacq (v.signExtend 32 + 1) = idOf (v.toNat + 1) := by
  have hlow := toNat_signExtend_mod v
  have hone : BitVec.toNat (1 : BitVec 32) = 1 := rfl
  rw [makeIdDtacq_eq, idOf_inj, BitVec.toNat_add]
  omega

/-- The id in `acq200_sendI2O_kbuf`, where the counter wraps as a `short`
before it is promoted. -/
theorem makeIdDtacq_incremented (v : BitVec 16) :
    makeIdDtacq ((v + 1).signExtend 32) = idOf (v.toNat + 1) := by
  have hone : BitVec.toNat (1 : BitVec 16) = 1 := rfl
  rw [makeIdDtacq_eq, idOf_inj, toNat_signExtend_mod, BitVec.toNat_add]
  omega

/-! ## The invariant -/

/-- The prediction was right for the counter of its time. -/
def Predicted.Right (lastId : BitVec 16) (sent : Nat) (p : Predicted) : Prop :=
  p.sentBefore ≤ sent ∧ p.commandId = idOf (lastId.toNat + p.sentBefore + 1)

/-- The prediction for the message that a client is about to send. -/
def Pc.predicted : Pc → Option Predicted
  | .append _ _ _ _ predicted | .send _ _ _ _ predicted => some predicted
  | _ => none

structure IdInv (lastId : BitVec 16) (s : Sys) : Prop where
  counter : s.dev.i2oLastIdOut = lastId + BitVec.ofNat 16 s.sent.length
  pc : ∀ c, ∀ p ∈ (s.clients c).pc.predicted, p.Right lastId s.sent.length
  sent : ∀ p ∈ s.sent, p.id = idOf (lastId.toNat + p.serial + 1) ∧
    p.predicted.Right lastId p.serial

theorem idInv_initial (lastId : BitVec 16) : IdInv lastId (initial lastId) where
  counter := by simp [initial, poolCreate]
  pc := fun _ _ h => by cases h
  sent := fun _ h => by cases h

/-- The counter after `n` messages, in its low bits. -/
theorem idOf_counter (lastId : BitVec 16) (n : Nat) :
    idOf ((lastId + BitVec.ofNat 16 n).toNat + 1) = idOf (lastId.toNat + n + 1) := by
  rw [idOf_inj, BitVec.toNat_add, BitVec.toNat_ofNat]
  omega

section Steps

variable {lastId : BitVec 16} {s s' : Sys}

/-- A step that sends nothing.  The counter stays, and a prediction is one
that the client had before. -/
theorem IdInv.of_same (h : IdInv lastId s)
    (hcounter : s'.dev.i2oLastIdOut = s.dev.i2oLastIdOut) (hsent : s'.sent = s.sent)
    (hpc : ∀ c, ∀ p ∈ (s'.clients c).pc.predicted,
      p.Right lastId s.sent.length) : IdInv lastId s' := by
  refine ⟨?_, ?_, ?_⟩
  · rw [hcounter, hsent]
    exact h.counter
  · rw [hsent]
    exact hpc
  · rw [hsent]
    exact h.sent

/-- A client that moves to a point with the prediction it had, if any. -/
theorem IdInv.setClient (h : IdInv lastId s) {c : Nat} {client : Client}
    {s₁ : Sys} (hclients : s₁.clients = s.clients)
    (hcounter : s₁.dev.i2oLastIdOut = s.dev.i2oLastIdOut) (hsent : s₁.sent = s.sent)
    (hclient : ∀ p ∈ client.pc.predicted, p.Right lastId s.sent.length) :
    IdInv lastId (s₁.setClient c client) := by
  refine h.of_same hcounter hsent fun other => ?_
  by_cases heq : other = c
  · rw [heq, Sys.setClient_self]
    exact hclient
  · rw [Sys.setClient_of_ne _ heq, hclients]
    exact h.pc other

/-- `buildRch` predicts the next id. -/
theorem idInv_build {c e : Nat} {op : Op} {t : Tag} {kbuf : Option Kbuf}
    {client : Client} (h : IdInv lastId s)
    (hnext : client.pc = .append op e t kbuf
      ⟨makeIdDtacq (s.dev.i2oLastIdOut.signExtend 32 + 1), s.sent.length⟩) :
    IdInv lastId ({ s with
      dev := s.dev.buildRch e op.handler c kbuf op.flags t }.setClient c client) := by
  refine h.setClient rfl rfl rfl ?_
  intro p hp
  rw [hnext] at hp
  obtain rfl := Option.some.inj hp
  refine ⟨Nat.le_refl _, ?_⟩
  show makeIdDtacq (s.dev.i2oLastIdOut.signExtend 32 + 1) = _
  rw [makeIdDtacq_next, h.counter]
  exact idOf_counter lastId s.sent.length

/-- `acq200_sendI2O_kbuf` takes the next id. -/
theorem idInv_send {c e : Nat} {op : Op} {t : Tag} {kbuf : Option Kbuf}
    {predicted : Predicted} {mfa : Bool} (h : IdInv lastId s)
    (hpc : (s.clients c).pc = .send op e t kbuf predicted) :
    IdInv lastId ((s.sendI2OKbuf e t kbuf predicted mfa).setPc c
      (Sys.afterSend op e t)) := by
  have hnone : (Sys.afterSend op e t).predicted = none := by
    rcases op with _ | _ | _ | (_ | _) | _ <;> rfl
  cases mfa with
  | false =>
    refine h.setClient rfl rfl rfl ?_
    show ∀ p ∈ (Sys.afterSend op e t).predicted, _
    rw [hnone]
    intro p hp
    cases hp
  | true =>
    have hright := h.pc c predicted (by rw [hpc]; rfl)
    refine ⟨?_, ?_, ?_⟩
    · show s.dev.i2oLastIdOut + 1 = lastId + BitVec.ofNat 16 (s.sent ++ [_]).length
      rw [h.counter, List.length_append, List.length_singleton, BitVec.add_assoc,
        BitVec.ofNat_add]
      rfl
    · intro other p hp
      show p.Right lastId (s.sent ++ [_]).length
      rw [List.length_append, List.length_singleton]
      by_cases heq : other = c
      · rw [heq, Sys.setPc_self] at hp
        rw [hnone] at hp
        cases hp
      · have hold : ((s.sendI2OKbuf e t kbuf predicted true).setPc c
            (Sys.afterSend op e t)).clients other = s.clients other :=
          Sys.setClient_of_ne _ heq _
        rw [hold] at hp
        obtain ⟨hle, hid⟩ := h.pc other p hp
        exact ⟨Nat.le_succ_of_le hle, hid⟩
    · intro p hp
      rcases List.mem_append.mp hp with hp | hp
      · exact h.sent p hp
      · rw [List.mem_singleton.mp hp]
        refine ⟨?_, hright⟩
        show makeIdDtacq ((s.dev.i2oLastIdOut + 1).signExtend 32) = _
        rw [makeIdDtacq_incremented, h.counter]
        exact idOf_counter lastId s.sent.length

end Steps

/-! ## Runs -/

theorem Pc.predicted_of_entryFree {pc : Pc} (h : pc.entryFree = true) :
    pc.predicted = none := by
  cases pc <;> first | rfl | cases h

theorem idInv_step {lastId : BitVec 16} (l : Label) (s s' : Sys)
    (h : IdInv lastId s) (hs : Sys.step l s = some s') : IdInv lastId s' := by
  have hnone : ∀ {pc : Pc}, pc.predicted = none →
      ∀ p ∈ pc.predicted, p.Right lastId s.sent.length := by
    intro pc hpc p hp
    rw [hpc] at hp
    cases hp
  cases trans_of_step hs with
  | oops => exact h.of_same rfl rfl h.pc
  | answer hp => exact h.of_same rfl rfl h.pc
  | dispatch hp hd => exact h.of_same (lastId_process hd) rfl h.pc
  | cleanup hpc he hd => exact h.of_same (recycled hd).lastId rfl h.pc
  | neutral hl hslots hfree hposting hclosing =>
    exact h.setClient rfl rfl rfl (hnone (Pc.predicted_of_entryFree hfree))
  | recycleAB hpc hslot hd hslots hfree hopen =>
    exact h.setClient rfl (recycled hd).lastId rfl
      (hnone (Pc.predicted_of_entryFree hfree))
  | @allocRch _ _ c op asleep e client hl hpc hfree hlt hnext hslots =>
    refine h.setClient rfl rfl rfl (hnone ?_)
    rw [hnext]
    cases op <;> rfl
  | @freeMapping _ c kbuf hpc =>
    refine h.setClient rfl ?_ rfl (hnone rfl)
    cases kbuf <;> rfl
  | build hpc hnext hslots => exact idInv_build h hnext
  | @append _ c op e t kbuf predicted d hpc hd =>
    refine h.setClient rfl (samePools_rchAppend hd).lastId rfl ?_
    intro p hp
    exact h.pc c p (by rw [hpc]; exact hp)
  | send hpc => exact idInv_send h hpc
  | @removeIfNotValid _ c e t d valid hpc hd =>
    refine h.setClient rfl (samePools_removeIfNotValid hd).lastId rfl (hnone ?_)
    show Pc.predicted (if valid = 0 then .idle else .recycleRead e t) = none
    split <;> rfl
  | @recycleUnbuilt _ c e t kbuf d hpc hd =>
    refine h.setClient rfl (recycled hd).lastId rfl (hnone ?_)
    cases kbuf <;> rfl
  | recycleRead hpc hd => exact h.setClient rfl (recycled hd).lastId rfl (hnone rfl)
  | recycleLast hpc hd => exact h.setClient rfl (recycled hd).lastId rfl (hnone rfl)
  | sleepMapping _ _ | failMapping _ _ | failLen _ _ | passLen _ _
  | endWaitRead _ _ | endWaitLast _ _ | foundValid _ _ | allocMapping _ _ _ _ =>
    exact h.setClient rfl rfl rfl (hnone rfl)

theorem idInv_run {lastId : BitVec 16} {labels : List Label} {s : Sys}
    (hrun : runFrom Sys.step labels (initial lastId) = some s) : IdInv lastId s :=
  runFrom_inv₂ idInv_step (idInv_initial lastId) hrun

/-- The number of messages that were sent between the `buildRch` of a
message and its own send. -/
def Posted.between (p : Posted) : Nat := p.serial - p.predicted.sentBefore

/-- A message carries the `command_id` that `buildRch` gave to its handler
just when the number of messages sent in between is a multiple of 128. -/
theorem message_id_eq_iff {lastId : BitVec 16} {labels : List Label} {s : Sys}
    (hrun : runFrom Sys.step labels (initial lastId) = some s) :
    ∀ p ∈ s.sent, p.id = p.predicted.commandId ↔ p.between % 128 = 0 := by
  intro p hp
  obtain ⟨hid, hle, hpredicted⟩ := (idInv_run hrun).sent p hp
  rw [hid, hpredicted, idOf_inj, Posted.between]
  omega

/-- A write of client `c` on an AB file, up to its `buildRch`. -/
def writeUpToBuild (c : Nat) : List Label :=
  [.openFile c .bufferAB, .call c .write, .go c, .go c, .check c false, .go c]

/-- Two AB files write one after the other, over the wrap of the counter. -/
def writesInTurn : List Label :=
  writeUpToBuild 1 ++ [.go 1, .send 1 true] ++ writeUpToBuild 2 ++
    [.go 2, .send 2 true]

theorem message_id_eq_iff_writesInTurn :
    ∃ s, runFrom Sys.step writesInTurn (initial 0x7fff#16) = some s ∧
      s.sent.map Posted.id = [0x00dc#16, 0x01dc#16] ∧
      ∀ p ∈ s.sent, p.id = p.predicted.commandId := by
  obtain ⟨s, hrun, hids, hbetween⟩ : ∃ s,
      runFrom Sys.step writesInTurn (initial 0x7fff#16) = some s ∧
        s.sent.map Posted.id = [0x00dc#16, 0x01dc#16] ∧
        ∀ p ∈ s.sent, p.between % 128 = 0 := ⟨_, rfl, rfl, by decide⟩
  exact ⟨s, hrun, hids, fun p hp =>
    (message_id_eq_iff hrun p hp).mpr (hbetween p hp)⟩

/-- Two AB files write at the same time.  The second message goes out between
the `buildRch` and the send of the first client, and takes the id that its
handler waits for. -/
theorem writes_interleave :
    ∃ s, runFrom Sys.step
        (writeUpToBuild 1 ++ writeUpToBuild 2 ++
          [.go 2, .send 2 true, .go 1, .send 1 true]) (initial 0#16) = some s ∧
      ∃ p ∈ s.sent, p.request.client = 1 ∧ p.id = 0x02dc#16 ∧
        (s.dev.rch p.entry).commandId = 0x01dc#16 ∧ p.entry ∈ s.dev.list ∧
        p.id ≠ p.predicted.commandId := by
  refine ⟨_, rfl, _, List.mem_cons_of_mem _ List.mem_cons_self, rfl, rfl, rfl, ?_, ?_⟩
  · decide
  · decide

end Acq200.Rch
