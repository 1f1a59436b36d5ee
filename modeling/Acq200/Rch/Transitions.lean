import Acq200.Rch.System

/-!
# Everything that a step can do

`Trans` lists the steps of the system by what they do to the device, with
the program counter that each one starts from.  `trans_of_step` reads it
off `step`, and every invariant of this development is then one case
analysis over `Trans`.
-/

namespace Acq200.Rch

/-- The client that makes the step. -/
def Label.client : Label → Option Nat
  | .openFile c _ | .call c _ | .go c | .check c _ | .send c _ | .wake c
  | .timeout c | .signal c => some c
  | .answer _ | .dispatch _ _ _ => none

/-- The client whose next statement the step runs. -/
def Label.goes : Label → Option Nat
  | .go c => some c
  | _ => none

/-- The client has no handler in hand. -/
def Pc.entryFree : Pc → Bool
  | .unopened | .idle | .allocRch _ _ | .cleanup | .closed | .recycleAB _ _ _
  | .queueAB _ | .waitAB | .fillAB _ => true
  | _ => false

/-- The client is between the allocation of a handler and the send. -/
def Pc.posting : Pc → Bool
  | .build _ _ _ _ | .append _ _ _ _ _ | .send _ _ _ _ _ => true
  | _ => false

/-- The file is being closed and its handlers are no longer its own. -/
def Pc.closing : Pc → Bool
  | .cleanup | .closed => true
  | _ => false

/-- The steps by what they do.  A constructor names the program counter that
it starts from, and its conclusion is the state after it. -/
inductive Trans : Label → Sys → Sys → Prop where
  | oops {l s} : Trans l s { s with oopsed := true }
  /-- A step to a point where the client has no handler in hand, that leaves
  the device alone. -/
  | neutral {l s c} {client : Client} {b : Bool} (hl : l.client = some c)
      (hslots : client.rchAB = (s.clients c).rchAB)
      (hfree : client.pc.entryFree = true)
      (hposting : (s.clients c).pc.posting = false)
      (hclosing : (s.clients c).pc.closing = true → client.pc = .closed) :
      Trans l s ({ s with busyFree := b }.setClient c client)
  | sleepMapping {l s c op e t asleep ibuf} (hl : l.client = some c)
      (hpc : (s.clients c).pc = .allocMapping op e t asleep) :
      Trans l s (s.setPc c (.allocMapping op e t (some ibuf)))
  | failMapping {l s c op e t ibuf} (hl : l.client = some c)
      (hpc : (s.clients c).pc = .allocMapping op e t (some ibuf)) :
      Trans l s (s.setPc c (.recycleUnbuilt e t none))
  | failLen {l s c op e t kbuf} (hl : l.client = some c)
      (hpc : (s.clients c).pc = .checkLen op e t kbuf) :
      Trans l s (s.setPc c (.recycleUnbuilt e t (some kbuf)))
  | passLen {l s c op e t kbuf} (hl : l.client = some c)
      (hpc : (s.clients c).pc = .checkLen op e t kbuf) :
      Trans l s (s.setPc c (.build op e t (some kbuf)))
  | endWaitRead {l s c e t} (hl : l.client = some c)
      (hpc : (s.clients c).pc = .waitRead e t) :
      Trans l s (s.setPc c (.removeIfNotValid e t))
  | endWaitLast {l s c e t} (hl : l.client = some c)
      (hpc : (s.clients c).pc = .waitLast e t) :
      Trans l s (s.setPc c (.testLast e t))
  | foundValid {s c e t} (hpc : (s.clients c).pc = .testLast e t)
      (hvalid : (s.dev.rch e).rchReturn.valid = 1) :
      Trans (.go c) s (s.setPc c (.recycleLast e t))
  | allocRch {l s c op asleep e} {client : Client} (hl : l.client = some c)
      (hpc : (s.clients c).pc = .allocRch op asleep)
      (hfree : s.dev.handlers.reserved e = false)
      (hlt : e < s.dev.handlers.maxEntries)
      (hnext : client.pc = Sys.afterAllocRch op e ⟨c, s.dev.allocs⟩)
      (hslots : client.rchAB =
        Sys.slotsAfterAlloc op (s.clients c).rchAB e ⟨c, s.dev.allocs⟩) :
      Trans l s ({ s with dev := s.dev.poolAllocRch e c }.setClient c client)
  | allocMapping {l s c op e t asleep m} (hl : l.client = some c)
      (hpc : (s.clients c).pc = .allocMapping op e t asleep)
      (hfree : s.dev.mappings.reserved m = false)
      (hlt : m < s.dev.mappings.maxEntries) :
      Trans l s ({ s with dev := s.dev.poolAllocMapping m t }.setPc c
        (.checkLen op e t (.mapping m)))
  | freeMapping {s c kbuf} (hpc : (s.clients c).pc = .freeMapping kbuf) :
      Trans (.go c) s
        ({ s with dev := s.dev.poolFreeMapping kbuf }.setPc c .idle)
  | build {s c op e t kbuf} {client : Client}
      (hpc : (s.clients c).pc = .build op e t kbuf)
      (hnext : client.pc = .append op e t kbuf
        ⟨Device.makeIdDtacq (s.dev.i2oLastIdOut.signExtend 32 + 1),
          s.sent.length⟩)
      (hslots : client.rchAB = (s.clients c).rchAB) :
      Trans (.go c) s
        ({ s with dev := s.dev.buildRch e op.handler c kbuf op.flags t }.setClient
          c client)
  | append {s c op e t kbuf predicted d}
      (hpc : (s.clients c).pc = .append op e t kbuf predicted)
      (hd : s.dev.rchAppend e = some d) :
      Trans (.go c) s
        ({ s with dev := d }.setPc c (.send op e t kbuf predicted))
  | send {s c op e t kbuf predicted mfa}
      (hpc : (s.clients c).pc = .send op e t kbuf predicted) :
      Trans (.send c mfa) s
        ((s.sendI2OKbuf e t kbuf predicted mfa).setPc c (Sys.afterSend op e t))
  | removeIfNotValid {s c e t d valid}
      (hpc : (s.clients c).pc = .removeIfNotValid e t)
      (hd : s.dev.rchRemoveIfNotValid e = some (d, valid)) :
      Trans (.go c) s ({ s with dev := d }.setPc c
        (if valid = 0 then .idle else .recycleRead e t))
  | recycleUnbuilt {s c e t kbuf d}
      (hpc : (s.clients c).pc = .recycleUnbuilt e t kbuf)
      (hd : s.dev.i2oRecycleRch e t = some d) :
      Trans (.go c) s
        ({ s with dev := d }.setPc c (Sys.afterRecycleUnbuilt kbuf))
  | recycleRead {s c e t d} (hpc : (s.clients c).pc = .recycleRead e t)
      (hd : s.dev.i2oRecycleRch e t = some d) :
      Trans (.go c) s ({ s with dev := d }.setPc c .idle)
  | recycleLast {s c e t d} (hpc : (s.clients c).pc = .recycleLast e t)
      (hd : s.dev.i2oRecycleRch e t = some d) :
      Trans (.go c) s ({ s with dev := d }.setPc c .cleanup)
  | cleanup {s c e d} (hpc : (s.clients c).pc = .cleanup)
      (he : s.dev.cleanupRch c = some e)
      (hd : s.dev.i2oRecycleRch e (s.dev.rch e).request = some d) :
      Trans (.go c) s { s with dev := d }
  | recycleAB {s c recycleA recycleB e t d} {buffer : Buffer} {client : Client}
      (hpc : (s.clients c).pc = .recycleAB buffer recycleA recycleB)
      (hslot : (s.clients c).rchAB buffer = some (e, t))
      (hd : s.dev.i2oRecycleRch e t = some d)
      (hslots : client.rchAB = Function.update (s.clients c).rchAB buffer none)
      (hfree : client.pc.entryFree = true) (hopen : client.pc.closing = false) :
      Trans (.go c) s ({ s with dev := d }.setClient c client)
  | answer {s n p} (hp : s.unanswered[n]? = some p) :
      Trans (.answer n) s
        { s with
          unanswered := s.unanswered.eraseIdx n, replies := s.replies ++ [p] }
  | dispatch {s n p d start nsamples} (hp : s.replies[n]? = some p)
      (hd : s.dev.processCommandMessageReturn p.id start nsamples = some d) :
      Trans (.dispatch n start nsamples) s
        { s with dev := d, replies := s.replies.eraseIdx n }

section Inversion

variable {s s' : Sys} {c : Nat} {l : Label}

/-- A call that may fault, as one of its two outcomes. -/
theorem trans_orOops {d : Option Device} {next : Device → Sys}
    (h : ∀ d', d = some d' → Trans l s (next d')) :
    Trans l s (s.orOops d next) := by
  cases d with
  | none => exact .oops
  | some d' => exact h d' rfl

theorem trans_neutral {pc : Pc} (hl : l.client = some c)
    (hfree : pc.entryFree = true) (hposting : (s.clients c).pc.posting = false)
    (hclosing : (s.clients c).pc.closing = true → pc = .closed) :
    Trans l s (s.setPc c pc) :=
  .neutral (b := s.busyFree) hl rfl hfree hposting hclosing

theorem trans_goAllocRch {op : Op} {asleep : Option Nat} (hl : l.client = some c)
    (hpc : (s.clients c).pc = .allocRch op asleep)
    (h : s.goAllocRch c op asleep = some s') : Trans l s s' := by
  rw [Sys.goAllocRch] at h
  split at h
  · cases h
  · obtain rfl := Option.some.inj h
    refine trans_neutral hl rfl ?_ ?_
    · rw [hpc]
      rfl
    · intro hclosing
      rw [hpc] at hclosing
      cases hclosing
  · rename_i e hfound
    obtain rfl := Option.some.inj h
    obtain ⟨hfree, hlt⟩ := Pool.stretch_found hfound
    exact .allocRch hl hpc hfree hlt rfl rfl

theorem trans_goAllocMapping {op : Op} {e : Nat} {t : Tag} {asleep : Option Nat}
    (hl : l.client = some c) (hpc : (s.clients c).pc = .allocMapping op e t asleep)
    (h : s.goAllocMapping c op e t asleep = some s') : Trans l s s' := by
  rw [Sys.goAllocMapping] at h
  split at h
  · cases h
  · obtain rfl := Option.some.inj h
    exact .sleepMapping hl hpc
  · rename_i m hfound
    obtain rfl := Option.some.inj h
    obtain ⟨hfree, hlt⟩ := Pool.stretch_found hfound
    exact .allocMapping hl hpc hfree hlt

theorem trans_goRequest {pc : Pc} (hpc : (s.clients c).pc = pc)
    (h : s.goRequest c pc = some s') : Trans (.go c) s s' := by
  cases pc with
  | allocRch op asleep =>
    cases asleep with
    | none => exact trans_goAllocRch rfl hpc h
    | some ibuf => cases h
  | allocMapping op e t asleep =>
    cases asleep with
    | none => exact trans_goAllocMapping rfl hpc h
    | some ibuf => cases h
  | recycleUnbuilt e t kbuf =>
    obtain rfl := Option.some.inj h
    exact trans_orOops fun d hd => .recycleUnbuilt hpc hd
  | freeMapping kbuf =>
    obtain rfl := Option.some.inj h
    exact .freeMapping hpc
  | build op e t kbuf =>
    obtain rfl := Option.some.inj h
    refine .build hpc ?_ rfl
    simp [Device.buildRch, Device.setRch]
  | append op e t kbuf predicted =>
    obtain rfl := Option.some.inj h
    exact trans_orOops fun d hd => .append hpc hd
  | removeIfNotValid e t =>
    simp only [Sys.goRequest] at h
    split at h
    · obtain rfl := Option.some.inj h
      exact .oops
    · rename_i hd
      obtain rfl := Option.some.inj h
      exact .removeIfNotValid hpc hd
  | recycleRead e t =>
    obtain rfl := Option.some.inj h
    exact trans_orOops fun d hd => .recycleRead hpc hd
  | _ => cases h

theorem trans_goRelease {pc : Pc} (hpc : (s.clients c).pc = pc)
    (h : s.goRelease c pc = some s') : Trans (.go c) s s' := by
  cases pc with
  | testLast e t =>
    obtain rfl := Option.some.inj h
    split
    · rename_i hvalid
      exact .foundValid hpc hvalid
    · refine trans_neutral rfl rfl ?_ ?_
      · rw [hpc]
        rfl
      · intro hclosing
        rw [hpc] at hclosing
        cases hclosing
  | recycleLast e t =>
    obtain rfl := Option.some.inj h
    exact trans_orOops fun d hd => .recycleLast hpc hd
  | cleanup =>
    simp only [Sys.goRelease] at h
    split at h
    · rename_i e he
      obtain rfl := Option.some.inj h
      exact trans_orOops fun d hd => .cleanup hpc he hd
    · obtain rfl := Option.some.inj h
      refine .neutral rfl rfl rfl ?_ fun _ => rfl
      rw [hpc]
      rfl
  | _ => cases h

/-- A step inside `acq200_bufferABaction` that leaves the device alone. -/
theorem trans_moveAB {client : Client} {b : Bool}
    (hposting : (s.clients c).pc.posting = false)
    (hopen : (s.clients c).pc.closing = false)
    (hslots : client.rchAB = (s.clients c).rchAB)
    (hfree : client.pc.entryFree = true) (hl : l.client = some c) :
    Trans l s ({ s with busyFree := b }.setClient c client) := by
  refine .neutral hl hslots hfree hposting ?_
  intro hclosing
  rw [hopen] at hclosing
  cases hclosing

theorem trans_goAB {pc : Pc} (hpc : (s.clients c).pc = pc)
    (h : s.goAB c pc = some s') : Trans (.go c) s s' := by
  cases pc with
  | recycleAB buffer recycleA recycleB =>
    have hposting : (s.clients c).pc.posting = false := by rw [hpc]; rfl
    have hopen : (s.clients c).pc.closing = false := by rw [hpc]; rfl
    simp only [Sys.goAB] at h
    split at h
    · rename_i e t _ hslot
      obtain rfl := Option.some.inj h
      refine trans_orOops fun d hd => .recycleAB hpc hslot hd rfl ?_ ?_
      · cases buffer <;> rfl
      · cases buffer <;> rfl
    · obtain rfl := Option.some.inj h
      refine trans_moveAB (b := s.busyFree) hposting hopen rfl ?_ rfl
      cases buffer <;> rfl
  | queueAB buffer =>
    have hposting : (s.clients c).pc.posting = false := by rw [hpc]; rfl
    have hopen : (s.clients c).pc.closing = false := by rw [hpc]; rfl
    simp only [Sys.goAB] at h
    split at h
    all_goals
      obtain rfl := Option.some.inj h
      exact trans_moveAB (b := s.busyFree) hposting hopen rfl rfl rfl
  | fillAB second =>
    have hposting : (s.clients c).pc.posting = false := by rw [hpc]; rfl
    have hopen : (s.clients c).pc.closing = false := by rw [hpc]; rfl
    simp only [Sys.goAB] at h
    split at h
    · obtain rfl := Option.some.inj h
      exact .oops
    · split at h
      · split at h
        · obtain rfl := Option.some.inj h
          exact trans_moveAB hposting hopen rfl rfl rfl
        · obtain rfl := Option.some.inj h
          exact trans_moveAB (b := s.busyFree) hposting hopen rfl rfl rfl
      · obtain rfl := Option.some.inj h
        exact trans_moveAB hposting hopen rfl rfl rfl
  | _ => cases h

theorem trans_wake {pc : Pc} (hpc : (s.clients c).pc = pc)
    (h : s.wake c pc = some s') : Trans (.wake c) s s' := by
  cases pc with
  | allocRch op asleep =>
    cases asleep with
    | none => cases h
    | some ibuf => exact trans_goAllocRch rfl hpc h
  | allocMapping op e t asleep =>
    cases asleep with
    | none => cases h
    | some ibuf => exact trans_goAllocMapping rfl hpc h
  | waitRead e t =>
    simp only [Sys.wake] at h
    split at h
    · obtain rfl := Option.some.inj h
      exact .endWaitRead rfl hpc
    · cases h
  | waitLast e t =>
    simp only [Sys.wake] at h
    split at h
    · obtain rfl := Option.some.inj h
      exact .endWaitLast rfl hpc
    · cases h
  | waitAB =>
    simp only [Sys.wake] at h
    split at h
    · obtain rfl := Option.some.inj h
      exact .oops
    · split at h
      · obtain rfl := Option.some.inj h
        exact trans_moveAB (b := s.busyFree) (by rw [hpc]; rfl)
          (by rw [hpc]; rfl) rfl rfl rfl
      · cases h
  | _ => cases h

theorem trans_timeout {pc : Pc} (hpc : (s.clients c).pc = pc)
    (h : s.timeout c pc = some s') : Trans (.timeout c) s s' := by
  cases pc with
  | allocRch op asleep =>
    cases asleep with
    | none => cases op <;> cases h
    | some ibuf =>
      have hposting : (s.clients c).pc.posting = false := by rw [hpc]; rfl
      have hopen : (s.clients c).pc.closing = false := by rw [hpc]; rfl
      cases op with
      | queue buffer =>
        obtain rfl := Option.some.inj h
        exact .oops
      | _ =>
        obtain rfl := Option.some.inj h
        exact trans_moveAB (b := s.busyFree) hposting hopen rfl rfl rfl
  | allocMapping op e t asleep =>
    cases asleep with
    | none => cases h
    | some ibuf =>
      obtain rfl := Option.some.inj h
      exact .failMapping rfl hpc
  | waitAB =>
    obtain rfl := Option.some.inj h
    exact trans_moveAB (by rw [hpc]; rfl) (by rw [hpc]; rfl) rfl rfl rfl
  | _ => cases h

theorem trans_signal {pc : Pc} (hpc : (s.clients c).pc = pc)
    (h : s.signal c pc = some s') : Trans (.signal c) s s' := by
  cases pc with
  | waitRead e t =>
    obtain rfl := Option.some.inj h
    exact .endWaitRead rfl hpc
  | waitLast e t =>
    obtain rfl := Option.some.inj h
    exact .endWaitLast rfl hpc
  | waitAB =>
    obtain rfl := Option.some.inj h
    exact trans_moveAB (by rw [hpc]; rfl) (by rw [hpc]; rfl) rfl rfl rfl
  | _ => cases h

theorem trans_check {pc : Pc} {zero : Bool} (hpc : (s.clients c).pc = pc)
    (h : s.check c zero pc = some s') : Trans (.check c zero) s s' := by
  cases pc with
  | checkLen op e t kbuf =>
    simp only [Sys.check] at h
    split at h
    · split at h
      · obtain rfl := Option.some.inj h
        exact trans_moveAB (b := s.busyFree) (by rw [hpc]; rfl)
          (by rw [hpc]; rfl) rfl rfl rfl
      · obtain rfl := Option.some.inj h
        exact .failLen rfl hpc
    · obtain rfl := Option.some.inj h
      exact .passLen rfl hpc
  | _ => cases h

theorem trans_call {call : Call} (hpc : (s.clients c).pc = .idle)
    (h : s.call c (s.clients c) call = some s') : Trans (.call c call) s s' := by
  have hposting : (s.clients c).pc.posting = false := by rw [hpc]; rfl
  have hopen : (s.clients c).pc.closing = false := by rw [hpc]; rfl
  cases call with
  | read =>
    obtain rfl := Option.some.inj h
    exact trans_moveAB (b := s.busyFree) hposting hopen rfl rfl rfl
  | write =>
    obtain rfl := Option.some.inj h
    exact trans_moveAB (b := s.busyFree) hposting hopen rfl rfl rfl
  | ioctlAB copied recycleA recycleB =>
    simp only [Sys.call] at h
    split at h
    · obtain rfl := Option.some.inj h
      refine trans_moveAB hposting hopen rfl ?_ rfl
      cases copied <;> rfl
    · cases h
  | release =>
    obtain rfl := Option.some.inj h
    refine trans_moveAB (b := s.busyFree) hposting hopen rfl ?_ rfl
    cases (s.clients c).directed <;> rfl

theorem trans_openFile {kind : Kind} (hpc : (s.clients c).pc = .unopened)
    (h : s.openFile c kind = some s') : Trans (.openFile c kind) s s' := by
  have hposting : (s.clients c).pc.posting = false := by rw [hpc]; rfl
  have hopen : (s.clients c).pc.closing = false := by rw [hpc]; rfl
  cases kind with
  | bridge =>
    simp only [Sys.openFile] at h
    split at h
    · obtain rfl := Option.some.inj h
      exact trans_moveAB hposting hopen rfl rfl rfl
    · cases h
  | bufferAB =>
    obtain rfl := Option.some.inj h
    exact trans_moveAB (b := s.busyFree) hposting hopen rfl rfl rfl

theorem trans_go (h : s.clientStep c (.go c) = some s') :
    Trans (.go c) s s' := by
  simp only [Sys.clientStep] at h
  cases hrequest : s.goRequest c (s.clients c).pc with
  | some s₁ =>
    rw [hrequest] at h
    obtain rfl := Option.some.inj h
    exact trans_goRequest rfl hrequest
  | none =>
    rw [hrequest] at h
    cases hrelease : s.goRelease c (s.clients c).pc with
    | some s₁ =>
      rw [hrelease] at h
      obtain rfl := Option.some.inj h
      exact trans_goRelease rfl hrelease
    | none =>
      rw [hrelease] at h
      exact trans_goAB rfl h

/-- Every step is one of `Trans`. -/
theorem trans_of_step (h : Sys.step l s = some s') : Trans l s s' := by
  unfold Sys.step at h
  split at h
  · cases h
  · cases l with
    | answer n =>
      obtain ⟨p, hp, rfl⟩ := Option.map_eq_some_iff.mp h
      exact .answer hp
    | dispatch n start nsamples =>
      obtain ⟨p, hp, rfl⟩ := Option.map_eq_some_iff.mp h
      exact trans_orOops fun d hd => .dispatch hp hd
    | openFile c kind =>
      simp only [Sys.clientStep] at h
      split at h
      · exact trans_openFile ‹_› h
      · cases h
    | call c call =>
      simp only [Sys.clientStep] at h
      split at h
      · exact trans_call ‹_› h
      · cases h
    | go c => exact trans_go h
    | check c zero => exact trans_check rfl h
    | send c mfa =>
      simp only [Sys.clientStep] at h
      split at h
      · rename_i hpc
        obtain rfl := Option.some.inj h
        exact .send hpc
      · cases h
    | wake c => exact trans_wake rfl h
    | timeout c => exact trans_timeout rfl h
    | signal c => exact trans_signal rfl h

end Inversion

end Acq200.Rch
