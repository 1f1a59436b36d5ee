import Acq200.Lib.Run
import Acq200.StreamBuf.Queue

/-!
# Two producers of the stream ring

The backstop thread and the interrupt handler both end in
`genericIntBufPut`, and that function takes no lock.  This module lets the
interrupt fall between any two accesses of the thread to the ring.

`Pc` lists the accesses of one thread-level put in program order, so a
state with `pc ≠ .idle` is a thread that was stopped between two of them.
An interrupt is one complete put, and a bottom half may take words at any
time.  `step` is the system and `IsrSafe` is the condition on an
interrupt: it must not bring a frame after the thread has read `iput` for
its slot, and before that it must leave the ring room for the thread.

`preempt_faithful` is the run result: under that condition every frame
whose put answered `0` is got exactly once and in order, and nothing else
is.  `preempt_loses_frame` is a run with one interrupt between the slot
write and the store of `iput`.
-/

namespace Acq200.StreamBuf

open Acq200.Lib

/-! ## The system -/

/-- Where a thread-level `genericIntBufPut` stands.  Each constructor but
`idle` names the access that comes next, with the words the thread has
read so far. -/
inductive Pc where
  | idle
  /-- `genericIntBufIsFull` has read `iput` and reads `iputback` next. -/
  | readPutback (data : UInt32) (iput : Nat)
  /-- The ring was not full; `buf->iput` is read for the slot. -/
  | readSlot (data : UInt32)
  | writeSlot (data : UInt32) (slot : Nat)
  /-- `buf->iput` is read for the increment. -/
  | readInc (data : UInt32)
  /-- `buf->iput` is read for the wrap test. -/
  | readWrap (data : UInt32) (iput : Nat)
  | writeIswrapped (data : UInt32) (iput : Nat)
  | readNwrapped (data : UInt32) (iput : Nat)
  | writeNwrapped (data : UInt32) (iput : Nat) (nwrapped : BitVec 32)
  | writeIput (data : UInt32) (iput : Nat)
  deriving DecidableEq

/-- The ring, the put in progress, and two ghost records: the frames whose
put answered `0` and the frames that a get returned. -/
structure Shared where
  buf : GenericIntBuf
  pc : Pc
  accepted : List UInt32
  got : List UInt32

inductive Event where
  /-- The thread popped `mfa` and calls `acq200_consume_i2o`. -/
  | call (mfa : UInt32)
  /-- The thread makes its next access. -/
  | access
  /-- An interrupt popped `mfa` and runs to completion. -/
  | isr (mfa : UInt32)
  /-- The bottom half calls `streamGet`. -/
  | get
  deriving DecidableEq

/-- The test that both message handlers make on a popped frame. -/
def isFrame (mfa : UInt32) : Bool :=
  !(mfa == 0xffffffff || mfa == 0)

/-- The next access of the thread. -/
def access (s : Shared) : Option Shared :=
  match s.pc with
  | .idle => none
  | .readPutback data iput =>
    if genericIntBufInc s.buf iput == s.buf.iputback then
      some { s with pc := .idle }
    else some { s with pc := .readSlot data }
  | .readSlot data => some { s with pc := .writeSlot data s.buf.iput }
  | .writeSlot data slot =>
    some { s with
      buf := { s.buf with buffers := Function.update s.buf.buffers slot data },
      pc := .readInc data }
  | .readInc data =>
    some { s with pc := .readWrap data (genericIntBufInc s.buf s.buf.iput) }
  | .readWrap data iput =>
    if iput < s.buf.iput then some { s with pc := .writeIswrapped data iput }
    else some { s with pc := .writeIput data iput }
  | .writeIswrapped data iput =>
    some { s with buf := { s.buf with iswrapped := 1 },
                  pc := .readNwrapped data iput }
  | .readNwrapped data iput =>
    some { s with pc := .writeNwrapped data iput s.buf.nwrapped }
  | .writeNwrapped data iput nwrapped =>
    some { s with buf := { s.buf with nwrapped := nwrapped + 1 },
                  pc := .writeIput data iput }
  | .writeIput data iput =>
    some { s with buf := { s.buf with iput := iput }, pc := .idle,
                  accepted := s.accepted ++ [data] }

def step : Event → Shared → Option Shared
  | .call mfa, s =>
    if s.pc = .idle then
      if isFrame mfa then some { s with pc := .readPutback mfa s.buf.iput }
      else some s
    else none
  | .access, s => access s
  | .isr mfa, s =>
    if isFrame mfa then
      some { s with
        buf := (streamPut s.buf mfa).1,
        accepted := if (streamPut s.buf mfa).2 = 0 then s.accepted ++ [mfa]
          else s.accepted }
    else some s
  | .get, s =>
    some { s with
      buf := (streamGet s.buf).1,
      got := if (streamGet s.buf).2 = STREAM_MFA_INVALID then s.got
        else s.got ++ [(streamGet s.buf).2] }

/-- The ring of a device that was just created, with no put in progress. -/
def initial : Shared :=
  { buf := streamBufInit zeroed, pc := .idle, accepted := [], got := [] }

/-- What a bottom half takes from the ring when it is left alone. -/
def drain : Nat → GenericIntBuf → List UInt32
  | 0, _ => []
  | fuel + 1, buf =>
    if (streamGet buf).2 = STREAM_MFA_INVALID then []
    else (streamGet buf).2 :: drain fuel (streamGet buf).1

/-- Every frame whose put answered `0` has been got, or will be got by the
bottom half, exactly once; and nothing else is got. -/
def Faithful (s : Shared) : Prop :=
  (s.got ++ drain NSTREAMBUF s.buf).Perm s.accepted

/-- The thread has begun a put and has not yet read `iput` for its slot. -/
def Pc.beforeSlot : Pc → Bool
  | .readPutback _ _ | .readSlot _ => true
  | _ => false

/-- An interrupt that brings a frame is safe when the ring refuses its put;
when the thread is not inside a put; or when the thread has not yet read
its slot and the ring has room for a second put after the one of the
interrupt. -/
def IsrSafe : Event → Shared → Prop
  | .isr mfa, s =>
    isFrame mfa = true →
      genericIntBufIsFull s.buf = true ∨ s.pc = .idle ∨
        s.pc.beforeSlot = true ∧
          genericIntBufIsFull (streamPut s.buf mfa).1 = false
  | _, _ => True

instance : ∀ e s, Decidable (IsrSafe e s)
  | .isr mfa, s => inferInstanceAs (Decidable (isFrame mfa = true →
      genericIntBufIsFull s.buf = true ∨ s.pc = .idle ∨
        s.pc.beforeSlot = true ∧
          genericIntBufIsFull (streamPut s.buf mfa).1 = false))
  | .call _, _ | .access, _ | .get, _ => inferInstanceAs (Decidable True)

/-! ## The invariant -/

/-- From the slot write on, the slot at `iput` holds the data of the thread
and `iput` is the index that the thread is about to store. -/
def Written (buf : GenericIntBuf) (data : UInt32) (iput : Nat) : Prop :=
  genericIntBufIsFull buf = false ∧ buf.buffers buf.iput = data ∧
    iput = genericIntBufInc buf buf.iput

/-- What the thread has read is still right. -/
def PcInv (buf : GenericIntBuf) : Pc → Prop
  | .idle => True
  | .readPutback data iput =>
    isFrame data = true ∧ (iput = buf.iput ∨ genericIntBufIsFull buf = false)
  | .readSlot data => isFrame data = true ∧ genericIntBufIsFull buf = false
  | .writeSlot data slot =>
    isFrame data = true ∧ genericIntBufIsFull buf = false ∧ slot = buf.iput
  | .readInc data =>
    isFrame data = true ∧ genericIntBufIsFull buf = false ∧
      buf.buffers buf.iput = data
  | .readWrap data iput | .writeIswrapped data iput | .readNwrapped data iput
  | .writeNwrapped data iput _ | .writeIput data iput =>
    isFrame data = true ∧ Written buf data iput

/-- The ring represents a queue, the reader took its history, the puts
that answered `0` are its contents, and every word in it is a frame. -/
structure PreemptInv (s : Shared) (q : PutBackQueue UInt32) : Prop where
  rep : Rep 7 s.buf q
  got_eq : s.got = q.taken ++ q.out
  accepted_eq : s.accepted = q.contents
  frames : ∀ x ∈ q.held, isFrame x = true
  pcInv : PcInv s.buf s.pc

theorem isFrame_ne_invalid {mfa : UInt32} (h : isFrame mfa = true) :
    mfa ≠ STREAM_MFA_INVALID := by
  rintro rfl
  cases h

theorem preemptInv_initial : PreemptInv initial PutBackQueue.empty where
  rep := rep_init zeroed
  got_eq := rfl
  accepted_eq := rfl
  frames := fun _ hx => by cases hx
  pcInv := trivial

theorem frames_put {q : PutBackQueue UInt32} {data : UInt32}
    (h : ∀ x ∈ q.held, isFrame x = true) (hdata : isFrame data = true) :
    ∀ x ∈ (q.put data).held, isFrame x = true := by
  intro x hx
  rw [PutBackQueue.held_put, List.mem_append, List.mem_singleton] at hx
  rcases hx with hx | rfl
  · exact h x hx
  · exact hdata

/-- One access of the thread.  Only the last one, the store of `iput`, is
seen by the queue. -/
theorem preemptInv_access {s s' : Shared} {q : PutBackQueue UInt32}
    (h : PreemptInv s q) (hs : access s = some s') :
    ∃ q', PreemptInv s' q' := by
  have hpc := h.pcInv
  cases hp : s.pc with
  | idle =>
    rw [access, hp] at hs
    cases hs
  | readPutback data iput =>
    rw [hp] at hpc
    rw [access, hp] at hs
    simp only at hs
    split at hs
    · obtain rfl := Option.some.inj hs
      exact ⟨q, h.rep, h.got_eq, h.accepted_eq, h.frames, trivial⟩
    · rename_i htest
      obtain rfl := Option.some.inj hs
      refine ⟨q, h.rep, h.got_eq, h.accepted_eq, h.frames, hpc.1, ?_⟩
      rcases hpc.2 with rfl | hfull
      · rw [← Bool.not_eq_true, genericIntBufIsFull]
        exact htest
      · exact hfull
  | readSlot data =>
    rw [hp] at hpc
    rw [access, hp] at hs
    obtain rfl := Option.some.inj hs
    exact ⟨q, h.rep, h.got_eq, h.accepted_eq, h.frames, hpc.1, hpc.2, rfl⟩
  | writeSlot data slot =>
    rw [hp] at hpc
    obtain ⟨hdata, hfull, rfl⟩ := hpc
    rw [access, hp] at hs
    obtain rfl := Option.some.inj hs
    exact ⟨q, h.rep.write data, h.got_eq, h.accepted_eq, h.frames, hdata, hfull,
      Function.update_self s.buf.iput data s.buf.buffers⟩
  | readInc data =>
    rw [hp] at hpc
    rw [access, hp] at hs
    obtain rfl := Option.some.inj hs
    exact ⟨q, h.rep, h.got_eq, h.accepted_eq, h.frames, hpc.1, hpc.2.1,
      hpc.2.2, rfl⟩
  | readWrap data iput =>
    rw [hp] at hpc
    rw [access, hp] at hs
    simp only at hs
    split at hs
    all_goals
      obtain rfl := Option.some.inj hs
      exact ⟨q, h.rep, h.got_eq, h.accepted_eq, h.frames, hpc⟩
  | writeIswrapped data iput =>
    rw [hp] at hpc
    rw [access, hp] at hs
    obtain rfl := Option.some.inj hs
    exact ⟨q, h.rep.congr rfl rfl rfl rfl rfl, h.got_eq, h.accepted_eq,
      h.frames, hpc⟩
  | readNwrapped data iput =>
    rw [hp] at hpc
    rw [access, hp] at hs
    obtain rfl := Option.some.inj hs
    exact ⟨q, h.rep, h.got_eq, h.accepted_eq, h.frames, hpc⟩
  | writeNwrapped data iput nwrapped =>
    rw [hp] at hpc
    rw [access, hp] at hs
    obtain rfl := Option.some.inj hs
    exact ⟨q, h.rep.congr rfl rfl rfl rfl rfl, h.got_eq, h.accepted_eq,
      h.frames, hpc⟩
  | writeIput data iput =>
    rw [hp] at hpc
    obtain ⟨hdata, hfull, hslot, rfl⟩ := hpc
    rw [access, hp] at hs
    obtain rfl := Option.some.inj hs
    refine ⟨q.put data, h.rep.commit hfull hslot, h.got_eq, ?_,
      frames_put h.frames hdata, trivial⟩
    show s.accepted ++ [data] = (q.put data).contents
    rw [PutBackQueue.contents_put, h.accepted_eq]

/-- An interrupt that meets `IsrSafe`. -/
theorem preemptInv_isr {s : Shared} {q : PutBackQueue UInt32} {mfa : UInt32}
    (h : PreemptInv s q) (hmfa : isFrame mfa = true)
    (hsafe : IsrSafe (.isr mfa) s) :
    ∃ q', PreemptInv
      { s with
        buf := (streamPut s.buf mfa).1,
        accepted := if (streamPut s.buf mfa).2 = 0 then s.accepted ++ [mfa]
          else s.accepted } q' := by
  cases hfull : genericIntBufIsFull s.buf with
  | true =>
    rw [streamPut, genericIntBufPut_of_full hfull]
    exact ⟨q, h.rep, h.got_eq, h.accepted_eq, h.frames, h.pcInv⟩
  | false =>
    have hpc : PcInv (streamPut s.buf mfa).1 s.pc := by
      have hpcInv := h.pcInv
      rcases hsafe hmfa with hf | hidle | ⟨hbefore, hroom⟩
      · rw [hfull] at hf
        cases hf
      · rw [hidle]
        trivial
      · cases hp : s.pc with
        | readPutback data iput =>
          rw [hp] at hpcInv
          exact ⟨hpcInv.1, Or.inr hroom⟩
        | readSlot data =>
          rw [hp] at hpcInv
          exact ⟨hpcInv.1, hroom⟩
        | _ =>
          rw [hp] at hbefore
          cases hbefore
    refine ⟨q.put mfa, h.rep.put hfull mfa, h.got_eq, ?_,
      frames_put h.frames hmfa, hpc⟩
    rw [streamPut, genericIntBufPut_of_not_full hfull]
    show s.accepted ++ [mfa] = (q.put mfa).contents
    rw [PutBackQueue.contents_put, h.accepted_eq]

/-- A get never fills the ring. -/
theorem Rep.isFull_get {k : Nat} {buf : GenericIntBuf}
    {q : PutBackQueue UInt32} (h : Rep k buf q)
    (hfull : genericIntBufIsFull buf = false) :
    genericIntBufIsFull (genericIntBufGet buf).1 = false := by
  cases hq : q.queue with
  | nil =>
    rw [h.get_empty hq]
    exact hfull
  | cons x rest =>
    have hroom := h.not_full hfull
    obtain ⟨_, hrep⟩ := h.get hq
    rw [← Bool.not_eq_true, hrep.isFull_iff, PutBackQueue.get_cons hq]
    rw [PutBackQueue.held, hq, List.length_append, List.length_cons] at hroom
    show ¬ rest.length + 1 + 1 = 2 ^ k
    omega

/-- A get leaves what the thread relies on. -/
theorem PcInv.get {k : Nat} {buf : GenericIntBuf} {q : PutBackQueue UInt32}
    {pc : Pc} (hrep : Rep k buf q) (h : PcInv buf pc) :
    PcInv (genericIntBufGet buf).1 pc := by
  have hget := fun hf => hrep.isFull_get hf
  have hput : (genericIntBufGet buf).1.iput = buf.iput := by
    rw [genericIntBufGet]
    split <;> rfl
  have hslots : (genericIntBufGet buf).1.buffers = buf.buffers := by
    rw [genericIntBufGet]
    split <;> rfl
  have hinc : ∀ ii, genericIntBufInc (genericIntBufGet buf).1 ii
      = genericIntBufInc buf ii := by
    intro ii
    rw [genericIntBufGet]
    split <;> rfl
  cases pc with
  | idle => trivial
  | readPutback data iput =>
    refine ⟨h.1, ?_⟩
    rw [hput]
    exact h.2.imp id hget
  | readSlot data => exact ⟨h.1, hget h.2⟩
  | writeSlot data slot => exact ⟨h.1, hget h.2.1, hput ▸ h.2.2⟩
  | readInc data =>
    refine ⟨h.1, hget h.2.1, ?_⟩
    rw [hput, hslots]
    exact h.2.2
  | _ =>
    refine ⟨h.1, hget h.2.1, ?_⟩
    rw [hput, hslots, hinc]
    exact h.2.2

theorem preemptInv_get {s : Shared} {q : PutBackQueue UInt32}
    (h : PreemptInv s q) :
    ∃ q', PreemptInv
      { s with
        buf := (streamGet s.buf).1,
        got := if (streamGet s.buf).2 = STREAM_MFA_INVALID then s.got
          else s.got ++ [(streamGet s.buf).2] } q' := by
  have hpc := h.pcInv.get h.rep
  cases hq : q.queue with
  | nil =>
    rw [streamGet, h.rep.get_empty hq]
    exact ⟨q, h.rep, h.got_eq, h.accepted_eq, h.frames, h.pcInv⟩
  | cons x rest =>
    obtain ⟨hget, hrep⟩ := h.rep.get hq
    have hmem : x ∈ q.held := by
      rw [PutBackQueue.held, hq]
      exact List.mem_append_right _ List.mem_cons_self
    have hne : (streamGet s.buf).2 ≠ STREAM_MFA_INVALID := by
      rw [streamGet, hget]
      exact isFrame_ne_invalid (h.frames x hmem)
    refine ⟨q.get.1, hrep, ?_, ?_, ?_, hpc⟩
    · show (if (streamGet s.buf).2 = STREAM_MFA_INVALID then s.got
        else s.got ++ [(streamGet s.buf).2]) = q.get.1.taken ++ q.get.1.out
      rw [if_neg hne, streamGet, hget, PutBackQueue.get_cons hq, h.got_eq]
      rfl
    · show s.accepted = q.get.1.contents
      rw [PutBackQueue.contents_get, h.accepted_eq]
    · intro y hy
      refine h.frames y ?_
      rw [PutBackQueue.get_cons hq] at hy
      rw [PutBackQueue.held, hq]
      exact List.mem_append_right _ hy

theorem preemptInv_step (e : Event) (s s' : Shared)
    (h : ∃ q, PreemptInv s q) (hsafe : IsrSafe e s)
    (hs : step e s = some s') : ∃ q', PreemptInv s' q' := by
  obtain ⟨q, h⟩ := h
  cases e with
  | call mfa =>
    rw [step] at hs
    split at hs
    · split at hs
      · rename_i hmfa
        obtain rfl := Option.some.inj hs
        exact ⟨q, h.rep, h.got_eq, h.accepted_eq, h.frames, hmfa, Or.inl rfl⟩
      · obtain rfl := Option.some.inj hs
        exact ⟨q, h⟩
    · cases hs
  | access => exact preemptInv_access h hs
  | isr mfa =>
    rw [step] at hs
    split at hs
    · rename_i hmfa
      obtain rfl := Option.some.inj hs
      exact preemptInv_isr h hmfa hsafe
    · obtain rfl := Option.some.inj hs
      exact ⟨q, h⟩
  | get =>
    obtain rfl := Option.some.inj hs
    exact preemptInv_get h

/-! ## What the bottom half gets -/

/-- A bottom half that is left alone takes the queue. -/
theorem drain_eq {k : Nat} (fuel : Nat) :
    ∀ {buf : GenericIntBuf} {q : PutBackQueue UInt32}, Rep k buf q →
      (∀ x ∈ q.held, isFrame x = true) → q.queue.length ≤ fuel →
      drain fuel buf = q.queue := by
  induction fuel with
  | zero =>
    intro buf q _ _ hlen
    exact (List.length_eq_zero_iff.mp (by omega)).symm
  | succ fuel ih =>
    intro buf q hrep hframes hlen
    cases hq : q.queue with
    | nil =>
      rw [drain, streamGet, hrep.get_empty hq]
      rfl
    | cons x rest =>
      obtain ⟨hget, hnext⟩ := hrep.get hq
      have hmem : ∀ y ∈ x :: rest, isFrame y = true := by
        intro y hy
        refine hframes y ?_
        rw [PutBackQueue.held, hq]
        exact List.mem_append_right _ hy
      have hne : (streamGet buf).2 ≠ STREAM_MFA_INVALID := by
        rw [streamGet, hget]
        exact isFrame_ne_invalid (hmem x List.mem_cons_self)
      have hrest := ih hnext
        (by rw [PutBackQueue.get_cons hq]; exact hmem)
        (by
          rw [PutBackQueue.get_cons hq]
          rw [hq, List.length_cons] at hlen
          exact Nat.le_of_succ_le_succ hlen)
      rw [drain, if_neg hne, streamGet, hrest, hget, PutBackQueue.get_cons hq]

/-- In every run whose interrupts meet `IsrSafe`, the frames whose put
answered `0` are got exactly once, in the order of their puts, and nothing
else is got. -/
theorem preempt_faithful (events : List Event) (s : Shared)
    (hsafe : RunMeets step IsrSafe events initial)
    (hrun : runFrom step events initial = some s) :
    Faithful s ∧ s.got ++ drain NSTREAMBUF s.buf = s.accepted := by
  obtain ⟨q, h⟩ := runFrom_inv preemptInv_step ⟨_, preemptInv_initial⟩ hsafe hrun
  have hroom := h.rep.room
  have hdrain : drain NSTREAMBUF s.buf = q.queue := by
    refine drain_eq NSTREAMBUF h.rep h.frames ?_
    rw [PutBackQueue.held, List.length_append] at hroom
    show q.queue.length ≤ 2 ^ 7
    omega
  have heq : s.got ++ drain NSTREAMBUF s.buf = s.accepted := by
    rw [hdrain, h.got_eq, h.accepted_eq, PutBackQueue.contents,
      PutBackQueue.held, List.append_assoc]
  exact ⟨List.Perm.of_eq heq, heq⟩

/-- The thread puts frame `16`, and an interrupt puts frame `32` before the
thread reads its slot. -/
def safeRun : List Event :=
  [.call 16, .access, .isr 32, .access, .access, .access, .access, .access, .get]

theorem preempt_faithful_safeRun :
    ∃ s, runFrom step safeRun initial = some s ∧ s.accepted = [32, 16] ∧
      Faithful s ∧ s.got ++ drain NSTREAMBUF s.buf = [32, 16] := by
  obtain ⟨s, hrun, hacc⟩ : ∃ s, runFrom step safeRun initial = some s ∧
      s.accepted = [32, 16] := ⟨_, rfl, rfl⟩
  obtain ⟨hfaith, heq⟩ := preempt_faithful safeRun s (by decide) hrun
  exact ⟨s, hrun, hacc, hfaith, by rw [heq, hacc]⟩

/-- The interrupt falls between the slot write of the thread and its read
of `iput` for the increment.  Both puts answer `0`.  The frame `16` of the
thread is overwritten, and the slot after it, which nobody wrote, is
handed out as an address. -/
theorem preempt_loses_frame :
    ∃ s, runFrom step [.call 16, .access, .access, .access, .isr 32, .access,
        .access, .access] initial = some s ∧
      s.pc = .idle ∧ s.accepted = [32, 16] ∧
      s.got ++ drain NSTREAMBUF s.buf = [32, 0] ∧ ¬ Faithful s := by
  refine ⟨_, rfl, rfl, rfl, by decide, ?_⟩
  rw [Faithful]
  decide

end Acq200.StreamBuf
