import Acq200.Lib.Run
import Acq200.Rch.DeviceInv

/-!
# The hand-off of an interrupted read

A read whose wait is interrupted leaves its handler to the bottom half, and
one that was answered recycles it.  Who does it is settled in two places:
`rchRemoveIfNotValid` of the reader, and `acq200_processCommandMessageReturn`,
which looks at `rch->handler` without the lock and then either calls the
handler function or recycles the handler.

This module cuts the dispatch of one reply in two, the test of the pointer and
what follows it.  The call goes to the function that the test has seen; where
the compiler reads the pointer again, the call follows a null pointer in the
same order of steps.  Between the steps of the two sides other clients may
do anything to other handlers.

`handed_off_iff` says which orders of the steps leave the handler with exactly
one owner.  `dispatch_alone` says that the two steps of the dispatch together
are `Device.processCommandMessageReturn`.
-/

namespace Acq200.Rch

open Acq200.Lib
open Device

/-! ## The two sides -/

/-- The reader after its wait. -/
inductive ReaderPc where
  /-- Before `rchRemoveIfNotValid`. -/
  | woken
  /-- Before `i2o_recycleRch`, with the answer of `rchRemoveIfNotValid`. -/
  | recycle (valid : Int)
  /-- Returned after that answer: a count after 1, `-EINTR` after 0 and
  `-EFAULT` otherwise. -/
  | returned (valid : Int)
  deriving DecidableEq

/-- The dispatch of the reply, which has found the handler on the list. -/
inductive DispatchPc where
  | arrived
  /-- What the test of `rch->handler` has seen. -/
  | tested (handler : Option Handler)
  | done (handler : Option Handler)
  deriving DecidableEq

structure HandOff where
  dev : Device
  reader : ReaderPc
  dispatch : DispatchPc
  /-- One side has unlinked an entry that is not linked. -/
  faulted : Bool

/-- The wait is over, and the reply has come. -/
def HandOff.start (d : Device) : HandOff :=
  { dev := d, reader := .woken, dispatch := .arrived, faulted := false }

/-- The calls of `acq200_pool_free_rch` for an entry. -/
def freesOf (e : Nat) (d : Device) : List Free := d.frees.filter fun f => f.entry = e

/-- Nothing that belongs to entry `e` has changed. -/
structure SameEntry (e : Nat) (d d' : Device) : Prop where
  rch : d'.rch e = d.rch e
  linked : e ∈ d'.list ↔ e ∈ d.list
  nodup : d.list.Nodup → d'.list.Nodup
  owner : d'.owner e = d.owner e
  reserved : d'.handlers.reserved e = d.handlers.reserved e
  maxEntries : d'.handlers.maxEntries = d.handlers.maxEntries ∧
    d'.mappings.maxEntries = d.mappings.maxEntries
  mapping : ∀ m, poolKbuf (d.rch e).rchReturn = some (.mapping m) →
    d'.mappings.reserved m = d.mappings.reserved m
  frees : freesOf e d' = freesOf e d

/-- What other clients do. -/
structure Foreign (e : Nat) where
  run : Device → Device
  same : ∀ d, SameEntry e d (run d)

inductive HandOffLabel (e : Nat) where
  | reader
  | dispatch
  | other (f : Foreign e)

def HandOff.fault (s : HandOff) : HandOff := { s with faulted := true }

/-- The next step of the reader. -/
def HandOff.read (s : HandOff) (e : Nat) (t : Tag) : Option HandOff :=
  match s.reader with
  | .woken =>
    match s.dev.rchRemoveIfNotValid e with
    | none => some s.fault
    | some (d, valid) =>
      some { s with dev := d, reader := if valid = 0 then .returned 0 else .recycle valid }
  | .recycle valid =>
    match s.dev.i2oRecycleRch e t with
    | none => some s.fault
    | some d => some { s with dev := d, reader := .returned valid }
  | .returned _ => none

/-- The next step of the dispatch of a reply with these samples. -/
def HandOff.answer (s : HandOff) (e : Nat) (start nsamples : BitVec 32) : Option HandOff :=
  match s.dispatch with
  | .arrived => some { s with dispatch := .tested (s.dev.rch e).handler }
  | .tested (some handler) =>
    match s.dev.handle e start nsamples handler with
    | none => some s.fault
    | some d => some { s with dev := d, dispatch := .done (some handler) }
  | .tested none =>
    match s.dev.i2oRecycleRch e (s.dev.rch e).request with
    | none => some s.fault
    | some d =>
      some { s with
        dev := { d with i2oPacketsDiscarded := d.i2oPacketsDiscarded + 1 }
        dispatch := .done none }
  | .done _ => none

/-- No step follows a fault. -/
def handOffStep (e : Nat) (t : Tag) (start nsamples : BitVec 32) (l : HandOffLabel e)
    (s : HandOff) : Option HandOff :=
  if s.faulted then none
  else
    match l with
    | .reader => s.read e t
    | .dispatch => s.answer e start nsamples
    | .other f => some { s with dev := f.run s.dev }

/-- Without a step of the reader in between, the dispatch is the function of
the source. -/
theorem dispatch_alone {s : HandOff} {e : Nat} {t : Tag} {id : BitVec 16}
    {start nsamples : BitVec 32} {d : Device} (hpc : s.dispatch = .arrived)
    (hrunning : s.faulted = false) (hfind : s.dev.findRch id = some e)
    (hdone : s.dev.processCommandMessageReturn id start nsamples = some d) :
    runFrom (handOffStep e t start nsamples) [.dispatch, .dispatch] s
      = some { s with dev := d, dispatch := .done (s.dev.rch e).handler } := by
  simp only [processCommandMessageReturn, hfind] at hdone
  simp only [runFrom, handOffStep, hrunning, HandOff.answer, hpc]
  cases hhandler : (s.dev.rch e).handler with
  | none =>
    simp only [hhandler] at hdone
    obtain ⟨d₁, hrecycle, rfl⟩ := Option.map_eq_some_iff.mp hdone
    simp [hrecycle]
  | some handler =>
    simp only [hhandler] at hdone
    simp [hdone]

/-! ## The contract -/

/-- The read waits on a handler that has no reply yet. -/
structure Waiting (d : Device) (e : Nat) (t : Tag) : Prop where
  inv : DevInv d
  live : Live d e t .handleReadMessageFile
  valid : (d.rch e).rchReturn.valid = 0
  device : (d.rch e).device = true
  mapping : ∀ m, poolKbuf (d.rch e).rchReturn = some (.mapping m) →
    m < d.mappings.maxEntries

/-- `buildRch` and `rchAppend` of a read lead there. -/
theorem waiting_of_append {d d' : Device} {e : Nat} {t : Tag} {kbuf : Option Kbuf}
    {flags : Nat} (hinv : DevInv d) (h : Unbuilt d e t)
    (hmapping : ∀ m, kbuf = some (.mapping m) → m < d.mappings.maxEntries)
    (happend : (d.buildRch e .handleReadMessageFile t.client kbuf flags t).rchAppend e
      = some d') : Waiting d' e t := by
  have hbuilt := h.build .handleReadMessageFile kbuf flags
  have hinv' : DevInv (d.buildRch e .handleReadMessageFile t.client kbuf flags t) :=
    hinv.setRch h.1 h.2.1 (Int.zero_le_ofNat 1)
  obtain ⟨hinv', -, hlive⟩ := hbuilt.append hinv' happend
  rw [rchAppend, if_neg hbuilt.2.1] at happend
  cases happend
  refine ⟨hinv', hlive, ?_, ?_, ?_⟩
  · simp [buildRch]
  · simp [buildRch]
  · intro m hm
    simp only [buildRch, setRch_rch_self, poolKbuf] at hm
    split at hm
    · exact hmapping m hm
    · cases hm

/-- Both sides are done, or one has faulted. -/
def HandOff.Complete (s : HandOff) : Prop :=
  s.faulted = true ∨ ∃ valid handler, s.reader = .returned valid ∧ s.dispatch = .done handler

/-- The handler and its mapping have been recycled once, for the read that had
them, and a read that was interrupted has left nothing on the list. -/
structure HandedOff (d : Device) (e : Nat) (t : Tag) (s : HandOff) : Prop where
  running : s.faulted = false
  once : freesOf e s.dev = freesOf e d ++ [⟨e, t, true, some t⟩]
  mapping : ∀ m, poolKbuf (d.rch e).rchReturn = some (.mapping m) →
    s.dev.mappings.reserved m = false
  unlinked : s.reader = .returned 0 → e ∉ s.dev.list

/-- The reader's section comes before the test of the handler pointer, or after
the handler function has filled in a reply that is no error. -/
def ReaderInTurn {e : Nat} (nsamples : BitVec 32) (l : HandOffLabel e) (s : HandOff) : Prop :=
  match l, s.reader, s.dispatch with
  | .reader, .woken, .tested _ => False
  | .reader, .woken, .done _ => nsamples ≠ 0xffffffff#32
  | _, _, _ => True

/-! ## Who holds the handler -/

section Sides

variable {d₀ d d' : Device} {e : Nat} {t : Tag} {start nsamples : BitVec 32}

/-- The request still has its handler. -/
structure StillHeld (d₀ : Device) (e : Nat) (t : Tag) (d : Device) : Prop where
  nodup : d.list.Nodup
  owner : d.owner e = some t
  reserved : d.handlers.reserved e = true
  lt : e < d.handlers.maxEntries
  path : (d.rch e).path = some t.client
  request : (d.rch e).request = t
  device : (d.rch e).device = true
  kbuf : poolKbuf (d.rch e).rchReturn = poolKbuf (d₀.rch e).rchReturn
  mapping : ∀ m, poolKbuf (d₀.rch e).rchReturn = some (.mapping m) →
    m < d.mappings.maxEntries
  frees : freesOf e d = freesOf e d₀

/-- The handler has been recycled once. -/
structure Freed (d₀ : Device) (e : Nat) (t : Tag) (d : Device) : Prop where
  once : freesOf e d = freesOf e d₀ ++ [⟨e, t, true, some t⟩]
  kbuf : poolKbuf (d.rch e).rchReturn = poolKbuf (d₀.rch e).rchReturn
  mapping : ∀ m, poolKbuf (d₀.rch e).rchReturn = some (.mapping m) →
    d.mappings.reserved m = false
  unlinked : e ∉ d.list

theorem Waiting.held (h : Waiting d₀ e t) : StillHeld d₀ e t d₀ where
  nodup := h.inv.list_nodup
  owner := h.live.1
  reserved := (h.inv.reserved_iff e).mpr (by rw [h.live.1]; rfl)
  lt := (h.inv.owner_lt e t h.live.1).1
  path := h.live.2.2.1
  request := h.live.2.2.2.1
  device := h.device
  kbuf := rfl
  mapping := h.mapping
  frees := rfl

theorem StillHeld.foreign (h : StillHeld d₀ e t d) (hsame : SameEntry e d d') :
    StillHeld d₀ e t d' where
  nodup := hsame.nodup h.nodup
  owner := hsame.owner.trans h.owner
  reserved := hsame.reserved.trans h.reserved
  lt := hsame.maxEntries.1 ▸ h.lt
  path := by rw [hsame.rch]; exact h.path
  request := by rw [hsame.rch]; exact h.request
  device := by rw [hsame.rch]; exact h.device
  kbuf := by rw [hsame.rch]; exact h.kbuf
  mapping := by rw [hsame.maxEntries.2]; exact h.mapping
  frees := hsame.frees.trans h.frees

theorem Freed.foreign (h : Freed d₀ e t d) (hsame : SameEntry e d d') : Freed d₀ e t d' where
  once := hsame.frees.trans h.once
  kbuf := by rw [hsame.rch]; exact h.kbuf
  mapping := fun m hm => (hsame.mapping m (h.kbuf.trans hm)).trans (h.mapping m hm)
  unlinked := fun hm => h.unlinked (hsame.linked.mp hm)

/-- The reply is filled in, or the handler function is cleared. -/
theorem StillHeld.setRch (h : StillHeld d₀ e t d) {rch : ReturnCommandHandler}
    (hpath : rch.path = (d.rch e).path) (hrequest : rch.request = (d.rch e).request)
    (hdevice : rch.device = (d.rch e).device)
    (hkbuf : poolKbuf rch.rchReturn = poolKbuf (d.rch e).rchReturn) :
    StillHeld d₀ e t (d.setRch e rch) where
  nodup := h.nodup
  owner := h.owner
  reserved := h.reserved
  lt := h.lt
  path := by rw [setRch_rch_self, hpath]; exact h.path
  request := by rw [setRch_rch_self, hrequest]; exact h.request
  device := by rw [setRch_rch_self, hdevice]; exact h.device
  kbuf := by rw [setRch_rch_self, hkbuf]; exact h.kbuf
  mapping := h.mapping
  frees := h.frees

/-- `i2o_recycleRch` on a handler that is linked. -/
theorem StillHeld.recycle (h : StillHeld d₀ e t d) (hlinked : e ∈ d.list) :
    ∃ d', d.i2oRecycleRch e t = some d' ∧ Freed d₀ e t d' := by
  obtain ⟨d', hrecycle⟩ := (recycle_isSome (d := d) (t := t)).mpr
    ⟨Or.inr hlinked, h.device⟩
  have hdone := recycled hrecycle
  refine ⟨d', hrecycle, ?_, hdone.kbuf.trans h.kbuf, ?_, ?_⟩
  · rw [freesOf, hdone.frees, List.filter_append, h.reserved, h.owner]
    show freesOf e d ++ _ = _
    rw [h.frees]
    simp
  · intro m hm
    have hmaps := congrArg Prod.fst hdone.mappings
    rw [h.kbuf, hm] at hmaps
    rw [show d'.mappings = d.mappings.free m from hmaps]
    exact Pool.free_reserved_self _ (h.mapping m hm)
  · rw [hdone.list, h.path, Option.isSome_some, if_pos rfl]
    exact fun hm => (h.nodup.mem_erase_iff.mp hm).1 rfl

/-- `i2o_recycleRch` on a handler that has been unlinked already. -/
theorem StillHeld.recycle_fault (h : StillHeld d₀ e t d) (hunlinked : e ∉ d.list) :
    d.i2oRecycleRch e t = none := by
  rw [i2oRecycleRch, h.path]
  simp [rchRemove, listDel, hunlinked]

/-- The handler function of a read fills in the reply. -/
theorem StillHeld.answer (h : StillHeld d₀ e t d) (hlinked : e ∈ d.list)
    (start nsamples : BitVec 32) :
    ∃ d', d.handle e start nsamples .handleReadMessageFile = some d' ∧ StillHeld d₀ e t d' ∧
      e ∈ d'.list ∧ (d'.rch e).handler = (d.rch e).handler ∧
      (d'.rch e).rchReturn.valid = if nsamples = 0xffffffff#32 then -1 else 1 := by
  refine ⟨_, handle_read h.path, ?_, hlinked, ?_, ?_⟩
  · exact h.setRch rfl rfl rfl (poolKbuf_setSamples _ _ _)
  · rw [setRch_rch_self]
  · rw [setRch_rch_self]
    show (setSamples _ start nsamples).valid = _
    rw [setSamples]
    split <;> rfl

/-- `rchRemoveIfNotValid` before a reply clears the handler function. -/
theorem StillHeld.interrupt (h : StillHeld d₀ e t d) (hvalid : (d.rch e).rchReturn.valid = 0) :
    ∃ d', d.rchRemoveIfNotValid e = some (d', 0) ∧ StillHeld d₀ e t d' ∧ d'.list = d.list ∧
      (d'.rch e).handler = none := by
  refine ⟨d.setRch e { d.rch e with handler := none }, ?_, ?_, rfl, ?_⟩
  · simp [rchRemoveIfNotValid, hvalid]
  · exact h.setRch rfl rfl rfl rfl
  · rw [setRch_rch_self]

theorem removeIfNotValid_data (hvalid : (d.rch e).rchReturn.valid = 1) :
    d.rchRemoveIfNotValid e = some (d, 1) := by
  simp [rchRemoveIfNotValid, hvalid]

/-- After an error reply it unlinks the handler, with its path still set. -/
theorem StillHeld.unlink (h : StillHeld d₀ e t d) (hlinked : e ∈ d.list)
    (hvalid : (d.rch e).rchReturn.valid = -1) :
    ∃ d', d.rchRemoveIfNotValid e = some (d', -1) ∧ StillHeld d₀ e t d' ∧ e ∉ d'.list := by
  have herase : StillHeld d₀ e t { d with list := d.list.erase e } :=
    { h with nodup := h.nodup.erase e }
  refine ⟨{ d with list := d.list.erase e }.setRch e { d.rch e with handler := none },
    ?_, ?_, ?_⟩
  · simp [rchRemoveIfNotValid, hvalid, listDel, hlinked]
  · exact herase.setRch rfl rfl rfl rfl
  · exact fun hm => (h.nodup.mem_erase_iff.mp hm).1 rfl

/-! ## The states of a hand-off -/

/-- The states in which the handler has one owner. -/
inductive Agreed (d₀ : Device) (e : Nat) (t : Tag) (nsamples : BitVec 32) : HandOff → Prop
  | both {d : Device} : StillHeld d₀ e t d → e ∈ d.list →
      (d.rch e).handler = some .handleReadMessageFile → (d.rch e).rchReturn.valid = 0 →
      Agreed d₀ e t nsamples ⟨d, .woken, .arrived, false⟩
  | seen {d : Device} : StillHeld d₀ e t d → e ∈ d.list → (d.rch e).rchReturn.valid = 0 →
      Agreed d₀ e t nsamples ⟨d, .woken, .tested (some .handleReadMessageFile), false⟩
  | answered {d : Device} : StillHeld d₀ e t d → e ∈ d.list →
      (d.rch e).rchReturn.valid = (if nsamples = 0xffffffff#32 then -1 else 1) →
      Agreed d₀ e t nsamples ⟨d, .woken, .done (some .handleReadMessageFile), false⟩
  | left {d : Device} : StillHeld d₀ e t d → e ∈ d.list → (d.rch e).handler = none →
      Agreed d₀ e t nsamples ⟨d, .returned 0, .arrived, false⟩
  | leftSeen {d : Device} : StillHeld d₀ e t d → e ∈ d.list →
      Agreed d₀ e t nsamples ⟨d, .returned 0, .tested none, false⟩
  | taken {d : Device} : StillHeld d₀ e t d → e ∈ d.list →
      Agreed d₀ e t nsamples ⟨d, .recycle 1, .done (some .handleReadMessageFile), false⟩
  | discarded {d : Device} : Freed d₀ e t d →
      Agreed d₀ e t nsamples ⟨d, .returned 0, .done none, false⟩
  | read {d : Device} : Freed d₀ e t d →
      Agreed d₀ e t nsamples ⟨d, .returned 1, .done (some .handleReadMessageFile), false⟩

/-- The states in which nobody will recycle the handler, or its list entry has
been deleted and will be again. -/
inductive Lost (d₀ : Device) (e : Nat) (t : Tag) : HandOff → Prop
  | seen {d : Device} : StillHeld d₀ e t d → e ∈ d.list →
      Lost d₀ e t ⟨d, .returned 0, .tested (some .handleReadMessageFile), false⟩
  | answered {d : Device} : StillHeld d₀ e t d → e ∈ d.list →
      Lost d₀ e t ⟨d, .returned 0, .done (some .handleReadMessageFile), false⟩
  | deleted {d : Device} : StillHeld d₀ e t d → e ∉ d.list →
      Lost d₀ e t ⟨d, .recycle (-1), .done (some .handleReadMessageFile), false⟩
  | faulted {s : HandOff} : s.faulted = true → Lost d₀ e t s

/-- What other clients do keeps the agreement. -/
theorem Agreed.foreign {s : HandOff} (h : Agreed d₀ e t nsamples s) (f : Foreign e) :
    Agreed d₀ e t nsamples { s with dev := f.run s.dev } := by
  have hsame := f.same s.dev
  cases h with
  | both hheld hlinked hhandler hvalid =>
    refine .both (hheld.foreign hsame) (hsame.linked.mpr hlinked) ?_ ?_
    · rw [hsame.rch]
      exact hhandler
    · rw [hsame.rch]
      exact hvalid
  | seen hheld hlinked hvalid =>
    refine .seen (hheld.foreign hsame) (hsame.linked.mpr hlinked) ?_
    rw [hsame.rch]
    exact hvalid
  | answered hheld hlinked hvalid =>
    refine .answered (hheld.foreign hsame) (hsame.linked.mpr hlinked) ?_
    rw [hsame.rch]
    exact hvalid
  | left hheld hlinked hhandler =>
    refine .left (hheld.foreign hsame) (hsame.linked.mpr hlinked) ?_
    rw [hsame.rch]
    exact hhandler
  | leftSeen hheld hlinked =>
    exact .leftSeen (hheld.foreign hsame) (hsame.linked.mpr hlinked)
  | taken hheld hlinked => exact .taken (hheld.foreign hsame) (hsame.linked.mpr hlinked)
  | discarded hfreed => exact .discarded (hfreed.foreign hsame)
  | read hfreed => exact .read (hfreed.foreign hsame)

/-- A step of the reader in its turn. -/
theorem Agreed.reader {s s' : HandOff} (h : Agreed d₀ e t nsamples s)
    (hok : ReaderInTurn nsamples (.reader : HandOffLabel e) s) (hs : s.read e t = some s') :
    Agreed d₀ e t nsamples s' := by
  cases h with
  | both hheld hlinked hhandler hvalid =>
    obtain ⟨d', hremove, hheld', hlist, hnone⟩ := hheld.interrupt hvalid
    simp only [HandOff.read, hremove, if_true] at hs
    cases hs
    exact .left hheld' (hlist ▸ hlinked) hnone
  | seen => exact hok.elim
  | answered hheld hlinked hvalid =>
    rw [if_neg hok] at hvalid
    simp only [HandOff.read, removeIfNotValid_data hvalid] at hs
    cases hs
    exact .taken hheld hlinked
  | taken hheld hlinked =>
    obtain ⟨d', hrecycle, hfreed⟩ := hheld.recycle hlinked
    simp only [HandOff.read, hrecycle] at hs
    cases hs
    exact .read hfreed
  | left | leftSeen | discarded | read => cases hs

/-- A step of the reader out of its turn: between the test and the call, or
after an error reply. -/
theorem Agreed.reader_lost {s s' : HandOff} (h : Agreed d₀ e t nsamples s)
    (hbreak : ¬ ReaderInTurn nsamples (.reader : HandOffLabel e) s)
    (hs : s.read e t = some s') : Lost d₀ e t s' := by
  cases h with
  | seen hheld hlinked hvalid =>
    obtain ⟨d', hremove, hheld', hlist, -⟩ := hheld.interrupt hvalid
    simp only [HandOff.read, hremove, if_true] at hs
    cases hs
    exact .seen hheld' (hlist ▸ hlinked)
  | answered hheld hlinked hvalid =>
    rw [if_pos (Decidable.of_not_not hbreak)] at hvalid
    obtain ⟨d', hremove, hheld', hunlinked⟩ := hheld.unlink hlinked hvalid
    simp only [HandOff.read, hremove] at hs
    cases hs
    exact .deleted hheld' hunlinked
  | both | left | leftSeen | taken | discarded | read => exact absurd trivial hbreak

/-- A step of the dispatch. -/
theorem Agreed.dispatch {s s' : HandOff} (h : Agreed d₀ e t nsamples s)
    (hs : s.answer e start nsamples = some s') : Agreed d₀ e t nsamples s' := by
  cases h with
  | both hheld hlinked hhandler hvalid =>
    simp only [HandOff.answer, hhandler] at hs
    cases hs
    exact .seen hheld hlinked hvalid
  | seen hheld hlinked hvalid =>
    obtain ⟨d', hhandle, hheld', hlinked', -, hvalid'⟩ :=
      hheld.answer hlinked start nsamples
    simp only [HandOff.answer, hhandle] at hs
    cases hs
    exact .answered hheld' hlinked' hvalid'
  | left hheld hlinked hnone =>
    simp only [HandOff.answer, hnone] at hs
    cases hs
    exact .leftSeen hheld hlinked
  | leftSeen hheld hlinked =>
    obtain ⟨d', hrecycle, hfreed⟩ := hheld.recycle hlinked
    simp only [HandOff.answer, hheld.request, hrecycle] at hs
    cases hs
    exact .discarded ⟨hfreed.once, hfreed.kbuf, hfreed.mapping, hfreed.unlinked⟩
  | answered | taken | discarded | read => cases hs

/-- A handler that is lost stays lost. -/
theorem Lost.step {l : HandOffLabel e} {s s' : HandOff} (h : Lost d₀ e t s)
    (hs : handOffStep e t start nsamples l s = some s') : Lost d₀ e t s' := by
  cases h with
  | seen hheld hlinked =>
    cases l with
    | reader => cases hs
    | dispatch =>
      obtain ⟨d', hhandle, hheld', hlinked', -, -⟩ :=
        hheld.answer hlinked start nsamples
      simp only [handOffStep, HandOff.answer, hhandle] at hs
      cases hs
      exact .answered hheld' hlinked'
    | other f =>
      cases hs
      exact .seen (hheld.foreign (f.same _)) ((f.same _).linked.mpr hlinked)
  | answered hheld hlinked =>
    cases l with
    | reader => cases hs
    | dispatch => cases hs
    | other f =>
      cases hs
      exact .answered (hheld.foreign (f.same _)) ((f.same _).linked.mpr hlinked)
  | deleted hheld hunlinked =>
    cases l with
    | reader =>
      simp only [handOffStep, HandOff.read, hheld.recycle_fault hunlinked] at hs
      cases hs
      exact .faulted rfl
    | dispatch => cases hs
    | other f =>
      cases hs
      refine .deleted (hheld.foreign (f.same _)) fun hm => ?_
      exact hunlinked ((f.same _).linked.mp hm)
  | faulted hfaulted =>
    unfold handOffStep at hs
    rw [if_pos hfaulted] at hs
    cases hs

theorem Agreed.running {s : HandOff} (h : Agreed d₀ e t nsamples s) : s.faulted = false := by
  cases h <;> rfl

theorem Agreed.step {l : HandOffLabel e} {s s' : HandOff} (h : Agreed d₀ e t nsamples s)
    (hok : ReaderInTurn nsamples l s) (hs : handOffStep e t start nsamples l s = some s') :
    Agreed d₀ e t nsamples s' := by
  unfold handOffStep at hs
  rw [if_neg (Bool.eq_false_iff.mp h.running)] at hs
  cases l with
  | reader => exact h.reader hok hs
  | dispatch => exact h.dispatch hs
  | other f =>
    cases hs
    exact h.foreign f

theorem Agreed.step_lost {l : HandOffLabel e} {s s' : HandOff}
    (h : Agreed d₀ e t nsamples s) (hbreak : ¬ ReaderInTurn nsamples l s)
    (hs : handOffStep e t start nsamples l s = some s') : Lost d₀ e t s' := by
  unfold handOffStep at hs
  rw [if_neg (Bool.eq_false_iff.mp h.running)] at hs
  cases l with
  | reader => exact h.reader_lost hbreak hs
  | dispatch => exact absurd trivial hbreak
  | other f => exact absurd trivial hbreak

/-! ## The end of a hand-off -/

theorem Agreed.handedOff {s : HandOff} (h : Agreed d₀ e t nsamples s) (hdone : s.Complete) :
    HandedOff d₀ e t s := by
  rcases hdone with hfaulted | ⟨valid, handler, hreader, hdispatch⟩
  · rw [h.running] at hfaulted
    cases hfaulted
  · cases h with
    | discarded hfreed =>
      exact ⟨rfl, hfreed.once, hfreed.mapping, fun _ => hfreed.unlinked⟩
    | read hfreed => exact ⟨rfl, hfreed.once, hfreed.mapping, fun _ => hfreed.unlinked⟩
    | both | seen | answered | taken => cases hreader
    | left | leftSeen => cases hdispatch

theorem Lost.not_handedOff {s : HandOff} (h : Lost d₀ e t s) (hdone : s.Complete) :
    ¬ HandedOff d₀ e t s := by
  intro hoff
  cases h with
  | faulted hfaulted =>
    rw [hoff.running] at hfaulted
    cases hfaulted
  | seen =>
    rcases hdone with hfaulted | ⟨valid, handler, hreader, hdispatch⟩
    · cases hfaulted
    · cases hdispatch
  | deleted =>
    rcases hdone with hfaulted | ⟨valid, handler, hreader, hdispatch⟩
    · cases hfaulted
    · cases hreader
  | answered hheld hlinked => exact hoff.unlinked rfl hlinked

/-- Exactly one side recycles the handler, in the orders of the steps in which
the reader's section does not come between the two steps of the dispatch, nor
after an error reply. -/
theorem handed_off_iff {ls : List (HandOffLabel e)} {s : HandOff} (hwaiting : Waiting d₀ e t)
    (hrun : runFrom (handOffStep e t start nsamples) ls (.start d₀) = some s)
    (hdone : s.Complete) :
    HandedOff d₀ e t s ↔
      RunMeets (handOffStep e t start nsamples) (ReaderInTurn nsamples) ls (.start d₀) := by
  have hstart : Agreed d₀ e t nsamples (.start d₀) :=
    .both hwaiting.held hwaiting.live.2.1 hwaiting.live.2.2.2.2 hwaiting.valid
  rcases runMeets_or_trapped (fun _ _ _ h hok hs => h.step hok hs)
    (fun _ _ _ h hbreak hs => h.step_lost hbreak hs) (fun _ _ _ h hs => h.step hs)
    hstart hrun with ⟨hmeets, hagreed⟩ | ⟨hbroken, hlost⟩
  · exact iff_of_true (hagreed.handedOff hdone) hmeets
  · exact iff_of_false (hlost.not_handedOff hdone) hbroken

end Sides

/-- A new device on which client 5 has posted a read with entry 0 and
mapping 1. -/
def onePosted : Device :=
  { (((poolCreate 0#16).poolAllocRch 0 5).poolAllocMapping 1 ⟨5, 0⟩).buildRch 0
      .handleReadMessageFile 5 (some (.mapping 1)) RCH_KB_POOL ⟨5, 0⟩ with list := [0] }

theorem waiting_onePosted : Waiting onePosted 0 ⟨5, 0⟩ := by
  have hnew := devInv_poolCreate 0#16
  have hinv : DevInv (((poolCreate 0#16).poolAllocRch 0 5).poolAllocMapping 1 ⟨5, 0⟩) :=
    (hnew.alloc rfl (by decide) 5).of_eq rfl rfl rfl rfl rfl
  have hunbuilt : Unbuilt (((poolCreate 0#16).poolAllocRch 0 5).poolAllocMapping 1 ⟨5, 0⟩) 0
      ⟨5, 0⟩ := ⟨rfl, List.not_mem_nil, rfl⟩
  refine waiting_of_append hinv hunbuilt ?_ rfl
  rintro m ⟨⟩
  decide

/-- Where a run from there ends. -/
def onePostedEnd (nsamples : BitVec 32) (ls : List (HandOffLabel 0)) : HandOff :=
  (runFrom (handOffStep 0 ⟨5, 0⟩ 0 nsamples) ls (.start onePosted)).getD (.start onePosted)

/-- The read is interrupted before the reply is dispatched, and the dispatch
recycles the handler. -/
theorem interrupted_read_handed_off :
    HandedOff onePosted 0 ⟨5, 0⟩ (onePostedEnd 100 [.reader, .dispatch, .dispatch]) := by
  have hrun : runFrom (handOffStep 0 ⟨5, 0⟩ 0 100) [.reader, .dispatch, .dispatch]
      (.start onePosted) = some (onePostedEnd 100 [.reader, .dispatch, .dispatch]) := rfl
  refine (handed_off_iff waiting_onePosted hrun (Or.inr ⟨0, none, rfl, rfl⟩)).mpr ?_
  exact ⟨trivial, fun _ _ => ⟨trivial, fun _ _ => ⟨trivial, fun _ _ => trivial⟩⟩⟩

/-- The signal comes between the test of the handler pointer and the call.  The
read returns `-EINTR`, the reply has been dispatched, and the handler is
still on the list. -/
theorem interrupted_read_left_on_list :
    (onePostedEnd 100 [.dispatch, .reader, .dispatch]).reader = .returned 0 ∧
      (onePostedEnd 100 [.dispatch, .reader, .dispatch]).dispatch
        = .done (some .handleReadMessageFile) ∧
      (onePostedEnd 100 [.dispatch, .reader, .dispatch]).dev.frees = [] ∧
      ¬ HandedOff onePosted 0 ⟨5, 0⟩ (onePostedEnd 100 [.dispatch, .reader, .dispatch]) := by
  refine ⟨rfl, rfl, rfl, fun h => ?_⟩
  exact h.unlinked rfl (by decide)

end Acq200.Rch
