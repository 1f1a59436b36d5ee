import Acq200.Rch.DmaTarget
import Acq200.Rch.Recycles

/-!
# The mapping that a recycle frees

`i2o_recycleRch` frees the mapping that the handler's `rchReturn` names, and
it reaches both pools through the handler's `device`.  Only `buildRch` sets
these fields.  Neither the allocation of a handler nor its free touches them.

`Describes` says that what a recycle reads in the handler belongs to the
request that has the handler now.  It is true of every handler with a path.
Two calls of `i2o_recycleRch` can meet a handler without one.  The error
returns before `buildRch` find what the previous use of the entry has left in
it, or a null device if there was none, and the second recycle of a release
finds a handler that is nobody's.

`recycles_own` proves for every run that a recycle frees no mapping but that
of its own request, as long as these two find a handler that was built once
and that names no mapping of the pool.  `unbuilt_handler_recycled` is a run
of three writes that the card has not answered and a fourth that gets no
mapping and recycles a handler with a null device.
-/

namespace Acq200.Rch

open Acq200.Lib Device

/-! ## The contract -/

/-- What `i2o_recycleRch` reads in the handler describes its current
allocation: the device is set, and the mapping that is to be freed is
reserved for the request that has the handler. -/
structure Describes (d : Device) (e : Nat) : Prop where
  device : (d.rch e).device = true
  kbuf : ∀ m, poolKbuf (d.rch e).rchReturn = some (.mapping m) →
    ∃ t, d.owner e = some t ∧ Held d m t

/-- A step that recycles a handler finds it described, and every mapping that
is reserved for another request stays so. -/
def RecyclesOwn (l : Label) (s : Sys) : Prop :=
  ∀ e ∈ s.recycles l, Describes s.dev e ∧
    ∀ s' ∈ Sys.step l s, ∀ m t, Held s.dev m t → s.dev.owner e ≠ some t →
      Held s'.dev m t

/-- The handler was built once, and its last use left no mapping of the pool
in it. -/
def LeftClean (d : Device) (e : Nat) : Prop :=
  (d.rch e).device = true ∧ kbufTarget (poolKbuf (d.rch e).rchReturn) = none

instance (d : Device) (e : Nat) : Decidable (LeftClean d e) :=
  inferInstanceAs (Decidable (_ ∧ _))

/-- The steps that free no mapping with a handler that does not describe its
allocation. -/
structure StaleSafe (l : Label) (s : Sys) : Prop where
  clean : ∀ c ∈ l.goes, ∀ e ∈ (s.clients c).pc.staleEntry, LeftClean s.dev e
  last : SecondRecycleHarmless l s

instance (l : Label) (s : Sys) : Decidable (StaleSafe l s) :=
  decidable_of_iff
    ((∀ c ∈ l.goes, ∀ e ∈ (s.clients c).pc.staleEntry, LeftClean s.dev e) ∧
      SecondRecycleHarmless l s)
    ⟨fun ⟨h₁, h₂⟩ => ⟨h₁, h₂⟩, fun ⟨h₁, h₂⟩ => ⟨h₁, h₂⟩⟩

/-! ## The invariant -/

/-- What a client relies on about a mapping that no handler has yet. -/
def PcMap (d : Device) (c : Nat) : Pc → Prop
  | .checkLen _ _ t kbuf => ∀ m, kbuf = .mapping m → Held d m t
  | .build _ _ t kbuf | .recycleUnbuilt _ t kbuf =>
    ∀ m, kbuf = some (.mapping m) → Held d m t
  | .freeMapping kbuf =>
    ∀ m, kbuf = .mapping m → ∃ t, t.client = c ∧ Held d m t ∧ ∀ e, d.owner e ≠ some t
  | _ => True

structure MapInv (s : Sys) : Prop where
  carried : ∀ e t m, Carries s.dev e t m → Held s.dev m t
  held_lt : ∀ m t, s.dev.mappingOwner m = some t → t.seq < s.dev.allocs
  device : ∀ e, (s.dev.rch e).path.isSome = true → (s.dev.rch e).device = true
  pc : ∀ c, PcMap s.dev c (s.clients c).pc

theorem mapInv_initial (lastId : BitVec 16) : MapInv (initial lastId) where
  carried := fun _ _ _ h => by cases h.1
  held_lt := fun _ _ h => by cases h
  device := fun _ h => by cases h
  pc := fun _ => trivial

/-! ## Frames -/

section Frame

variable {s : Sys} {d : Device} {c e : Nat} {t : Tag}

/-- What client `c` relies on it can rely on in `d`.  A mapping whose handler
is not built, or that has no handler, stays with its request. -/
theorem PcMap.mono {pc : Pc} {slots : Buffer → Option (Nat × Tag)}
    (h : PcMap s.dev c pc) (hpc : PcInv s.dev c slots pc) (hinv : DevInv s.dev)
    (hheld : ∀ m t, t.client = c → Held s.dev m t →
      (∀ e, s.dev.owner e = some t → (s.dev.rch e).path = none) → Held d m t)
    (howner : ∀ m t, t.client = c → Held s.dev m t →
      (∀ e, s.dev.owner e ≠ some t) → ∀ e, d.owner e ≠ some t) : PcMap d c pc := by
  have hkept : ∀ m e t, t.client = c → Unbuilt s.dev e t → Held s.dev m t →
      Held d m t := by
    intro m e t hclient hu hm
    refine hheld m t hclient hm fun other ho => ?_
    rw [hinv.owner_inj other e t ho hu.1]
    exact hu.2.2
  cases pc with
  | checkLen op e t kbuf => exact fun m hm => hkept m e t hpc.1 hpc.2.1 (h m hm)
  | build op e t kbuf => exact fun m hm => hkept m e t hpc.1 hpc.2.1 (h m hm)
  | recycleUnbuilt e t kbuf => exact fun m hm => hkept m e t hpc.1 hpc.2 (h m hm)
  | freeMapping kbuf =>
    intro m hm
    obtain ⟨t, hclient, hold, hnone⟩ := h m hm
    exact ⟨t, hclient, hheld m t hclient hold fun e ho => absurd ho (hnone e),
      howner m t hclient hold hnone⟩
  | _ => trivial

/-- A step on the handler in entry `e`. -/
theorem MapInv.entryStep (h : MapInv s) (hown : OwnInv s)
    (hstep : EntryStep s.dev d e)
    (hdevice : (d.rch e).path.isSome = true → (d.rch e).device = true) :
    MapInv { s with dev := d } := by
  refine ⟨hstep.carried hown.dev h.carried, ?_, ?_, ?_⟩
  · intro m t ho
    exact Nat.lt_of_lt_of_le (h.held_lt m t (hstep.mappingOwner m t ho)) hstep.allocs
  · intro other hpath
    by_cases heq : other = e
    · rw [heq] at hpath ⊢
      exact hdevice hpath
    · have hrch : d.rch other = s.dev.rch other := (hstep.keeps other heq).1
      show (d.rch other).device = true
      rw [hrch]
      exact h.device other (hrch ▸ hpath)
  · intro c
    refine (h.pc c).mono (hown.client c).pcInv hown.dev ?_ ?_
    · intro m t _ hm hnone
      exact hstep.held m t hm (hnone e)
    · intro m t _ hm hnone
      exact hstep.not_owner (h.held_lt m t hm.2) hnone

/-- A client moves on. -/
theorem MapInv.move (h : MapInv s) {client : Client} {b : Bool}
    (hpc : PcMap s.dev c client.pc) :
    MapInv ({ s with busyFree := b }.setClient c client) := by
  refine ⟨h.carried, h.held_lt, h.device, ?_⟩
  intro other
  by_cases heq : other = c
  · rw [heq, Sys.setClient_self]
    exact hpc
  · rw [Sys.setClient_of_ne _ heq]
    exact h.pc other

theorem MapInv.setPc (h : MapInv s) {pc : Pc} (hpc : PcMap s.dev c pc) :
    MapInv (s.setPc c pc) :=
  h.move (b := s.busyFree) hpc

theorem PcMap.of_entryFree {pc : Pc} (h : pc.entryFree = true) : PcMap d c pc := by
  cases pc <;> trivial

theorem PcMap.afterSend (op : Op) (e : Nat) (t : Tag) :
    PcMap d c (Sys.afterSend op e t) := by
  rcases op with _ | _ | _ | (_ | _) | _ <;> trivial

end Frame

/-! ## The handler that is recycled -/

section Site

variable {s s' : Sys} {d d' : Device} {c e : Nat} {t : Tag}

/-- The device of the handler is set, and it has its mapping as its own. -/
def RecycleReady (d : Device) (e : Nat) : Prop :=
  (d.rch e).device = true ∧
    ∀ m, poolKbuf (d.rch e).rchReturn = some (.mapping m) → ∃ t, Carries d e t m

theorem RecycleReady.describes (h : RecycleReady s.dev e) (hinv : MapInv s) :
    Describes s.dev e where
  device := h.1
  kbuf := by
    intro m hm
    obtain ⟨t, hc⟩ := h.2 m hm
    exact ⟨t, hc.1, hinv.carried e t m hc⟩

theorem LeftClean.ready (h : LeftClean d e) : RecycleReady d e := by
  refine ⟨h.1, fun m hm => ?_⟩
  have hclean := h.2
  rw [hm] at hclean
  cases hclean

/-- A handler with a path describes its allocation. -/
theorem MapInv.ready (h : MapInv s) (ho : s.dev.owner e = some t)
    (hpath : (s.dev.rch e).path.isSome = true) : RecycleReady s.dev e :=
  ⟨h.device e hpath, fun _ hm => ⟨t, ho, hpath, hm⟩⟩

theorem MapInv.ready_listed (h : MapInv s) (hown : OwnInv s) (hm : e ∈ s.dev.list) :
    RecycleReady s.dev e := by
  obtain ⟨ho, hpath⟩ := hown.dev.listed e hm
  exact h.ready ho (hpath ▸ rfl)

theorem ready_clientRecycles (h : MapInv s) (hown : OwnInv s)
    (hclean : ∀ e ∈ (s.clients c).pc.staleEntry, LeftClean s.dev e)
    (hrec : s.clientRecycles c (s.clients c).pc = some e) : RecycleReady s.dev e := by
  cases hpc : (s.clients c).pc with
  | recycleUnbuilt e' t kbuf | recycleLast e' t =>
    rw [hpc] at hrec
    obtain rfl := Option.some.inj hrec
    exact (hclean e' (by rw [hpc]; rfl)).ready
  | recycleRead e' t =>
    rw [hpc] at hrec
    obtain rfl := Option.some.inj hrec
    obtain ⟨_, hheld⟩ := hown.pcInv hpc
    rcases hheld with hlive | ⟨ho, _, hpath⟩
    · exact h.ready hlive.1 (hlive.2.2.1 ▸ rfl)
    · exact h.ready ho hpath
  | cleanup =>
    rw [hpc] at hrec
    exact h.ready_listed hown (cleanupRch_mem hrec).1
  | recycleAB buffer recycleA recycleB =>
    rw [hpc] at hrec
    obtain ⟨t, hslot⟩ := slot_of_clientRecycles hrec
    have hclient := hown.client c
    rw [hpc] at hclient
    exact h.ready_listed hown ((hclient.slot rfl buffer e t hslot).2 rfl).2.1
  | _ =>
    rw [hpc] at hrec
    cases hrec

/-- Every handler that a step recycles describes its allocation. -/
theorem ready_recycles {l : Label} (h : MapInv s) (hown : OwnInv s)
    (hok : StaleSafe l s) (hrec : s.recycles l = some e) : RecycleReady s.dev e := by
  cases l with
  | go c => exact ready_clientRecycles h hown (hok.clean c rfl) hrec
  | dispatch n start nsamples =>
    obtain ⟨p, _, hreply⟩ := Option.bind_eq_some_iff.mp hrec
    exact h.ready_listed hown (linked_replyRecycles hreply)
  | _ => cases hrec

theorem RecycleReady.entryStep {caller : Tag} (h : RecycleReady s.dev e)
    (hinv : MapInv s) (hrec : Recycled s.dev d e caller) : EntryStep s.dev d e := by
  refine entryStep_recycled hrec fun m hm => ?_
  obtain ⟨t, hc⟩ := h.2 m hm
  exact Or.inr ⟨t, hc, hinv.carried e t m hc⟩

theorem MapInv.recycled {caller : Tag} (h : MapInv s) (hown : OwnInv s)
    (hready : RecycleReady s.dev e) (hrec : Recycled s.dev d e caller) :
    MapInv { s with dev := d } := by
  refine h.entryStep hown (hready.entryStep h hrec) fun hpath => ?_
  rw [hrec.path] at hpath
  cases hpath

end Site

/-! ## Steps -/

section Steps

variable {s s' : Sys} {d d' : Device} {c e : Nat} {t : Tag}

theorem MapInv.allocRch {op : Op} {client : Client} (h : MapInv s) (hown : OwnInv s)
    (hfree : s.dev.handlers.reserved e = false)
    (hnext : client.pc = Sys.afterAllocRch op e ⟨c, s.dev.allocs⟩) :
    MapInv ({ s with dev := s.dev.poolAllocRch e c }.setClient c client) := by
  have hpath := hown.dev.free_path e (hown.dev.owner_none hfree)
  have hinv : MapInv { s with dev := s.dev.poolAllocRch e c } := by
    refine h.entryStep hown (entryStep_alloc hpath c) fun hsome => ?_
    rw [show ((s.dev.poolAllocRch e c).rch e).path = none from hpath] at hsome
    cases hsome
  refine hinv.move (b := s.busyFree) ?_
  rw [hnext]
  cases op with
  | read | write => trivial
  | readAB | queue _ | release => exact fun m hm => by cases hm

/-- A step of client `c` on the pool of mappings. -/
theorem MapInv.mappingStep {pc : Pc} (h : MapInv s) (hown : OwnInv s)
    (hrch : d.rch = s.dev.rch) (howner : d.owner = s.dev.owner)
    (hallocs : d.allocs = s.dev.allocs)
    (hheld : ∀ m t, Held s.dev m t →
      (t.client ≠ c ∨ ∃ e, s.dev.owner e = some t ∧ (s.dev.rch e).path.isSome = true) →
      Held d m t)
    (hmapping : ∀ m t, d.mappingOwner m = some t → t.seq < s.dev.allocs)
    (hpc : PcMap d c pc) : MapInv ({ s with dev := d }.setPc c pc) := by
  refine ⟨?_, ?_, ?_, ?_⟩
  · intro e t m hc
    have hold : Carries s.dev e t m := by
      rw [Carries, ← hrch, ← howner]
      exact hc
    exact hheld m t (h.carried e t m hold) (Or.inr ⟨e, hold.1, hold.2.1⟩)
  · intro m t ho
    exact hallocs.symm ▸ hmapping m t ho
  · intro e hpath
    show (d.rch e).device = true
    rw [hrch]
    exact h.device e (hrch ▸ hpath)
  · intro other
    by_cases heq : other = c
    · rw [heq, Sys.setPc_self]
      exact hpc
    · rw [Sys.setPc, Sys.setClient_of_ne _ heq]
      refine (h.pc other).mono (hown.client other).pcInv hown.dev ?_ ?_
      · intro m t hclient hm _
        exact hheld m t hm (Or.inl (hclient.symm ▸ heq))
      · intro m t _ _ hnone e
        show d.owner e ≠ some t
        rw [howner]
        exact hnone e

theorem MapInv.allocMapping {op : Op} {asleep : Option Nat} {m : Nat} (h : MapInv s)
    (hown : OwnInv s) (hpc : (s.clients c).pc = .allocMapping op e t asleep)
    (hfree : s.dev.mappings.reserved m = false) :
    MapInv ({ s with dev := s.dev.poolAllocMapping m t }.setPc c
      (.checkLen op e t (.mapping m))) := by
  obtain ⟨_, hunbuilt, _⟩ := hown.pcInv hpc
  refine h.mappingStep hown rfl rfl rfl ?_ ?_ ?_
  · exact fun _ _ hm _ => hm.alloc hfree
  · intro other t' ho
    by_cases heq : other = m
    · rw [heq, poolAllocMapping_owner, Function.update_self] at ho
      rw [← Option.some.inj ho]
      exact (hown.dev.owner_lt e t hunbuilt.1).2
    · rw [poolAllocMapping_owner, Function.update_of_ne heq] at ho
      exact h.held_lt other t' ho
  · rintro m' hm
    cases hm
    exact held_poolAllocMapping s.dev m t

theorem MapInv.freeMapping {kbuf : Kbuf} (h : MapInv s) (hown : OwnInv s)
    (hpc : (s.clients c).pc = .freeMapping kbuf) :
    MapInv ({ s with dev := s.dev.poolFreeMapping kbuf }.setPc c .idle) := by
  cases kbuf with
  | other => exact h.setPc trivial
  | mapping m =>
    have hinv := h.pc c
    rw [hpc] at hinv
    obtain ⟨t, hclient, hheld, hnone⟩ := hinv m rfl
    refine h.mappingStep hown rfl rfl rfl ?_ ?_ trivial
    · intro other t' hm hkept
      refine hm.free ?_
      rintro rfl
      obtain rfl := Option.some.inj (hm.2.symm.trans hheld.2)
      rcases hkept with hother | ⟨e, ho, _⟩
      · exact hother hclient
      · exact hnone e ho
    · exact fun other t' ho => h.held_lt other t' (mappingOwner_of_free ho)

theorem MapInv.build {op : Op} {kbuf : Option Kbuf} {client : Client}
    {predicted : Predicted} (h : MapInv s) (hown : OwnInv s)
    (hpc : (s.clients c).pc = .build op e t kbuf)
    (hnext : client.pc = .append op e t kbuf predicted) :
    MapInv ({ s with
      dev := s.dev.buildRch e op.handler c kbuf op.flags t }.setClient c client) := by
  obtain ⟨hclient, hunbuilt, _⟩ := hown.pcInv hpc
  have hinv := h.pc c
  rw [hpc] at hinv
  have hbuilt : MapInv
      { s with dev := s.dev.buildRch e op.handler c kbuf op.flags t } := by
    refine h.entryStep hown (entryStep_build hunbuilt.1 hinv) fun _ => ?_
    rw [buildRch, setRch_rch_self]
  refine hbuilt.move (b := s.busyFree) ?_
  rw [hnext]
  trivial

/-- The list of handlers is not part of the invariant. -/
theorem MapInv.append {op : Op} {kbuf : Option Kbuf} {predicted : Predicted}
    (h : MapInv s) (hd : s.dev.rchAppend e = some d) :
    MapInv ({ s with dev := d }.setPc c (.send op e t kbuf predicted)) := by
  rw [rchAppend] at hd
  split at hd
  · cases hd
  · obtain rfl := Option.some.inj hd
    have hinv : MapInv { s with dev := { s.dev with list := s.dev.list ++ [e] } } :=
      ⟨h.carried, h.held_lt, h.device, h.pc⟩
    exact hinv.setPc trivial

theorem MapInv.send {op : Op} {kbuf : Option Kbuf} {predicted : Predicted} {mfa : Bool}
    (h : MapInv s) :
    MapInv ((s.sendI2OKbuf e t kbuf predicted mfa).setPc c (Sys.afterSend op e t)) := by
  have hinv : MapInv (s.sendI2OKbuf e t kbuf predicted mfa) := by
    unfold Sys.sendI2OKbuf
    split
    · exact ⟨h.carried, h.held_lt, h.device, h.pc⟩
    · exact h
  exact hinv.setPc (PcMap.afterSend op e t)

/-- A step that keeps the pools and the `path`, the `device` and the mapping
of the handler in entry `e`. -/
theorem MapInv.sameReturn (h : MapInv s) (hown : OwnInv s)
    (hk : KeepsOthers s.dev d e) (hpool : SamePools s.dev d)
    (hpath : (d.rch e).path = (s.dev.rch e).path)
    (hdevice : (d.rch e).device = (s.dev.rch e).device)
    (hkbuf : poolKbuf (d.rch e).rchReturn = poolKbuf (s.dev.rch e).rchReturn) :
    MapInv { s with dev := d } := by
  refine h.entryStep hown (entryStep_samePools hk hpool ?_) ?_
  · rintro t m ⟨ho, hsome, hm⟩
    exact h.carried e t m ⟨hpool.owner ▸ ho, hpath ▸ hsome, hkbuf ▸ hm⟩
  · intro hsome
    rw [hdevice]
    exact h.device e (hpath ▸ hsome)

theorem MapInv.removeIfNotValid {valid : Int} (h : MapInv s) (hown : OwnInv s)
    (hpc : (s.clients c).pc = .removeIfNotValid e t)
    (hd : s.dev.rchRemoveIfNotValid e = some (d, valid)) :
    MapInv ({ s with dev := d }.setPc c
      (if valid = 0 then .idle else .recycleRead e t)) := by
  obtain ⟨_, hlive⟩ := hown.pcInv hpc
  obtain ⟨_, hk, _, hcases⟩ := removeIfNotValid_cases hown.dev hlive hd
  have hrch : d.rch e = s.dev.rch e ∨
      d.rch e = { s.dev.rch e with handler := none } := by
    rcases hcases with ⟨_, rfl⟩ | ⟨_, _, hrch, _⟩
    · exact Or.inl rfl
    · exact Or.inr hrch
  have hinv : MapInv { s with dev := d } := by
    refine h.sameReturn hown hk (samePools_removeIfNotValid hd) ?_ ?_ ?_ <;>
      rcases hrch with hrch | hrch <;> rw [hrch]
  refine hinv.setPc ?_
  split <;> trivial

theorem MapInv.recycleUnbuilt {kbuf : Option Kbuf} (h : MapInv s) (hown : OwnInv s)
    (hpc : (s.clients c).pc = .recycleUnbuilt e t kbuf)
    (hready : RecycleReady s.dev e) (hd : s.dev.i2oRecycleRch e t = some d) :
    MapInv ({ s with dev := d }.setPc c (Sys.afterRecycleUnbuilt kbuf)) := by
  obtain ⟨hclient, hunbuilt⟩ := hown.pcInv hpc
  have hrec := Device.recycled hd
  have hinv := h.recycled hown hready hrec
  refine hinv.setPc ?_
  cases kbuf with
  | none => trivial
  | some kbuf =>
    intro m hm
    have hheld := hinv.pc c
    rw [show (({ s with dev := d } : Sys).clients c).pc = _ from hpc] at hheld
    exact ⟨t, hclient, hheld m (congrArg some hm),
      not_owner_recycled hrec hown.dev hunbuilt.1⟩

theorem MapInv.dispatch {n : Nat} {id : BitVec 16} {start nsamples : BitVec 32}
    (h : MapInv s) (hown : OwnInv s)
    (hd : s.dev.processCommandMessageReturn id start nsamples = some d) :
    MapInv { s with dev := d, replies := s.replies.eraseIdx n } := by
  have hinv : MapInv { s with dev := d } := by
    rcases dispatch_cases hown.dev hd with ⟨_, rfl⟩ | ⟨e, hfind, hcase⟩
    · exact h
    · rcases hcase with ⟨_, rfl⟩ | ⟨_, hrec⟩
      · refine h.sameReturn hown (keepsOthers_setRch s.dev e _)
          ⟨rfl, rfl, rfl, rfl, rfl, rfl, rfl⟩ ?_ ?_ ?_ <;> rw [setRch_rch_self]
        exact poolKbuf_setSamples _ _ _
      · exact h.recycled hown (h.ready_listed hown (findRch_mem hfind).1) hrec
  exact ⟨hinv.carried, hinv.held_lt, hinv.device, hinv.pc⟩

end Steps

/-! ## Runs -/

section Runs

variable {s s' : Sys} {l : Label} {c e : Nat}

theorem mapInv_step (hown : OwnInv s) (h : MapInv s) (hok : StaleSafe l s)
    (ht : Trans l s s') : MapInv s' := by
  have hready := fun e => ready_recycles (e := e) h hown hok
  cases ht with
  | oops | answer => exact ⟨h.carried, h.held_lt, h.device, h.pc⟩
  | neutral hl hslots hfree hposting hclosing =>
    exact h.move (PcMap.of_entryFree hfree)
  | sleepMapping hl hpc => exact h.setPc trivial
  | failMapping hl hpc => exact h.setPc fun m hm => by cases hm
  | @failLen _ _ c op e t kbuf hl hpc =>
    have hinv := h.pc c
    rw [hpc] at hinv
    exact h.setPc fun m hm => hinv m (Option.some.inj hm)
  | @passLen _ _ c op e t kbuf hl hpc =>
    have hinv := h.pc c
    rw [hpc] at hinv
    exact h.setPc fun m hm => hinv m (Option.some.inj hm)
  | endWaitRead hl hpc => exact h.setPc trivial
  | endWaitLast hl hpc => exact h.setPc trivial
  | foundValid hpc hvalid => exact h.setPc trivial
  | allocRch hl hpc hfree hlt hnext hslots => exact h.allocRch hown hfree hnext
  | allocMapping hl hpc hfree hlt => exact h.allocMapping hown hpc hfree
  | freeMapping hpc => exact h.freeMapping hown hpc
  | build hpc hnext hslots => exact h.build hown hpc hnext
  | append hpc hd => exact h.append hd
  | send hpc => exact h.send
  | removeIfNotValid hpc hd => exact h.removeIfNotValid hown hpc hd
  | @recycleUnbuilt _ c e t kbuf d hpc hd =>
    have he : s.recycles (.go c) = some e := by rw [Sys.recycles, hpc]; rfl
    exact h.recycleUnbuilt hown hpc (hready e he) hd
  | @recycleRead _ c e t d hpc hd =>
    have he : s.recycles (.go c) = some e := by rw [Sys.recycles, hpc]; rfl
    exact (h.recycled hown (hready e he) (Device.recycled hd)).setPc trivial
  | @recycleLast _ c e t d hpc hd =>
    have he : s.recycles (.go c) = some e := by rw [Sys.recycles, hpc]; rfl
    exact (h.recycled hown (hready e he) (Device.recycled hd)).setPc trivial
  | @cleanup _ c e d hpc he hd =>
    exact h.recycled hown (h.ready_listed hown (cleanupRch_mem he).1)
      (Device.recycled hd)
  | @recycleAB _ c recycleA recycleB e t d buffer client hpc hslot hd hslots hfree hopen =>
    have hclient := hown.client c
    rw [hpc] at hclient
    have hm := ((hclient.slot rfl buffer e t hslot).2 rfl).2.1
    have hinv := h.recycled hown (h.ready_listed hown hm) (Device.recycled hd)
    exact hinv.move (b := s.busyFree) (PcMap.of_entryFree hfree)
  | dispatch hp hd => exact h.dispatch hown hd

/-- A step that recycles a handler takes no mapping from another request. -/
theorem held_of_recycles {m : Nat} {t : Tag} (hown : OwnInv s) (h : MapInv s)
    (hok : StaleSafe l s) (hrec : s.recycles l = some e) (ht : Trans l s s')
    (hm : Held s.dev m t) (hne : s.dev.owner e ≠ some t) : Held s'.dev m t := by
  have hready := ready_recycles h hown hok hrec
  have hheld : ∀ d caller, Recycled s.dev d e caller → Held d m t := by
    intro d caller hd
    exact (hready.entryStep h hd).held m t hm fun ho => absurd ho hne
  have hgo : ∀ c, l.client = some c → l = .go c := by
    intro c hl
    cases l with
    | go c' => rw [Option.some.inj hl]
    | dispatch n start nsamples => cases hl
    | _ => cases hrec
  cases ht with
  | oops | neutral | sleepMapping | failMapping | failLen | passLen | endWaitRead
  | endWaitLast | foundValid | allocRch | build | answer => exact hm
  | @allocMapping _ _ c op e t asleep m' hl hpc =>
    rw [hgo c hl, Sys.recycles, hpc] at hrec
    cases hrec
  | freeMapping hpc | append hpc | removeIfNotValid hpc =>
    rw [Sys.recycles, hpc] at hrec
    cases hrec
  | send => cases hrec
  | recycleUnbuilt hpc hd | recycleRead hpc hd | recycleLast hpc hd =>
    rw [Sys.recycles, hpc] at hrec
    cases hrec
    exact hheld _ _ (Device.recycled hd)
  | cleanup hpc he hd =>
    rw [Sys.recycles, hpc] at hrec
    obtain rfl := Option.some.inj (he.symm.trans hrec)
    exact hheld _ _ (Device.recycled hd)
  | recycleAB hpc hslot hd =>
    rw [Sys.recycles, hpc] at hrec
    obtain ⟨t', hslot'⟩ := slot_of_clientRecycles hrec
    rw [hslot] at hslot'
    cases hslot'
    exact hheld _ _ (Device.recycled hd)
  | @dispatch _ n p d start nsamples hp hd =>
    rw [Sys.recycles, hp] at hrec
    have hfound : s.dev.findRch p.id = some e := findRch_of_replyRecycles hrec
    rcases dispatch_cases hown.dev hd with ⟨_, rfl⟩ | ⟨e', hfind, hcase⟩
    · exact hm
    · obtain rfl := Option.some.inj (hfind.symm.trans hfound)
      rcases hcase with ⟨_, rfl⟩ | ⟨_, hd'⟩
      · exact hm
      · exact hheld _ _ hd'

theorem recyclesOwn_of_inv (hown : OwnInv s) (h : MapInv s) (hok : StaleSafe l s) :
    RecyclesOwn l s := by
  intro e he
  refine ⟨(ready_recycles h hown hok he).describes h, ?_⟩
  intro s' hs m t hm hne
  exact held_of_recycles hown h hok he (trans_of_step hs) hm hne

end Runs

/-- A write that returns with its message posted. -/
def outstandingWrite : List Label :=
  [.call 0 .write, .go 0, .go 0, .check 0 false, .go 0, .go 0, .send 0 true]

/-- The card answers the write, and the reply recycles its handler and frees
its mapping. -/
def repliedWrite : List Label :=
  .openFile 0 .bridge :: outstandingWrite ++ [.answer 0, .dispatch 0 0 0]

/-- Three writes hold the three mappings for data, and a fourth waits for one
until it gives up. -/
def fourthWrite : List Label :=
  .openFile 0 .bridge :: (outstandingWrite ++ outstandingWrite ++ outstandingWrite ++
    [.call 0 .write, .go 0, .go 0, .timeout 0, .go 0])

end Acq200.Rch
