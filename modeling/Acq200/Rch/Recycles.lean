import Acq200.Rch.Ownership

/-!
# The handler that a step recycles

`i2o_recycleRch` is called from the error returns before `buildRch`, the end
of a read, the test behind the wait of a release, the cleanup of a release,
the recycling of the A/B buffers, and the dispatch of a reply.
`Sys.recycles` names the handler that a step gives to it, so that a property
of every call can be stated of a run.  `freed_of_step` ties it to the record
of `acq200_pool_free_rch` that the device keeps.
-/

namespace Acq200.Rch

open Acq200.Lib Device

/-- The handler that a reply with this id recycles. -/
def Device.replyRecycles (d : Device) (id : BitVec 16) : Option Nat :=
  match d.findRch id with
  | none => none
  | some e =>
    match (d.rch e).handler with
    | some .handleReadMessageFile => if (d.rch e).path.isSome then none else some e
    | some .handleLastMessage => if (d.rch e).path.isSome then some e else none
    | some .recycleRchWrapper | none => some e

/-- The handler that the next statement of a client recycles. -/
def Sys.clientRecycles (s : Sys) (c : Nat) : Pc → Option Nat
  | .recycleUnbuilt e _ _ | .recycleRead e _ | .recycleLast e _ => some e
  | .cleanup => s.dev.cleanupRch c
  | .recycleAB .bufferA true _ => ((s.clients c).rchAB .bufferA).map Prod.fst
  | .recycleAB .bufferB _ true => ((s.clients c).rchAB .bufferB).map Prod.fst
  | _ => none

/-- The handler that a step gives to `i2o_recycleRch`. -/
def Sys.recycles (s : Sys) : Label → Option Nat
  | .go c => s.clientRecycles c (s.clients c).pc
  | .dispatch n _ _ => s.replies[n]?.bind fun p => s.dev.replyRecycles p.id
  | _ => none

section Sites

variable {s : Sys} {d : Device} {e c : Nat}

theorem findRch_of_replyRecycles {id : BitVec 16}
    (hrec : d.replyRecycles id = some e) : d.findRch id = some e := by
  unfold Device.replyRecycles at hrec
  cases hfind : d.findRch id with
  | none =>
    rw [hfind] at hrec
    cases hrec
  | some e' =>
    rw [hfind] at hrec
    simp only at hrec
    split at hrec
    · split at hrec
      · cases hrec
      · exact hrec
    · split at hrec
      · exact hrec
      · cases hrec
    · exact hrec
    · exact hrec

theorem linked_replyRecycles {id : BitVec 16} (hrec : d.replyRecycles id = some e) :
    e ∈ d.list :=
  (findRch_mem (findRch_of_replyRecycles hrec)).1

theorem slot_of_clientRecycles {buffer : Buffer} {recycleA recycleB : Bool}
    (hrec : s.clientRecycles c (.recycleAB buffer recycleA recycleB) = some e) :
    ∃ t, (s.clients c).rchAB buffer = some (e, t) := by
  cases buffer <;> cases recycleA <;> cases recycleB <;>
    simp [Sys.clientRecycles] at hrec <;> exact hrec

end Sites

section Frees

variable {s s' : Sys} {d d' : Device} {e c : Nat} {caller : Tag}

/-- The entries that have been freed, in the order of the calls. -/
def Device.freed (d : Device) : List Nat := d.frees.map Free.entry

theorem freed_recycle (h : d.i2oRecycleRch e caller = some d') :
    d'.freed = d.freed ++ [e] := by
  unfold Device.freed
  rw [(Device.recycled h).frees]
  simp

theorem freed_process {id : BitVec 16} {start nsamples : BitVec 32}
    (h : d.processCommandMessageReturn id start nsamples = some d') :
    d'.freed = d.freed ++ (d.replyRecycles id).toList := by
  unfold Device.processCommandMessageReturn at h
  unfold Device.replyRecycles
  cases hfind : d.findRch id with
  | none =>
    simp only [hfind] at h
    rw [← Option.some.inj h]
    simp
  | some e =>
    simp only [hfind] at h ⊢
    cases hhandler : (d.rch e).handler with
    | none =>
      simp only [hhandler] at h
      obtain ⟨d₁, hrec, rfl⟩ := Option.map_eq_some_iff.mp h
      have hfreed := freed_recycle hrec
      exact hfreed
    | some handler =>
      simp only [hhandler] at h
      cases handler with
      | recycleRchWrapper => exact freed_recycle h
      | handleReadMessageFile =>
        cases hpath : (d.rch e).path with
        | some path =>
          rw [handle_read hpath] at h
          rw [← Option.some.inj h]
          simp [Device.freed, Device.setRch]
        | none =>
          simp only [Device.handle, Device.rchSetSamplesAndGetPath, hpath] at h
          have hfreed := freed_recycle h
          exact hfreed
      | handleLastMessage =>
        simp only [Device.handle, setRch_rch_self] at h
        split at h
        · rename_i hpath
          simp only [hpath, if_true]
          have hfreed := freed_recycle h
          exact hfreed
        · cases h

/-- A step that recycles one handler and does not fault. -/
theorem freed_orOops {next : Device → Sys}
    (hnext : ∀ d, (next d).dev = d)
    (h : (s.orOops (s.dev.i2oRecycleRch e caller) next).oopsed = false) :
    (s.orOops (s.dev.i2oRecycleRch e caller) next).dev.freed =
      s.dev.freed ++ [e] := by
  cases hd : s.dev.i2oRecycleRch e caller with
  | none =>
    rw [hd] at h
    cases h
  | some d =>
    show (next d).dev.freed = _
    rw [hnext]
    exact freed_recycle hd

theorem freed_goAllocRch {op : Op} {asleep : Option Nat}
    (h : s.goAllocRch c op asleep = some s') : s'.dev.freed = s.dev.freed := by
  unfold Sys.goAllocRch at h
  split at h
  · cases h
  · rw [← Option.some.inj h]
    rfl
  · rw [← Option.some.inj h]
    rfl

theorem freed_goAllocMapping {op : Op} {t : Tag} {asleep : Option Nat}
    (h : s.goAllocMapping c op e t asleep = some s') :
    s'.dev.freed = s.dev.freed := by
  unfold Sys.goAllocMapping at h
  split at h
  · cases h
  · rw [← Option.some.inj h]
    rfl
  · rw [← Option.some.inj h]
    rfl

theorem freed_goRequest {pc : Pc} (h : s.goRequest c pc = some s')
    (hok : s'.oopsed = false) :
    s'.dev.freed = s.dev.freed ++ (s.clientRecycles c pc).toList := by
  have hnone : ∀ d : Device, d.freed = s.dev.freed →
      d.freed = s.dev.freed ++ (none : Option Nat).toList := by
    intro d hd
    simpa using hd
  cases pc with
  | allocRch op asleep =>
    cases asleep with
    | none => exact hnone _ (freed_goAllocRch h)
    | some ibuf => cases h
  | allocMapping op e t asleep =>
    cases asleep with
    | none => exact hnone _ (freed_goAllocMapping h)
    | some ibuf => cases h
  | recycleUnbuilt e t kbuf =>
    obtain rfl := Option.some.inj h
    exact freed_orOops (fun _ => rfl) hok
  | freeMapping kbuf =>
    obtain rfl := Option.some.inj h
    refine hnone _ ?_
    cases kbuf <;> rfl
  | build op e t kbuf =>
    obtain rfl := Option.some.inj h
    exact hnone _ rfl
  | append op e t kbuf predicted =>
    obtain rfl := Option.some.inj h
    cases hd : s.dev.rchAppend e with
    | none =>
      rw [hd] at hok
      cases hok
    | some d =>
      refine hnone _ ?_
      have hsame := (samePools_rchAppend hd).frees
      show d.frees.map Free.entry = s.dev.frees.map Free.entry
      rw [hsame]
  | removeIfNotValid e t =>
    simp only [Sys.goRequest] at h
    split at h
    · obtain rfl := Option.some.inj h
      cases hok
    · rename_i d valid hd
      obtain rfl := Option.some.inj h
      refine hnone _ ?_
      have hsame := (samePools_removeIfNotValid hd).frees
      show d.frees.map Free.entry = s.dev.frees.map Free.entry
      rw [hsame]
  | recycleRead e t =>
    obtain rfl := Option.some.inj h
    exact freed_orOops (fun _ => rfl) hok
  | _ => cases h

theorem freed_goRelease {pc : Pc} (h : s.goRelease c pc = some s')
    (hok : s'.oopsed = false) :
    s'.dev.freed = s.dev.freed ++ (s.clientRecycles c pc).toList := by
  cases pc with
  | testLast e t =>
    obtain rfl := Option.some.inj h
    simp [Sys.clientRecycles, Sys.setPc, Sys.setClient]
  | recycleLast e t =>
    obtain rfl := Option.some.inj h
    exact freed_orOops (fun _ => rfl) hok
  | cleanup =>
    simp only [Sys.goRelease] at h
    split at h
    · rename_i e he
      obtain rfl := Option.some.inj h
      rw [Sys.clientRecycles, he]
      exact freed_orOops (fun _ => rfl) hok
    · rename_i he
      obtain rfl := Option.some.inj h
      rw [Sys.clientRecycles, he]
      simp [Sys.setPc, Sys.setClient]
  | _ => cases h

theorem freed_goAB {pc : Pc} (h : s.goAB c pc = some s')
    (hok : s'.oopsed = false) :
    s'.dev.freed = s.dev.freed ++ (s.clientRecycles c pc).toList := by
  have hnone : ∀ s₁ : Sys, s₁.dev = s.dev →
      s₁.dev.freed = s.dev.freed ++ (none : Option Nat).toList := by
    intro s₁ hdev
    simp [hdev]
  cases pc with
  | recycleAB buffer recycleA recycleB =>
    simp only [Sys.goAB] at h
    split at h
    · rename_i e t hwanted hslot
      obtain rfl := Option.some.inj h
      have hrec : s.clientRecycles c (.recycleAB buffer recycleA recycleB) =
          some e := by
        cases buffer <;> simp only at hwanted <;>
          simp [Sys.clientRecycles, hwanted, hslot]
      rw [hrec]
      exact freed_orOops (fun _ => rfl) hok
    · rename_i hneither
      obtain rfl := Option.some.inj h
      have hrec : s.clientRecycles c (.recycleAB buffer recycleA recycleB) =
          none := by
        cases hslot : (s.clients c).rchAB buffer with
        | none =>
          cases buffer <;> cases recycleA <;> cases recycleB <;>
            simp [Sys.clientRecycles, hslot]
        | some p =>
          cases buffer <;> cases recycleA <;> cases recycleB <;>
            first
            | rfl
            | exact absurd hslot (hneither p.1 p.2 rfl)
      rw [hrec]
      exact hnone _ rfl
  | queueAB buffer =>
    simp only [Sys.goAB] at h
    split at h
    all_goals
      obtain rfl := Option.some.inj h
      exact hnone _ rfl
  | fillAB second =>
    simp only [Sys.goAB] at h
    split at h
    · obtain rfl := Option.some.inj h
      cases hok
    · split at h
      · split at h
        all_goals
          obtain rfl := Option.some.inj h
          exact hnone _ rfl
      · obtain rfl := Option.some.inj h
        exact hnone _ rfl
  | _ => cases h

theorem freed_go (h : s.clientStep c (.go c) = some s') (hok : s'.oopsed = false) :
    s'.dev.freed = s.dev.freed ++ (s.recycles (.go c)).toList := by
  simp only [Sys.clientStep] at h
  cases hrequest : s.goRequest c (s.clients c).pc with
  | some s₁ =>
    rw [hrequest] at h
    obtain rfl := Option.some.inj h
    exact freed_goRequest hrequest hok
  | none =>
    rw [hrequest] at h
    cases hrelease : s.goRelease c (s.clients c).pc with
    | some s₁ =>
      rw [hrelease] at h
      obtain rfl := Option.some.inj h
      exact freed_goRelease hrelease hok
    | none =>
      rw [hrelease] at h
      exact freed_goAB h hok

/-- A step of a client that is no `go` frees no handler. -/
theorem freed_trans {l : Label} (ht : Trans l s s') (hok : s'.oopsed = false)
    (hgo : l.goes = none) (hclient : l.client = some c) :
    s'.dev.freed = s.dev.freed := by
  cases ht with
  | oops => cases hok
  | neutral | sleepMapping | failMapping | failLen | passLen | endWaitRead
  | endWaitLast | allocRch | allocMapping => rfl
  | send hpc =>
    rw [Sys.sendI2OKbuf]
    split <;> rfl
  | answer | dispatch => cases hclient
  | _ => cases hgo

/-- A step that does not fault frees the handler that it recycles, and no
other. -/
theorem freed_of_step {l : Label} (h : Sys.step l s = some s')
    (hok : s'.oopsed = false) :
    s'.dev.freed = s.dev.freed ++ (s.recycles l).toList := by
  have ht := trans_of_step h
  have hplain : ∀ c, l.goes = none → l.client = some c → s.recycles l = none →
      s'.dev.freed = s.dev.freed ++ (s.recycles l).toList := by
    intro c hgo hclient hrec
    rw [hrec, freed_trans ht hok hgo hclient]
    simp
  cases l with
  | go c =>
    unfold Sys.step at h
    split at h
    · cases h
    · exact freed_go h hok
  | dispatch n start nsamples =>
    unfold Sys.step at h
    split at h
    · cases h
    · obtain ⟨p, hp, rfl⟩ := Option.map_eq_some_iff.mp h
      cases hd : s.dev.processCommandMessageReturn p.id start nsamples with
      | none =>
        rw [hd] at hok
        cases hok
      | some d =>
        rw [Sys.recycles, hp]
        exact freed_process hd
  | answer n =>
    unfold Sys.step at h
    split at h
    · cases h
    · obtain ⟨p, hp, rfl⟩ := Option.map_eq_some_iff.mp h
      simp [Sys.recycles]
  | openFile c _ | call c _ | check c _ | send c _ | wake c | timeout c
  | signal c => exact hplain c rfl rfl rfl

end Frees

end Acq200.Rch
