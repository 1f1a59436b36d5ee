import Mathlib.Data.List.Basic

/-!
# Runs of an executable step function

A system is a step function `step : ι → σ → Option σ` over labels `ι` and
states `σ`.  The answer `none` says that the label is not enabled.  The
step functions of this development are all executable, so one definition
serves the invariants and the concrete runs.

`runFrom` is the run of a list of labels.  `RunMeets` says that every step
of a run meets a condition on its label and on the state before it.
`runFrom_inv` is the induction that turns a step lemma into a run lemma,
and `runFrom_inv₂` is the case with no condition on the steps.
`runMeets_of_inv` turns what the invariant says about one step into a
condition that every step of the run meets.  `runMeets_or_trapped` is for
a condition that decides the run: a step that breaks it leads to states
from which there is no way back.  `Leads` forgets the labels of a run and
keeps what its steps meet, so that runs are put together state by state.
-/

namespace Acq200.Lib

variable {σ ι : Type}

/-- The state that the labels reach from `s`, one after another. -/
def runFrom (step : ι → σ → Option σ) : List ι → σ → Option σ
  | [], s => some s
  | l :: ls, s => (step l s).bind (runFrom step ls)

/-- Every step of the run meets `ok` in the state before it. -/
def RunMeets (step : ι → σ → Option σ) (ok : ι → σ → Prop) :
    List ι → σ → Prop
  | [], _ => True
  | l :: ls, s => ok l s ∧ ∀ s' ∈ step l s, RunMeets step ok ls s'

/-- A condition that can be tested can be tested along a run. -/
instance decidableRunMeets (step : ι → σ → Option σ) (ok : ι → σ → Prop)
    [∀ l s, Decidable (ok l s)] :
    ∀ ls s, Decidable (RunMeets step ok ls s)
  | [], _ => inferInstanceAs (Decidable True)
  | l :: ls, s =>
    have := decidableRunMeets step ok ls
    inferInstanceAs
      (Decidable (ok l s ∧ ∀ s' ∈ step l s, RunMeets step ok ls s'))

variable {step : ι → σ → Option σ} {ok : ι → σ → Prop}

theorem runFrom_cons {l : ι} {ls : List ι} {s t : σ} :
    runFrom step (l :: ls) s = some t ↔
      ∃ s', step l s = some s' ∧ runFrom step ls s' = some t := by
  rw [runFrom, Option.bind_eq_some_iff]

theorem runFrom_append (ls ms : List ι) (s : σ) :
    runFrom step (ls ++ ms) s = (runFrom step ls s).bind (runFrom step ms) := by
  induction ls generalizing s with
  | nil => rfl
  | cons l ls ih =>
    rw [List.cons_append, runFrom, runFrom]
    cases step l s with
    | none => rfl
    | some s' => exact ih s'

/-- A condition on the labels alone. -/
theorem runMeets_of_forall {ls : List ι} (h : ∀ l ∈ ls, ∀ s, ok l s) (s : σ) :
    RunMeets step ok ls s := by
  induction ls generalizing s with
  | nil => trivial
  | cons l ls ih =>
    refine ⟨h l List.mem_cons_self s, fun s' _ => ?_⟩
    exact ih (fun m hm => h m (List.mem_cons_of_mem l hm)) s'

theorem RunMeets.imp {safe : ι → σ → Prop} {ls : List ι} {s : σ}
    (hok : RunMeets step ok ls s) (h : ∀ l s, ok l s → safe l s) :
    RunMeets step safe ls s := by
  induction ls generalizing s with
  | nil => trivial
  | cons l ls ih => exact ⟨h l s hok.1, fun s' hl => ih (hok.2 s' hl)⟩

/-- The run rule.  A predicate that every step keeps, as long as the step
meets `ok`, holds at the end of every run whose steps all meet `ok`. -/
theorem runFrom_inv {Inv : σ → Prop}
    (hstep : ∀ l s s', Inv s → ok l s → step l s = some s' → Inv s')
    {ls : List ι} {s t : σ} (hs : Inv s) (hok : RunMeets step ok ls s)
    (hrun : runFrom step ls s = some t) : Inv t := by
  induction ls generalizing s with
  | nil =>
    obtain rfl : s = t := Option.some.inj hrun
    exact hs
  | cons l ls ih =>
    obtain ⟨s', hl, hrest⟩ := runFrom_cons.mp hrun
    exact ih (hstep l s s' hs hok.1 hl) (hok.2 s' hl) hrest

/-- The run rule with no condition on the steps. -/
theorem runFrom_inv₂ {Inv : σ → Prop}
    (hstep : ∀ l s s', Inv s → step l s = some s' → Inv s')
    {ls : List ι} {s t : σ} (hs : Inv s)
    (hrun : runFrom step ls s = some t) : Inv t := by
  induction ls generalizing s with
  | nil =>
    obtain rfl : s = t := Option.some.inj hrun
    exact hs
  | cons l ls ih =>
    obtain ⟨s', hl, hrest⟩ := runFrom_cons.mp hrun
    exact ih (hstep l s s' hs hl) hrest

/-- What the invariant gives for one step holds of every step of a run. -/
theorem runMeets_of_inv {Inv : σ → Prop} {safe : ι → σ → Prop}
    (hstep : ∀ l s s', Inv s → ok l s → step l s = some s' → Inv s')
    (hgives : ∀ l s, Inv s → ok l s → safe l s)
    {ls : List ι} {s : σ} (hs : Inv s) (hok : RunMeets step ok ls s) :
    RunMeets step safe ls s := by
  induction ls generalizing s with
  | nil => trivial
  | cons l ls ih =>
    refine ⟨hgives l s hs hok.1, fun s' hl => ?_⟩
    exact ih (hstep l s s' hs hok.1 hl) (hok.2 s' hl)

/-- The rule for a condition that decides the run.  Steps that meet `ok` keep
the states `Good`, and the first step that does not leads to a trap. -/
theorem runMeets_or_trapped {Good Trap : σ → Prop}
    (hgood : ∀ l s s', Good s → ok l s → step l s = some s' → Good s')
    (hbreak : ∀ l s s', Good s → ¬ ok l s → step l s = some s' → Trap s')
    (htrap : ∀ l s s', Trap s → step l s = some s' → Trap s')
    {ls : List ι} {s t : σ} (hs : Good s) (hrun : runFrom step ls s = some t) :
    RunMeets step ok ls s ∧ Good t ∨ ¬ RunMeets step ok ls s ∧ Trap t := by
  induction ls generalizing s with
  | nil =>
    obtain rfl : s = t := Option.some.inj hrun
    exact Or.inl ⟨trivial, hs⟩
  | cons l ls ih =>
    obtain ⟨s', hl, hrest⟩ := runFrom_cons.mp hrun
    by_cases hok : ok l s
    · rcases ih (hgood l s s' hs hok hl) hrest with ⟨hmeets, ht⟩ | ⟨hbroken, ht⟩
      · refine Or.inl ⟨⟨hok, fun s₁ hs₁ => ?_⟩, ht⟩
        cases hl.symm.trans hs₁
        exact hmeets
      · exact Or.inr ⟨fun h => hbroken (h.2 s' hl), ht⟩
    · refine Or.inr ⟨fun h => hok h.1, ?_⟩
      exact runFrom_inv₂ htrap (hbreak l s s' hs hok hl) hrest

/-! ## States that a run leads to -/

/-- Some run whose steps all meet `ok` leads from `s` to `t`. -/
def Leads (step : ι → σ → Option σ) (ok : ι → σ → Prop) (s t : σ) : Prop :=
  ∃ ls, RunMeets step ok ls s ∧ runFrom step ls s = some t

theorem runMeets_append {ls ms : List ι} {s t : σ} (hls : RunMeets step ok ls s)
    (hrun : runFrom step ls s = some t) (hms : RunMeets step ok ms t) :
    RunMeets step ok (ls ++ ms) s := by
  induction ls generalizing s with
  | nil =>
    obtain rfl : s = t := Option.some.inj hrun
    exact hms
  | cons l ls ih =>
    obtain ⟨s', hl, hrest⟩ := runFrom_cons.mp hrun
    refine ⟨hls.1, fun s₁ hs₁ => ?_⟩
    cases hl.symm.trans hs₁
    exact ih (hls.2 s' hl) hrest

theorem leads_step {l : ι} {s t : σ} (hok : ok l s) (h : step l s = some t) :
    Leads step ok s t := by
  refine ⟨[l], ⟨hok, fun _ _ => trivial⟩, ?_⟩
  rw [runFrom, h, Option.bind_some, runFrom]

theorem Leads.trans {s s' t : σ} (h : Leads step ok s s') (h' : Leads step ok s' t) :
    Leads step ok s t := by
  obtain ⟨ls, hls, hrun⟩ := h
  obtain ⟨ms, hms, hrun'⟩ := h'
  refine ⟨ls ++ ms, runMeets_append hls hrun hms, ?_⟩
  rw [runFrom_append, hrun, Option.bind_some, hrun']

theorem Leads.inv {Inv : σ → Prop}
    (hstep : ∀ l s s', Inv s → ok l s → step l s = some s' → Inv s')
    {s t : σ} (h : Leads step ok s t) (hs : Inv s) : Inv t := by
  obtain ⟨ls, hok, hrun⟩ := h
  exact runFrom_inv hstep hs hok hrun

end Acq200.Lib
