import Acq200.Lib.Run

/-!
# Forward simulation between two step functions

A concrete system `step` is simulated by an abstract one `step'` when each
step of the first is answered by a run of the second.  That run may be
empty, so the concrete system may have steps that the abstract one does
not see.

A simulation by itself says nothing about what happened on the way.  The
abstract labels therefore show observations, and `traceOf` lists what a run
of them has shown.  The concrete system keeps its history `hist` in its
state, and `runFrom_simulates` says that the two lists grow together.
-/

namespace Acq200.Lib

variable {σ ι σ' ι' ω : Type}

/-- What the labels of a run show, one after another. -/
def traceOf (step : ι → σ → Option σ) (shows : ι → σ → List ω) : List ι → σ → List ω
  | [], _ => []
  | l :: ls, s => shows l s ++ (step l s).elim [] (traceOf step shows ls)

section Trace

variable {step : ι → σ → Option σ} {shows : ι → σ → List ω}

theorem traceOf_append {ls ms : List ι} {s t : σ} (hrun : runFrom step ls s = some t) :
    traceOf step shows (ls ++ ms) s = traceOf step shows ls s ++ traceOf step shows ms t := by
  induction ls generalizing s with
  | nil =>
    obtain rfl : s = t := Option.some.inj hrun
    rfl
  | cons l ls ih =>
    obtain ⟨s', hl, hrest⟩ := runFrom_cons.mp hrun
    rw [List.cons_append, traceOf, traceOf, hl, Option.elim_some, Option.elim_some, ih hrest,
      List.append_assoc]

/-- A single label. -/
theorem runFrom_single {l : ι} {s t : σ} (h : step l s = some t) :
    runFrom step [l] s = some t := by
  rw [runFrom, h, Option.bind_some, runFrom]

theorem traceOf_single {l : ι} {s t : σ} (h : step l s = some t) :
    traceOf step shows [l] s = shows l s := by
  rw [traceOf, h, Option.elim_some, traceOf, List.append_nil]

end Trace

variable {step : ι → σ → Option σ} {step' : ι' → σ' → Option σ'}

/-- The simulation rule.  If a run of the abstract system answers each step
of the concrete one and shows what the step adds to its history, then a run
answers each run. -/
theorem runFrom_simulates {R : σ → σ' → Prop} {hist : σ → List ω}
    {shows : ι' → σ' → List ω}
    (hstep : ∀ l s s' t, R s t → step l s = some s' →
      ∃ ms t', runFrom step' ms t = some t' ∧ R s' t' ∧
        hist s' = hist s ++ traceOf step' shows ms t)
    {ls : List ι} {s s' : σ} {t : σ'} (hst : R s t) (hrun : runFrom step ls s = some s') :
    ∃ ms t', runFrom step' ms t = some t' ∧ R s' t' ∧
      hist s' = hist s ++ traceOf step' shows ms t := by
  induction ls generalizing s t with
  | nil =>
    obtain rfl : s = s' := Option.some.inj hrun
    exact ⟨[], t, rfl, hst, (List.append_nil _).symm⟩
  | cons l ls ih =>
    obtain ⟨s₁, hl, hrest⟩ := runFrom_cons.mp hrun
    obtain ⟨ms, t₁, hms, hst₁, hhist⟩ := hstep l s s₁ t hst hl
    obtain ⟨ms', t', hms', hst', hhist'⟩ := ih hst₁ hrest
    refine ⟨ms ++ ms', t', ?_, hst', ?_⟩
    · rw [runFrom_append, hms, Option.bind_some, hms']
    · rw [hhist', hhist, traceOf_append hms, List.append_assoc]

end Acq200.Lib
