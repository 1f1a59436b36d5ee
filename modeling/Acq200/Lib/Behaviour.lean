import Acq200.Lib.Run

/-!
# Runs that go on for ever

A behaviour is an infinite sequence of states.  Each state comes from the one
before it by a step, or nothing has happened in between.

`LeadsTo` says that whenever one predicate holds, another one holds then or
later.  `leadsTo_of_until` proves it of a predicate that only ends where the
other one holds, and does end.  `leadsTo_of_rank` repeats this as long as a
rank goes down.
-/

namespace Acq200.Lib

section Behaviours

variable {σ ι : Type}

/-- An infinite run.  The labels are those of its steps, which all meet `ok`. -/
structure Behaviour (step : ι → σ → Option σ) (ok : ι → σ → Prop) (labels : Nat → Option ι)
    (states : Nat → σ) : Prop where
  idle : ∀ n, labels n = none → states (n + 1) = states n
  step : ∀ n l, labels n = some l →
    ok l (states n) ∧ step l (states n) = some (states (n + 1))

variable {step : ι → σ → Option σ} {ok : ι → σ → Prop} {labels : Nat → Option ι}
  {states : Nat → σ} {P Q R : σ → Prop}

/-- One state of a behaviour and the next. -/
theorem Behaviour.next (h : Behaviour step ok labels states) (n : Nat) :
    states (n + 1) = states n ∨
      ∃ l, labels n = some l ∧ ok l (states n) ∧ step l (states n) = some (states (n + 1)) := by
  cases hl : labels n with
  | none => exact Or.inl (h.idle n hl)
  | some l => exact Or.inr ⟨l, rfl, h.step n l hl⟩

/-- What every step keeps holds from then on. -/
theorem Behaviour.stable (h : Behaviour step ok labels states)
    (hstep : ∀ n l, P (states n) → ok l (states n) →
      step l (states n) = some (states (n + 1)) → P (states (n + 1)))
    {n m : Nat} (hnm : n ≤ m) (hn : P (states n)) : P (states m) := by
  induction hnm with
  | refl => exact hn
  | step _ ih =>
    rename_i m _
    rcases h.next m with hsame | ⟨l, _, hok, hl⟩
    · rw [hsame]
      exact ih
    · exact hstep m l ih hok hl

/-- The run rule for a behaviour. -/
theorem Behaviour.inv (h : Behaviour step ok labels states)
    (hstep : ∀ l s s', P s → ok l s → step l s = some s' → P s') (h₀ : P (states 0)) (n : Nat) :
    P (states n) :=
  h.stable (fun _ l => hstep l _ _) (Nat.zero_le n) h₀

/-! ## What leads to what -/

/-- Whenever `P` holds, `Q` holds then or later. -/
def LeadsTo (states : Nat → σ) (P Q : σ → Prop) : Prop :=
  ∀ n, P (states n) → ∃ m, n ≤ m ∧ Q (states m)

/-- `P` ends, and only where `Q` holds. -/
theorem leadsTo_of_until
    (huntil : ∀ n, P (states n) → P (states (n + 1)) ∨ Q (states (n + 1)))
    (hends : ∀ n, P (states n) → ∃ m, n ≤ m ∧ ¬ P (states m)) : LeadsTo states P Q := by
  intro n hn
  obtain ⟨m, hnm, hm⟩ := hends n hn
  obtain ⟨k, rfl⟩ := Nat.le.dest hnm
  induction k generalizing n with
  | zero => exact absurd hn hm
  | succ k ih =>
    rcases huntil n hn with hnext | hnext
    · rw [← Nat.add_assoc, Nat.add_right_comm] at hm
      obtain ⟨m, hle, hq⟩ := ih (n + 1) hnext (Nat.le_add_right _ k) hm
      exact ⟨m, Nat.le_trans (Nat.le_succ n) hle, hq⟩
    · exact ⟨n + 1, Nat.le_succ n, hnext⟩

/-- Each value of the rank leads to a smaller one, or to `Q`. -/
theorem leadsTo_of_rank (rank : σ → Nat)
    (h : ∀ k, LeadsTo states (fun s => P s ∧ rank s = k)
      (fun s => Q s ∨ P s ∧ rank s < k)) : LeadsTo states P Q := by
  intro n hn
  induction hk : rank (states n) using Nat.strongRecOn generalizing n with
  | ind k ih =>
    obtain ⟨m, hnm, hq | ⟨hp, hlt⟩⟩ := h k n ⟨hn, hk⟩
    · exact ⟨m, hnm, hq⟩
    · obtain ⟨j, hmj, hq⟩ := ih _ hlt m hp rfl
      exact ⟨j, Nat.le_trans hnm hmj, hq⟩

/-! ## Finite runs -/

/-- A run after which nothing happens. -/
def padded (step : ι → σ → Option σ) : List ι → σ → Nat → σ
  | _, s, 0 => s
  | [], s, _ + 1 => s
  | l :: ls, s, n + 1 => padded step ls ((step l s).getD s) n

theorem padded_nil (s : σ) (n : Nat) : padded step [] s n = s := by
  cases n <;> rfl

theorem padded_of_length_le {ls : List ι} {s t : σ} {n : Nat}
    (hrun : runFrom step ls s = some t) (hn : ls.length ≤ n) : padded step ls s n = t := by
  induction ls generalizing s n with
  | nil =>
    obtain rfl : s = t := Option.some.inj hrun
    exact padded_nil s n
  | cons l ls ih =>
    obtain ⟨s', hl, hrest⟩ := runFrom_cons.mp hrun
    cases n with
    | zero => exact absurd hn (Nat.not_succ_le_zero _)
    | succ n =>
      rw [padded, hl]
      exact ih hrest (Nat.le_of_succ_le_succ hn)

theorem behaviour_padded {ls : List ι} {s t : σ} (hok : RunMeets step ok ls s)
    (hrun : runFrom step ls s = some t) :
    Behaviour step ok (fun n => ls[n]?) (padded step ls s) where
  idle := by
    intro n hn
    have hle : ls.length ≤ n := List.getElem?_eq_none_iff.mp hn
    rw [padded_of_length_le hrun hle, padded_of_length_le hrun (Nat.le_succ_of_le hle)]
  step := by
    intro n l hl
    induction ls generalizing s n with
    | nil => cases hl
    | cons l₀ ls ih =>
      obtain ⟨s', hs', hrest⟩ := runFrom_cons.mp hrun
      cases n with
      | zero =>
        obtain rfl := Option.some.inj hl
        refine ⟨hok.1, ?_⟩
        show step l₀ s = some (padded step ls ((step l₀ s).getD s) 0)
        rw [hs', padded]
        rfl
      | succ n =>
        rw [padded, padded, hs']
        exact ih (hok.2 s' hs') hrest n hl

end Behaviours

end Acq200.Lib
