import Mathlib.Algebra.BigOperators.Fin
import Mathlib.Algebra.Order.BigOperators.Group.Finset

/-!
# Counting the parties at a place

A system of several parties keeps the place of each in a function, and a
step moves one party.  `tally` counts the parties whose place passes a test,
`tally_update` says how the count changes when one party moves, and
`tally_le_one` is the rule for mutual exclusion.
-/

namespace Acq200.Lib

variable {ι α : Type} [Fintype ι]

/-- The number of parties whose place passes the test. -/
def tally (test : α → Bool) (place : ι → α) : Nat :=
  ∑ i, (test (place i)).toNat

variable {test : α → Bool} {place : ι → α}

/-- One party moves. -/
theorem tally_update [DecidableEq ι] (test : α → Bool) (place : ι → α) (i : ι) (a : α) :
    tally test (Function.update place i a) + (test (place i)).toNat =
      tally test place + (test a).toNat := by
  have hrest : ∑ j ∈ Finset.univ.erase i, (test (Function.update place i a j)).toNat =
      ∑ j ∈ Finset.univ.erase i, (test (place j)).toNat := by
    refine Finset.sum_congr rfl fun j hj => ?_
    rw [Function.update_of_ne (Finset.ne_of_mem_erase hj)]
  unfold tally
  rw [← Finset.add_sum_erase _ _ (Finset.mem_univ i), hrest,
    ← Finset.add_sum_erase _ (fun j => (test (place j)).toNat) (Finset.mem_univ i),
    Function.update_self]
  omega

theorem tally_eq_zero : tally test place = 0 ↔ ∀ i, test (place i) = false := by
  unfold tally
  rw [Finset.sum_eq_zero_iff]
  simp

theorem tally_pos {i : ι} (h : test (place i) = true) : 0 < tally test place := by
  by_contra hzero
  have hnone := tally_eq_zero.mp (Nat.eq_zero_of_not_pos hzero) i
  rw [h] at hnone
  cases hnone

/-- Of parties counted at most once, no two pass the test. -/
theorem tally_le_one (h : tally test place ≤ 1) {i j : ι}
    (hi : test (place i) = true) (hj : test (place j) = true) : i = j := by
  classical
  by_contra hne
  unfold tally at h
  rw [← Finset.add_sum_erase _ _ (Finset.mem_univ i),
    ← Finset.add_sum_erase _ _
      (Finset.mem_erase.mpr ⟨Ne.symm hne, Finset.mem_univ j⟩), hi, hj] at h
  simp only [Bool.toNat_true] at h
  omega

/-- Tests that agree party by party count the same. -/
theorem tally_congr {β : Type} {other : β → Bool} {place' : ι → β}
    (h : ∀ i, test (place i) = other (place' i)) :
    tally test place = tally other place' := by
  unfold tally
  exact Finset.sum_congr rfl fun i _ => by rw [h i]

end Acq200.Lib
