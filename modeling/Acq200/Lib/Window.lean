import Mathlib.Data.List.Basic
import Mathlib.Logic.Function.Basic

/-!
# Windows of a circular buffer

A circular buffer of `n` slots is a function from slot numbers to values,
and only the slots below `n` are used.  `window n slots start len` is the
list of the `len` slots from `start` on, with the wrap at `n`.  The lemmas
below say what a window becomes when it grows at the far end, when it
loses its first slot, and when a slot outside it is written.
-/

namespace Acq200.Lib

variable {α : Type}

/-- The `len` slots of a circular buffer of `n` slots, from `start` on. -/
def window (n : Nat) (slots : Nat → α) (start len : Nat) : List α :=
  (List.range len).map fun i => slots ((start + i) % n)

@[simp] theorem length_window (n : Nat) (slots : Nat → α) (start len : Nat) :
    (window n slots start len).length = len := by
  simp [window]

@[simp] theorem window_zero (n : Nat) (slots : Nat → α) (start : Nat) :
    window n slots start 0 = [] := rfl

/-- A window reads its start modulo `n` only. -/
theorem window_mod (n : Nat) (slots : Nat → α) (start len : Nat) :
    window n slots (start % n) len = window n slots start len := by
  simp [window]

/-- A longer window has one more slot at its end. -/
theorem window_succ (n : Nat) (slots : Nat → α) (start len : Nat) :
    window n slots start (len + 1)
      = window n slots start len ++ [slots ((start + len) % n)] := by
  simp [window, List.range_succ]

/-- The first slot of a window, and the rest. -/
theorem window_cons (n : Nat) (slots : Nat → α) (start len : Nat) :
    window n slots start (len + 1)
      = slots (start % n) :: window n slots (start + 1) len := by
  induction len with
  | zero => simp [window]
  | succ len ih =>
    rw [window_succ, ih, window_succ n slots (start + 1) len]
    simp [Nat.add_comm, Nat.add_left_comm]

/-- A window in two parts. -/
theorem window_append (n : Nat) (slots : Nat → α) (start a b : Nat) :
    window n slots start (a + b)
      = window n slots start a ++ window n slots (start + a) b := by
  induction b with
  | zero => simp
  | succ b ih =>
    rw [← Nat.add_assoc, window_succ, ih, window_succ, List.append_assoc,
      Nat.add_assoc]

/-- Two offsets below `n` that differ name different slots. -/
theorem add_mod_ne {n a i j : Nat} (hij : i < j) (hj : j < i + n) :
    (a + i) % n ≠ (a + j) % n := by
  intro h
  have hdvd : n ∣ (a + j) - (a + i) :=
    Nat.dvd_of_mod_eq_zero (Nat.sub_mod_eq_zero_of_mod_eq h.symm)
  have hle : n ≤ (a + j) - (a + i) := Nat.le_of_dvd (by omega) hdvd
  omega

/-- A write to a slot outside the window does not change it. -/
theorem window_update {n start len slot : Nat} {slots : Nat → α} {value : α}
    (h : ∀ i, i < len → (start + i) % n ≠ slot) :
    window n (Function.update slots slot value) start len
      = window n slots start len := by
  rw [window, window, List.map_inj_left]
  intro i hi
  rw [Function.update_of_ne (h i (List.mem_range.mp hi))]

end Acq200.Lib
