import Mathlib.Data.List.Basic

/-!
# Splices and slices

A store of cells is a function from positions.  `splice` writes a list of
cells into a store from a position on, and `slice` reads a number of cells
from a position on.  Pieces that follow one another make one piece, so what
a run of adjacent writes leaves, or a run of adjacent reads gives, does not
depend on where it was cut.
-/

namespace Acq200.Lib

variable {α : Type}

/-- The store with `cells` written from `pos` on. -/
def splice (store : Nat → α) (pos : Nat) (cells : List α) : Nat → α :=
  fun i => if pos ≤ i then (cells[i - pos]?).getD (store i) else store i

/-- The `len` cells from `pos` on. -/
def slice (store : Nat → α) (pos len : Nat) : List α :=
  (List.range len).map fun i => store (pos + i)

theorem splice_nil (store : Nat → α) (pos : Nat) : splice store pos [] = store := by
  funext i
  simp [splice]

/-- Two adjacent writes are one. -/
theorem splice_append (store : Nat → α) (pos : Nat) (xs ys : List α) :
    splice (splice store pos xs) (pos + xs.length) ys = splice store pos (xs ++ ys) := by
  funext i
  simp only [splice]
  by_cases hpos : pos ≤ i
  · rw [if_pos hpos, if_pos hpos]
    by_cases hlt : i - pos < xs.length
    · rw [if_neg (by omega), List.getElem?_append_left hlt]
    · have hbeyond : xs[i - pos]? = none := List.getElem?_eq_none (by omega)
      rw [if_pos (by omega), List.getElem?_append_right (by omega), hbeyond,
        Nat.sub_add_eq, Option.getD_none]
  · rw [if_neg (by omega), if_neg hpos, if_neg hpos]

@[simp] theorem slice_zero (store : Nat → α) (pos : Nat) : slice store pos 0 = [] := rfl

@[simp] theorem length_slice (store : Nat → α) (pos len : Nat) :
    (slice store pos len).length = len := by
  simp [slice]

/-- Two adjacent reads are one. -/
theorem slice_append (store : Nat → α) (pos m n : Nat) :
    slice store pos m ++ slice store (pos + m) n = slice store pos (m + n) := by
  rw [slice, slice, slice, List.range_add, List.map_append, List.map_map]
  simp only [Function.comp_def, Nat.add_assoc]

/-- What has been written is what is read. -/
theorem slice_splice (store : Nat → α) (pos : Nat) (cells : List α) :
    slice (splice store pos cells) pos cells.length = cells := by
  refine List.ext_getElem (length_slice _ _ _) fun i hi hcell => ?_
  have hpos : pos ≤ pos + i := Nat.le_add_right pos i
  simp only [slice, List.getElem_map, List.getElem_range, splice]
  rw [if_pos hpos, Nat.add_sub_cancel_left, List.getElem?_eq_getElem hcell, Option.getD_some]

theorem take_slice (store : Nat → α) (pos : Nat) {m n : Nat} (h : m ≤ n) :
    (slice store pos n).take m = slice store pos m := by
  rw [slice, slice, ← List.map_take, List.take_range, Nat.min_eq_left h]

/-- A write leaves the cells on either side of it alone. -/
theorem splice_of_outside (store : Nat → α) {pos i : Nat} {cells : List α}
    (h : pos + cells.length ≤ i ∨ i < pos) : splice store pos cells i = store i := by
  by_cases hpos : pos ≤ i
  · have hbeyond : cells[i - pos]? = none := List.getElem?_eq_none (by omega)
    rw [splice, if_pos hpos, hbeyond, Option.getD_none]
  · rw [splice, if_neg hpos]

theorem slice_splice_of_disjoint (store : Nat → α) {pos start len : Nat} {cells : List α}
    (h : pos + cells.length ≤ start ∨ start + len ≤ pos) :
    slice (splice store pos cells) start len = slice store start len := by
  rw [slice, slice]
  apply List.map_congr_left
  intro i hi
  rw [List.mem_range] at hi
  exact splice_of_outside store (by omega)

/-- A write behind what is there already. -/
theorem slice_splice_append {store : Nat → α} {pos : Nat} {old new : List α}
    (h : slice store pos old.length = old) :
    slice (splice store (pos + old.length) new) pos (old ++ new).length = old ++ new := by
  rw [List.length_append, ← slice_append, slice_splice_of_disjoint _ (Or.inr (Nat.le_refl _)),
    slice_splice, h]

/-- A read behind what has been read already. -/
theorem append_slice_isPrefix {store : Nat → α} {pos n : Nat} {cells seen : List α}
    (h : slice store pos cells.length = cells) (hseen : seen <+: cells)
    (hn : seen.length + n ≤ cells.length) :
    seen ++ slice store (pos + seen.length) n <+: cells := by
  have hread : seen ++ slice store (pos + seen.length) n = slice store pos (seen.length + n) := by
    rw [← slice_append]
    congr 1
    rw [List.prefix_iff_eq_take.mp hseen, List.length_take,
      Nat.min_eq_left hseen.length_le]
    conv_rhs => rw [← take_slice store pos hseen.length_le, h]
  rw [hread, ← take_slice store pos hn, h]
  exact List.take_prefix _ _

end Acq200.Lib
