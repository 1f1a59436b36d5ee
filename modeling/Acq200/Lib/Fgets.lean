import Mathlib.Data.List.Basic
import Mathlib.Data.List.TakeWhile

/-!
# Lines read through a small buffer

`fgets` reads a line with its newline if the line fits the buffer, and else as
much as fits, so a reader with a buffer of `n` characters sees a text as the list
of its `pieces`, each at most `n - 1` long.  The text itself is the list of its
`lines`.  The lemmas here relate the two: the pieces of a text are the pieces of
its lines, one line after the other; a line that fits is one piece; a line that
does not begins with a full piece.

What a C program makes of a piece is `cstr`, the piece up to its first NUL.
-/

namespace Acq200.Lib

variable {α : Type} {nl nul : α} {n : Nat}

/-- One more character in front of the first of the pieces. -/
def consHead (c : α) : List (List α) → List (List α)
  | [] => [[c]]
  | p :: ps => (c :: p) :: ps

@[simp] theorem flatten_consHead (c : α) (ps : List (List α)) :
    (consHead c ps).flatten = c :: ps.flatten := by
  cases ps <;> rfl

theorem consHead_append {ps : List (List α)} (hps : ps ≠ []) (c : α) (qs : List (List α)) :
    consHead c ps ++ qs = consHead c (ps ++ qs) := by
  cases ps with
  | nil => exact absurd rfl hps
  | cons p ps => rfl

/-- Not empty, and a newline only at the end. -/
def IsLine (nl : α) (l : List α) : Prop := l ≠ [] ∧ nl ∉ l.dropLast

theorem isLine_singleton (nl c : α) : IsLine nl [c] := by
  unfold IsLine
  simp

theorem IsLine.cons {c : α} {l : List α} (hc : c ≠ nl) (hl : IsLine nl l) :
    IsLine nl (c :: l) := by
  refine ⟨List.cons_ne_nil c l, ?_⟩
  rw [List.dropLast_cons_of_ne_nil hl.1]
  simp [hc.symm, hl.2]

/-- A line with a newline ends in it. -/
theorem IsLine.getLast?_of_mem {l : List α} (hl : IsLine nl l) (hmem : nl ∈ l) :
    l.getLast? = some nl := by
  rw [← List.dropLast_concat_getLast hl.1] at hmem
  rcases List.mem_append.mp hmem with hdrop | hlast
  · exact absurd hdrop hl.2
  · rw [List.getLast?_eq_getLast_of_ne_nil hl.1, ← List.mem_singleton.mp hlast]

theorem isLine_consHead {c : α} {ps : List (List α)} (hc : c ≠ nl)
    (hps : ∀ p ∈ ps, IsLine nl p) : ∀ p ∈ consHead c ps, IsLine nl p := by
  cases ps with
  | nil => simp [consHead, isLine_singleton]
  | cons q qs =>
    intro p hp
    rcases List.mem_cons.mp hp with rfl | hp
    · exact (hps q List.mem_cons_self).cons hc
    · exact hps p (List.mem_cons_of_mem q hp)

/-- Lines with the whole text are all of the lines. -/
theorem eq_of_prefix_of_flatten {ps qs : List (List α)} (hpre : ps <+: qs)
    (hqs : ∀ q ∈ qs, IsLine nl q) (hflat : ps.flatten = qs.flatten) : ps = qs := by
  obtain ⟨more, rfl⟩ := hpre
  rw [List.flatten_append, List.self_eq_append_right, List.flatten_eq_nil_iff] at hflat
  cases more with
  | nil => rw [List.append_nil]
  | cons q more =>
    have hq := hqs q (List.mem_append_right _ List.mem_cons_self)
    exact absurd (hflat q List.mem_cons_self) hq.1

/-! ## What `fgets` reads -/

variable [DecidableEq α]

/-- The text up to its first newline, and no more than `room` characters. -/
def takeLine (nl : α) : Nat → List α → List α
  | 0, _ => []
  | _ + 1, [] => []
  | room + 1, c :: s => if c = nl then [c] else c :: takeLine nl room s

/-- `fgets` with a buffer of `n` characters: what it reads and what is left. -/
def fgets (nl : α) (n : Nat) (s : List α) : Option (List α × List α) :=
  if s = [] then none
  else some (takeLine nl (n - 1) s, s.drop (takeLine nl (n - 1) s).length)

/-- The pieces of a text, where the first has `room` for characters and the
others `size`. -/
def piecesFrom (nl : α) (size : Nat) : Nat → List α → List (List α)
  | _, [] => []
  | room, c :: s =>
    if c = nl ∨ room ≤ 1 then [c] :: piecesFrom nl size size s
    else consHead c (piecesFrom nl size (room - 1) s)

/-- What `fgets` reads of a text, call after call, with a buffer of `n`
characters. -/
def pieces (nl : α) (n : Nat) (s : List α) : List (List α) :=
  piecesFrom nl (n - 1) (n - 1) s

/-- The lines of a text, each with its newline.  The last may have none. -/
def lines (nl : α) : List α → List (List α)
  | [] => []
  | c :: s => if c = nl then [c] :: lines nl s else consHead c (lines nl s)

/-- The string that a C program sees in the characters. -/
def cstr (nul : α) (s : List α) : List α := s.takeWhile fun c => decide (c ≠ nul)

/-! ## Text from pieces and lines -/

@[simp] theorem pieces_nil (nl : α) (n : Nat) : pieces nl n [] = [] := by
  unfold pieces piecesFrom
  rfl

theorem flatten_piecesFrom (nl : α) (size room : Nat) (s : List α) :
    (piecesFrom nl size room s).flatten = s := by
  induction s generalizing room with
  | nil => simp [piecesFrom]
  | cons c s ih =>
    unfold piecesFrom
    split
    · simp [ih]
    · simp [ih]

@[simp] theorem flatten_pieces (nl : α) (n : Nat) (s : List α) : (pieces nl n s).flatten = s :=
  flatten_piecesFrom nl _ _ s

@[simp] theorem flatten_lines (nl : α) (s : List α) : (lines nl s).flatten = s := by
  induction s with
  | nil => rfl
  | cons c s ih =>
    unfold lines
    split
    · simp [ih]
    · simp [ih]

theorem piecesFrom_ne_nil {s : List α} (hs : s ≠ []) (size room : Nat) :
    piecesFrom nl size room s ≠ [] := by
  intro h
  have hflat := flatten_piecesFrom nl size room s
  rw [h] at hflat
  exact hs hflat.symm

/-! ## Each is a line -/

theorem isLine_of_mem_piecesFrom {size room : Nat} {s p : List α}
    (hp : p ∈ piecesFrom nl size room s) : IsLine nl p := by
  induction s generalizing room p with
  | nil => simp [piecesFrom] at hp
  | cons c s ih =>
    unfold piecesFrom at hp
    split at hp
    · rcases List.mem_cons.mp hp with rfl | hp
      · exact isLine_singleton nl c
      · exact ih hp
    · next hc => exact isLine_consHead (fun h => hc (.inl h)) (fun q hq => ih hq) p hp

theorem isLine_of_mem_pieces {s p : List α} (hp : p ∈ pieces nl n s) : IsLine nl p :=
  isLine_of_mem_piecesFrom hp

theorem isLine_of_mem_lines {s l : List α} (hl : l ∈ lines nl s) : IsLine nl l := by
  induction s generalizing l with
  | nil => simp [lines] at hl
  | cons c s ih =>
    unfold lines at hl
    split at hl
    · rcases List.mem_cons.mp hl with rfl | hl
      · exact isLine_singleton nl c
      · exact ih hl
    · next hc => exact isLine_consHead hc (fun q hq => ih hq) l hl

/-- Only the last line may have no newline. -/
theorem getLast?_of_mem_dropLast_lines {s l : List α} (hl : l ∈ (lines nl s).dropLast) :
    l.getLast? = some nl := by
  induction s generalizing l with
  | nil => simp [lines] at hl
  | cons c s ih =>
    unfold lines at hl
    split at hl
    · next hc =>
      cases hrest : lines nl s with
      | nil => simp [hrest] at hl
      | cons q qs =>
        rw [hrest, List.dropLast_cons_of_ne_nil (List.cons_ne_nil q qs), ← hrest] at hl
        rcases List.mem_cons.mp hl with rfl | hl
        · simp [hc]
        · exact ih hl
    · cases hrest : lines nl s with
      | nil => simp [hrest, consHead] at hl
      | cons q qs =>
        rw [hrest] at ih hl
        unfold consHead at hl
        cases qs with
        | nil => simp at hl
        | cons r rs =>
          rw [List.dropLast_cons_of_ne_nil (List.cons_ne_nil r rs)] at ih hl
          rcases List.mem_cons.mp hl with rfl | hl
          · have hq := ih List.mem_cons_self
            cases q with
            | nil => simp at hq
            | cons d q => rw [List.getLast?_cons_cons, hq]
          · exact ih (List.mem_cons_of_mem q hl)

theorem lines_cons (c : α) (s : List α) :
    lines nl (c :: s) = if c = nl then [c] :: lines nl s else consHead c (lines nl s) := rfl

theorem lines_ne_nil {s : List α} (hs : s ≠ []) : lines nl s ≠ [] := by
  intro h
  have hflat := flatten_lines nl s
  rw [h] at hflat
  exact hs hflat.symm

/-- A line is the only line of itself. -/
theorem lines_of_isLine {l : List α} (hl : IsLine nl l) : lines nl l = [l] := by
  induction l with
  | nil => exact absurd rfl hl.1
  | cons c l ih =>
    by_cases hnil : l = []
    · subst hnil
      unfold lines
      split <;> rfl
    · have hmem := hl.2
      rw [List.dropLast_cons_of_ne_nil hnil, List.mem_cons, not_or] at hmem
      unfold lines
      rw [if_neg (fun h => hmem.1 h.symm), ih ⟨hnil, hmem.2⟩]
      rfl

/-- After a text that ends in a newline a new line begins. -/
theorem lines_append {s : List α} (hs : s.getLast? = some nl) (t : List α) :
    lines nl (s ++ t) = lines nl s ++ lines nl t := by
  induction s with
  | nil => simp at hs
  | cons c s ih =>
    rw [List.cons_append]
    by_cases hnil : s = []
    · subst hnil
      rw [List.getLast?_singleton, Option.some_inj] at hs
      simp [lines, hs]
    · obtain ⟨d, u, rfl⟩ := List.exists_cons_of_ne_nil hnil
      rw [List.getLast?_cons_cons] at hs
      rw [lines_cons, lines_cons, ih hs]
      split
      · rfl
      · exact (consHead_append (lines_ne_nil hnil) c _).symm

/-! ## The pieces of the lines -/

theorem piecesFrom_eq_lines (size room : Nat) (s : List α) :
    piecesFrom nl size room s
      = match lines nl s with
        | [] => []
        | l :: ls => piecesFrom nl size room l ++ ls.flatMap (piecesFrom nl size size) := by
  induction s generalizing room with
  | nil => rfl
  | cons c s ih =>
    have hlines : piecesFrom nl size size s = (lines nl s).flatMap (piecesFrom nl size size) := by
      rw [ih]
      cases lines nl s <;> rfl
    by_cases hc : c = nl
    · simp [piecesFrom, lines, hc, hlines]
    · cases hrest : lines nl s with
      | nil =>
        have hs : s = [] := by_contra fun hs => lines_ne_nil hs hrest
        simp [lines, hc, hs, consHead]
      | cons l ls =>
        have hl : l ≠ [] := (isLine_of_mem_lines (by rw [hrest]; exact List.mem_cons_self)).1
        simp only [lines, hc, if_false, hrest, consHead]
        by_cases hroom : room ≤ 1
        · rw [hrest] at hlines
          simp [piecesFrom, hroom, hlines]
        · have hfirst := ih (room - 1)
          rw [hrest] at hfirst
          simp only [piecesFrom, hc, hroom, or_self, if_false, hfirst]
          exact (consHead_append (piecesFrom_ne_nil hl _ _) c _).symm

/-- The pieces of a text are the pieces of its lines. -/
theorem pieces_eq_flatMap_lines (nl : α) (n : Nat) (s : List α) :
    pieces nl n s = (lines nl s).flatMap (pieces nl n) := by
  unfold pieces
  rw [piecesFrom_eq_lines]
  cases lines nl s <;> rfl

theorem pieces_append {s : List α} (hs : s.getLast? = some nl) (t : List α) :
    pieces nl n (s ++ t) = pieces nl n s ++ pieces nl n t := by
  rw [pieces_eq_flatMap_lines, lines_append hs, List.flatMap_append,
    ← pieces_eq_flatMap_lines, ← pieces_eq_flatMap_lines]

/-! ## One piece after the other -/

theorem takeLine_ne_nil (nl : α) {s : List α} (hs : s ≠ []) {room : Nat} (hroom : 1 ≤ room) :
    takeLine nl room s ≠ [] := by
  cases s with
  | nil => exact absurd rfl hs
  | cons c s =>
    cases room with
    | zero => omega
    | succ room =>
      unfold takeLine
      split <;> exact List.cons_ne_nil _ _

theorem takeLine_isPrefix (room : Nat) (s : List α) : takeLine nl room s <+: s := by
  induction s generalizing room with
  | nil => cases room <;> exact List.nil_prefix
  | cons c s ih =>
    cases room with
    | zero => exact List.nil_prefix
    | succ room =>
      unfold takeLine
      split
      · exact List.cons_prefix_cons.mpr ⟨rfl, List.nil_prefix⟩
      · exact List.cons_prefix_cons.mpr ⟨rfl, ih room⟩

theorem takeLine_append_drop (nl : α) (room : Nat) (s : List α) :
    takeLine nl room s ++ s.drop (takeLine nl room s).length = s :=
  (List.prefix_iff_eq_append.mp (takeLine_isPrefix room s))

theorem piecesFrom_eq_cons (nl : α) {s : List α} (hs : s ≠ []) {room : Nat}
    (hroom : 1 ≤ room) (size : Nat) :
    piecesFrom nl size room s
      = takeLine nl room s
        :: piecesFrom nl size size (s.drop (takeLine nl room s).length) := by
  induction s generalizing room with
  | nil => exact absurd rfl hs
  | cons c s ih =>
    obtain ⟨room, rfl⟩ : ∃ k, room = k + 1 := ⟨room - 1, by omega⟩
    simp only [piecesFrom, takeLine]
    by_cases hc : c = nl
    · simp [hc]
    · by_cases hzero : room = 0
      · subst hzero
        simp [hc, takeLine]
      · have hle : ¬ room + 1 ≤ 1 := by omega
        simp only [hc, hle, or_self, if_false, Nat.add_sub_cancel]
        by_cases hnil : s = []
        · subst hnil
          obtain ⟨room, rfl⟩ : ∃ k, room = k + 1 := ⟨room - 1, by omega⟩
          simp [piecesFrom, takeLine, consHead]
        · rw [ih hnil (by omega)]
          simp [consHead]

theorem fgets_eq_none {s : List α} : fgets nl n s = none ↔ s = [] := by
  unfold fgets
  split <;> simp_all

theorem fgets_eq_some {s p rest : List α} (hn : 2 ≤ n) (h : fgets nl n s = some (p, rest)) :
    s = p ++ rest ∧ rest.length < s.length ∧ pieces nl n s = p :: pieces nl n rest := by
  unfold fgets at h
  split at h
  · cases h
  · next hs =>
    injection h with h
    injection h with hp hrest
    have happend := takeLine_append_drop nl (n - 1) s
    have hcons := piecesFrom_eq_cons nl hs (show 1 ≤ n - 1 by omega) (n - 1)
    have hpos := List.length_pos_of_ne_nil
      (takeLine_ne_nil nl hs (show 1 ≤ n - 1 by omega))
    rw [hrest, hp] at happend hcons
    rw [hp] at hpos
    refine ⟨happend.symm, ?_, hcons⟩
    rw [← happend, List.length_append]
    omega

theorem isLine_of_fgets {s p rest : List α} (hn : 2 ≤ n) (h : fgets nl n s = some (p, rest)) :
    IsLine nl p := by
  have hp : p ∈ pieces nl n s := by
    rw [(fgets_eq_some hn h).2.2]
    exact List.mem_cons_self
  exact isLine_of_mem_pieces hp

/-! ## The pieces of one line -/

theorem takeLine_eq_take {l : List α} (hl : nl ∉ l.dropLast) (room : Nat) :
    takeLine nl room l = l.take room := by
  induction l generalizing room with
  | nil => cases room <;> rfl
  | cons c l ih =>
    cases room with
    | zero => rfl
    | succ room =>
      unfold takeLine
      by_cases hnil : l = []
      · subst hnil
        cases room <;> simp [takeLine]
      · rw [List.dropLast_cons_of_ne_nil hnil, List.mem_cons, not_or] at hl
        rw [if_neg (fun h => hl.1 h.symm), ih hl.2, List.take_succ_cons]

/-- A line begins with a piece of it that is as long as fits. -/
theorem pieces_line {l : List α} (hl : IsLine nl l) (hn : 2 ≤ n) :
    pieces nl n l = l.take (n - 1) :: pieces nl n (l.drop (n - 1)) := by
  unfold pieces
  rw [piecesFrom_eq_cons nl hl.1 (show 1 ≤ n - 1 by omega), takeLine_eq_take hl.2,
    List.length_take]
  by_cases hlong : n - 1 ≤ l.length
  · rw [Nat.min_eq_left hlong]
  · rw [Nat.min_eq_right (by omega), List.drop_eq_nil_of_le (Nat.le_refl _),
      List.drop_eq_nil_of_le (by omega)]

/-- A line that fits is one piece. -/
theorem pieces_short {l : List α} (hl : IsLine nl l) (hn : l.length < n) :
    pieces nl n l = [l] := by
  have hpos := List.length_pos_of_ne_nil hl.1
  rw [pieces_line hl (by omega), List.take_of_length_le (by omega),
    List.drop_eq_nil_of_le (by omega), pieces_nil]

/-- Lines that all fit are each one piece. -/
theorem flatMap_pieces_of_short {ls : List (List α)} (hline : ∀ l ∈ ls, IsLine nl l)
    (hshort : ∀ l ∈ ls, l.length < n) : ls.flatMap (pieces nl n) = ls := by
  have heach : ∀ l ∈ ls, pieces nl n l = [l] := fun l hl =>
    pieces_short (hline l hl) (hshort l hl)
  rw [List.flatMap_def, List.map_congr_left heach, ← List.flatMap_def]
  exact List.flatMap_singleton' ls

/-- A text whose lines all fit is read line by line. -/
theorem pieces_eq_lines {s : List α} (hs : ∀ l ∈ lines nl s, l.length < n) :
    pieces nl n s = lines nl s := by
  rw [pieces_eq_flatMap_lines]
  exact flatMap_pieces_of_short (fun l hl => isLine_of_mem_lines hl) hs

/-! ## C strings -/

theorem cstr_isPrefix (nul : α) (s : List α) : cstr nul s <+: s :=
  List.takeWhile_prefix _

theorem not_mem_cstr (nul : α) (s : List α) : nul ∉ cstr nul s := by
  intro h
  have hne := List.mem_takeWhile_imp h
  simp at hne

theorem cstr_eq_self {s : List α} : cstr nul s = s ↔ nul ∉ s := by
  constructor
  · intro h
    rw [← h]
    exact not_mem_cstr nul s
  · intro h
    refine List.takeWhile_eq_self_iff.mpr fun c hc => decide_eq_true ?_
    rintro rfl
    exact h hc

/-- A line seen as a C string has a newline only at its end. -/
theorem not_mem_dropLast_cstr {l : List α} (hl : nl ∉ l.dropLast) :
    nl ∉ (cstr nul l).dropLast := by
  obtain ⟨t, ht⟩ := cstr_isPrefix nul l
  intro h
  by_cases hnil : t = []
  · rw [hnil, List.append_nil] at ht
    rw [ht] at h
    exact hl h
  · rw [← ht, List.dropLast_append_of_ne_nil hnil] at hl
    exact hl (List.mem_append_left _ (List.dropLast_subset _ h))

/-- A line is seen as a string with a newline only if it is that string. -/
theorem cstr_eq_iff {l w : List α} (hl : nl ∉ l.dropLast) (hw : nl ∈ w) (hnul : nul ∉ w) :
    cstr nul l = w ↔ l = w := by
  constructor
  · intro h
    obtain ⟨t, ht⟩ := cstr_isPrefix nul l
    by_cases hnil : t = []
    · rw [hnil, List.append_nil, h] at ht
      exact ht.symm
    · rw [← ht, List.dropLast_append_of_ne_nil hnil, h] at hl
      exact absurd (List.mem_append_left _ hw) hl
  · rintro rfl
    exact cstr_eq_self.mpr hnul

theorem not_mem_flatMap_cstr (nul : α) (ps : List (List α)) : nul ∉ ps.flatMap (cstr nul) := by
  intro h
  obtain ⟨p, -, hp⟩ := List.mem_flatMap.mp h
  exact not_mem_cstr nul p hp

theorem flatMap_cstr {ps : List (List α)} (h : nul ∉ ps.flatten) :
    ps.flatMap (cstr nul) = ps.flatten := by
  induction ps with
  | nil => rfl
  | cons p ps ih =>
    rw [List.flatten_cons, List.mem_append, not_or] at h
    rw [List.flatMap_cons, List.flatten_cons, cstr_eq_self.mpr h.1, ih h.2]

end Acq200.Lib
