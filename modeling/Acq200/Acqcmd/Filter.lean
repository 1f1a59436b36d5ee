import Mathlib.Algebra.BigOperators.Group.List.Basic
import Acq200.Acqcmd.Script

/-!
# Which scripts are sent as they are

`script_filter_iff` says for which scripts the tests on pieces do what the same
tests on lines would do.  A line that is to be sent must be shorter than
`MAXLINE`, must not be a single character at the end of the script, which is
taken for blank, and must have no NUL.  The later pieces of a long comment must
look like comments or blank lines themselves.

For other scripts the events differ.  A reply that is read inside a line shows in
the number of characters since the last newline (`runsBefore`); the script asks
for such a reply only at the end of its last line.  And what a comment adds is
at least two characters, while no line loses more than one.
-/

namespace Acq200.Acqcmd

open Acq200.Lib

/-! ## The events of one line -/

theorem pieceEvents_of_dropped {p : List Char} (h : ISCOMMENT p || ISBLANK p) :
    pieceEvents p = [] := by
  unfold pieceEvents
  cases hcomment : ISCOMMENT p <;> simp_all

theorem programEvents_eq_flatMap_lines (s : List Char) :
    programEvents s = (lines '\n' s).flatMap programEvents := by
  unfold programEvents
  rw [pieces_eq_flatMap_lines, List.flatMap_assoc]

theorem ISCOMMENT_iff (p : List Char) : ISCOMMENT p = true ↔ p.head? = some '#' := by
  unfold ISCOMMENT
  exact beq_iff_eq

theorem ISBLANK_iff (p : List Char) : ISBLANK p = true ↔ (cstr NUL p).length ≤ 1 := by
  unfold ISBLANK
  exact decide_eq_true_iff

theorem pair_suffix {a b : Char} (l : List Char) :
    [a, b] <:+ l ↔ 1 < l.length ∧ l[l.length - 1]? = some b ∧ l[l.length - 2]? = some a := by
  constructor
  · rintro ⟨t, rfl⟩
    simp
  · rintro ⟨hlen, hb, ha⟩
    have hdrop : l.drop (l.length - 2) = [a, b] := by
      rw [List.drop_eq_getElem?_toList_append, ha, List.drop_eq_getElem?_toList_append,
        show l.length - 2 + 1 = l.length - 1 by omega, hb, List.drop_eq_nil_of_le (by omega)]
      rfl
    rw [← hdrop]
    exact List.drop_suffix _ l

theorem iscontinuation_iff {l : List Char} (hnul : NUL ∉ l) :
    iscontinuation l = true ↔ Continued l := by
  unfold iscontinuation Continued
  rw [cstr_eq_self.mpr hnul, pair_suffix, pair_suffix]
  by_cases hlen : 1 < l.length
  · by_cases hnl : l[l.length - 1]? = some '\n'
    · simp [hlen, hnl]
    · simp [hlen, hnl]
  · simp [hlen]

/-- A piece of a command goes out as it is. -/
theorem pieceEvents_of_command {p : List Char} (hcomment : p.head? ≠ some '#')
    (hnul : NUL ∉ p) (hlen : 1 < p.length) : pieceEvents p = block p (iscontinuation p) := by
  have hfirst : ¬ ISCOMMENT p = true := fun h => hcomment ((ISCOMMENT_iff p).mp h)
  have hblank : ¬ ISBLANK p = true := by
    rw [ISBLANK_iff, cstr_eq_self.mpr hnul]
    omega
  unfold pieceEvents
  rw [cstr_eq_self.mpr hnul, if_pos (by simp [hfirst, hblank])]

/-- A line that goes out in one piece. -/
theorem programEvents_of_short {l : List Char} (hl : IsLine '\n' l) (hkept : Kept l)
    (hnul : NUL ∉ l) (hshort : l.length < MAXLINE) (hone : l.length ≠ 1) :
    programEvents l = lineEvents l := by
  have hpos := List.length_pos_of_ne_nil hl.1
  have hcont : iscontinuation l = decide (Continued l) := by
    rw [Bool.eq_iff_iff, iscontinuation_iff hnul, decide_eq_true_iff]
  unfold programEvents lineEvents
  rw [pieces_short hl hshort, List.flatMap_singleton, if_pos hkept,
    pieceEvents_of_command hkept.1 hnul (by omega), hcont]

/-- A line that is left out gives only what its later pieces give. -/
theorem programEvents_of_not_kept {l : List Char} (hl : IsLine '\n' l) (hkept : ¬ Kept l) :
    programEvents l = ((pieces '\n' MAXLINE l).tail).flatMap pieceEvents := by
  have hfirst : ISCOMMENT (l.take (MAXLINE - 1)) || ISBLANK (l.take (MAXLINE - 1)) := by
    unfold Kept at hkept
    by_cases hcomment : l.head? = some '#'
    · have hhead : ISCOMMENT (l.take (MAXLINE - 1)) = true := by
        rw [ISCOMMENT_iff, List.head?_take, if_neg (by decide), hcomment]
      rw [hhead]
      rfl
    · have hempty : l = ['\n'] := by simpa [hcomment] using hkept
      rw [hempty]
      decide
  unfold programEvents
  rw [pieces_line hl (by decide), List.flatMap_cons, pieceEvents_of_dropped hfirst,
    List.nil_append, List.tail_cons]

theorem not_mem_programEvents (s : List Char) : .send NUL ∉ programEvents s := by
  intro h
  obtain ⟨p, -, hp⟩ := List.mem_flatMap.mp h
  unfold pieceEvents block at hp
  split at hp
  · rcases List.mem_append.mp hp with hsend | hread
    · obtain ⟨c, hc, heq⟩ := List.mem_map.mp hsend
      injection heq with heq
      exact not_mem_cstr NUL p (heq ▸ hc)
    · split at hread <;> simp at hread
  · exact absurd hp List.not_mem_nil

/-! ## Characters since the last newline -/

/-- The number of characters sent since the last newline, or the last reply. -/
def openRun : Nat → List Event → Nat
  | r, [] => r
  | r, .send c :: t => openRun (if c = '\n' then 0 else r + 1) t
  | _, .read :: t => openRun 0 t

/-- The same at each reply that is read, where it is not zero. -/
def runsBefore : Nat → List Event → List Nat
  | _, [] => []
  | r, .send c :: t => runsBefore (if c = '\n' then 0 else r + 1) t
  | r, .read :: t => if r = 0 then runsBefore 0 t else r :: runsBefore 0 t

theorem runsBefore_append (r : Nat) (t u : List Event) :
    runsBefore r (t ++ u) = runsBefore r t ++ runsBefore (openRun r t) u := by
  induction t generalizing r with
  | nil => rfl
  | cons e t ih =>
    cases e with
    | send c => exact ih _
    | read =>
      simp only [List.cons_append, runsBefore, openRun, ih]
      split <;> rfl

theorem openRun_append (r : Nat) (t u : List Event) :
    openRun r (t ++ u) = openRun (openRun r t) u := by
  induction t generalizing r with
  | nil => rfl
  | cons e t ih =>
    cases e with
    | send c => exact ih _
    | read => exact ih 0

theorem runsBefore_flatMap {α : Type} {f : α → List Event} {xs : List α}
    (h : ∀ x ∈ xs, openRun 0 (f x) = 0) :
    runsBefore 0 (xs.flatMap f) = xs.flatMap fun x => runsBefore 0 (f x) := by
  induction xs with
  | nil => rfl
  | cons x xs ih =>
    rw [List.flatMap_cons, List.flatMap_cons, runsBefore_append, h x List.mem_cons_self,
      ih fun y hy => h y (List.mem_cons_of_mem x hy)]

theorem runsBefore_send (r : Nat) (w : List Char) : runsBefore r (w.map .send) = [] := by
  induction w generalizing r with
  | nil => rfl
  | cons c w ih => exact ih _

theorem openRun_send {w : List Char} (hw : IsLine '\n' w) (r : Nat) :
    openRun r (w.map .send) = if w.getLast? = some '\n' then 0 else r + w.length := by
  induction w generalizing r with
  | nil => exact absurd rfl hw.1
  | cons c w ih =>
    by_cases hnil : w = []
    · subst hnil
      simp [openRun]
    · have hmem := hw.2
      rw [List.dropLast_cons_of_ne_nil hnil, List.mem_cons, not_or] at hmem
      obtain ⟨d, v, rfl⟩ := List.exists_cons_of_ne_nil hnil
      rw [List.map_cons, openRun, if_neg (fun h => hmem.1 h.symm), ih ⟨hnil, hmem.2⟩,
        List.getLast?_cons_cons, List.length_cons (a := c), Nat.add_assoc, Nat.add_comm 1]

/-- A block ends a line or reads a reply. -/
theorem openRun_block {w : List Char} {continued : Bool} (hw : IsLine '\n' w)
    (hcont : continued = true → w.getLast? = some '\n') :
    openRun 0 (block w continued) = 0 := by
  unfold block
  rw [openRun_append, openRun_send hw]
  cases continued with
  | true =>
    rw [if_pos (hcont rfl)]
    rfl
  | false => rfl

/-- A reply is read inside a line if the block does not end one. -/
theorem runsBefore_block {w : List Char} {continued : Bool} (hw : IsLine '\n' w)
    (hcont : continued = true → w.getLast? = some '\n') :
    runsBefore 0 (block w continued) = if w.getLast? = some '\n' then [] else [w.length] := by
  have hpos := List.length_pos_of_ne_nil hw.1
  unfold block
  rw [runsBefore_append, runsBefore_send, List.nil_append, openRun_send hw, Nat.zero_add]
  cases continued with
  | true =>
    rw [if_pos (hcont rfl), if_pos (hcont rfl)]
    rfl
  | false =>
    by_cases hlast : w.getLast? = some '\n'
    · rw [if_pos hlast, if_pos hlast]
      rfl
    · rw [if_neg hlast, if_neg hlast]
      simp only [Bool.false_eq_true, if_false, runsBefore]
      rw [if_neg (by omega)]

theorem getLast?_of_continued {l : List Char} (h : Continued l) : l.getLast? = some '\n' := by
  rcases h with ⟨t, rfl⟩ | ⟨t, rfl⟩ <;> simp

theorem getLast?_of_iscontinuation {p : List Char} (h : iscontinuation p = true) :
    (cstr NUL p).getLast? = some '\n' := by
  unfold iscontinuation at h
  rw [List.getLast?_eq_getElem?]
  by_contra hlast
  simp [hlast] at h

theorem runsBefore_lineEvents {l : List Char} (hl : IsLine '\n' l) :
    runsBefore 0 (lineEvents l)
      = if Kept l ∧ l.getLast? ≠ some '\n' then [l.length] else [] := by
  unfold lineEvents
  by_cases hkept : Kept l
  · rw [if_pos hkept,
      runsBefore_block hl fun h => getLast?_of_continued (of_decide_eq_true h)]
    simp [hkept]
  · rw [if_neg hkept, if_neg fun h => hkept h.1]
    rfl

theorem openRun_lineEvents {l : List Char} (hl : IsLine '\n' l) :
    openRun 0 (lineEvents l) = 0 := by
  unfold lineEvents
  split
  · exact openRun_block hl fun h => getLast?_of_continued (of_decide_eq_true h)
  · rfl

theorem openRun_pieceEvents {p : List Char} (hp : IsLine '\n' p) :
    openRun 0 (pieceEvents p) = 0 := by
  unfold pieceEvents
  split
  · next h =>
    have hblank : ¬ ISBLANK p = true := by simp_all
    rw [ISBLANK_iff] at hblank
    refine openRun_block ⟨fun hnil => ?_, not_mem_dropLast_cstr hp.2⟩ getLast?_of_iscontinuation
    rw [hnil] at hblank
    exact hblank (Nat.zero_le 1)
  · rfl

/-- The program reads a reply after a piece with no newline. -/
theorem runsBefore_pieceEvents {p : List Char} (hcomment : p.head? ≠ some '#')
    (hnul : NUL ∉ p) (hnl : '\n' ∉ p) (hlen : 1 < p.length) :
    runsBefore 0 (pieceEvents p) = [p.length] := by
  have hlast : p.getLast? ≠ some '\n' := fun h => hnl (List.mem_of_getLast? h)
  have hp : IsLine '\n' p :=
    ⟨List.ne_nil_of_length_pos (by omega), fun h => hnl (List.dropLast_subset p h)⟩
  have hcont := getLast?_of_iscontinuation (p := p)
  rw [cstr_eq_self.mpr hnul] at hcont
  rw [pieceEvents_of_command hcomment hnul hlen, runsBefore_block hp hcont, if_neg hlast]

theorem runsBefore_programEvents (s : List Char) :
    runsBefore 0 (programEvents s)
      = (pieces '\n' MAXLINE s).flatMap fun p => runsBefore 0 (pieceEvents p) :=
  runsBefore_flatMap fun _ hp => openRun_pieceEvents (isLine_of_mem_pieces hp)

/-- A script asks for a reply inside a line only at its end. -/
theorem runsBefore_scriptEvents {s last : List Char} {init : List (List Char)}
    (hs : lines '\n' s = init ++ [last]) :
    runsBefore 0 (scriptEvents s) = runsBefore 0 (lineEvents last) := by
  have hline : ∀ l ∈ lines '\n' s, IsLine '\n' l := fun l hl => isLine_of_mem_lines hl
  have hinit : ∀ l ∈ init, runsBefore 0 (lineEvents l) = [] := by
    intro l hl
    have hdrop : l ∈ (lines '\n' s).dropLast := by
      rw [hs, List.dropLast_concat]
      exact hl
    rw [runsBefore_lineEvents (hline l (List.dropLast_subset _ hdrop)),
      if_neg fun h => h.2 (getLast?_of_mem_dropLast_lines hdrop)]
  unfold scriptEvents
  rw [runsBefore_flatMap fun l hl => openRun_lineEvents (hline l hl), hs, List.flatMap_append,
    List.flatMap_eq_nil_iff.mpr hinit, List.nil_append, List.flatMap_singleton]

/-! ## What equal events say about the lines that are sent -/

theorem not_mem_of_eq {s l : List Char} (heq : programEvents s = scriptEvents s)
    (hl : l ∈ lines '\n' s) (hkept : Kept l) : NUL ∉ l := by
  intro hmem
  apply not_mem_programEvents s
  rw [heq]
  refine List.mem_flatMap.mpr ⟨l, hl, ?_⟩
  unfold lineEvents block
  rw [if_pos hkept]
  exact List.mem_append_left _ (List.mem_map_of_mem hmem)

/-- The first piece of a line that does not fit is taken for a command. -/
theorem runsBefore_first_piece {l : List Char} (hl : IsLine '\n' l) (hkept : Kept l)
    (hnul : NUL ∉ l) (hlong : MAXLINE ≤ l.length) :
    l.take (MAXLINE - 1) ∈ pieces '\n' MAXLINE l
      ∧ runsBefore 0 (pieceEvents (l.take (MAXLINE - 1))) = [MAXLINE - 1] := by
  have hmax : MAXLINE = 4096 := rfl
  have hlength : (l.take (MAXLINE - 1)).length = MAXLINE - 1 := by
    rw [List.length_take]
    omega
  constructor
  · rw [pieces_line hl (by decide)]
    exact List.mem_cons_self
  · rw [runsBefore_pieceEvents _ (fun h => hnul (List.mem_of_mem_take h)) _ (by omega), hlength]
    · rw [List.head?_take, if_neg (by decide)]
      exact hkept.1
    · intro h
      apply hl.2
      rw [List.dropLast_eq_take]
      exact (List.take_prefix_take_left (by omega)).subset h

/-- A line that is sent is sent in one piece. -/
theorem length_lt_of_eq {s l : List Char} (heq : programEvents s = scriptEvents s)
    (hl : l ∈ lines '\n' s) (hkept : Kept l) : l.length < MAXLINE := by
  by_contra hlong
  have hmax : MAXLINE = 4096 := rfl
  obtain ⟨init, last, hs⟩ : ∃ init last, lines '\n' s = init ++ [last] :=
    ⟨_, _, (List.dropLast_concat_getLast (List.ne_nil_of_mem hl)).symm⟩
  have hlast : last ∈ lines '\n' s := by
    rw [hs]
    exact List.mem_append_right _ (List.mem_singleton_self last)
  have hline := isLine_of_mem_lines hlast
  obtain ⟨hpiece, hruns⟩ := runsBefore_first_piece (isLine_of_mem_lines hl) hkept
    (not_mem_of_eq heq hl hkept) (Nat.not_lt.mp hlong)
  have hinner : ∀ ls : List (List Char), l ∈ ls → MAXLINE - 1 ∈
      (ls.flatMap (pieces '\n' MAXLINE)).flatMap fun p => runsBefore 0 (pieceEvents p) := by
    intro ls hmem
    refine List.mem_flatMap.mpr ⟨_, List.mem_flatMap.mpr ⟨l, hmem, hpiece⟩, ?_⟩
    rw [hruns]
    exact List.mem_singleton_self _
  -- The reply that is read inside the line is the one at the end of the last line.
  have hprogram := runsBefore_programEvents s
  rw [heq, runsBefore_scriptEvents hs, runsBefore_lineEvents hline,
    pieces_eq_flatMap_lines] at hprogram
  have hread := hinner _ hl
  rw [← hprogram] at hread
  split at hread
  · next h =>
    obtain ⟨hkept', hopen⟩ := h
    have hlength : MAXLINE - 1 = last.length := List.mem_singleton.mp hread
    have hnl : '\n' ∉ last := fun hmem => hopen (hline.getLast?_of_mem hmem)
    -- The last line is sent as well, so there are two such replies.
    have hmem : l ∈ init := by
      rw [hs] at hl
      rcases List.mem_append.mp hl with hmem | hmem
      · exact hmem
      · rw [List.mem_singleton.mp hmem] at hlong
        omega
    rw [if_pos ⟨hkept', hopen⟩, hs, List.flatMap_append, List.flatMap_append,
      List.flatMap_singleton, pieces_short hline (by omega), List.flatMap_singleton,
      runsBefore_pieceEvents hkept'.1 (not_mem_of_eq heq hlast hkept') hnl (by omega),
      List.self_eq_append_left] at hprogram
    have hnone := hinner init hmem
    rw [hprogram] at hnone
    exact List.not_mem_nil hnone
  · exact List.not_mem_nil hread

/-! ## How much is sent -/

/-- The number of characters that are sent. -/
def sendCount (t : List Event) : Nat := t.countP fun e => decide (e ≠ .read)

theorem sendCount_flatMap {α : Type} (f : α → List Event) (xs : List α) :
    sendCount (xs.flatMap f) = (xs.map fun x => sendCount (f x)).sum := by
  unfold sendCount
  rw [List.countP_flatMap]
  rfl

theorem sendCount_block (w : List Char) (continued : Bool) :
    sendCount (block w continued) = w.length := by
  have hsend : ∀ v : List Char, (v.map Event.send).countP (fun e => decide (e ≠ .read))
      = v.length := by
    intro v
    induction v with
    | nil => rfl
    | cons c v ih =>
      rw [List.map_cons, List.countP_cons_of_pos (by simp), ih, List.length_cons]
  unfold sendCount block
  rw [List.countP_append, hsend]
  cases continued <;> rfl

/-- Numbers that are each the same or larger by two at least. -/
theorem sum_eq_or_add_two_le {α : Type} {f g : α → Nat} {xs : List α}
    (h : ∀ x ∈ xs, f x = g x ∨ g x + 2 ≤ f x) :
    (∀ x ∈ xs, f x = g x) ∧ (xs.map f).sum = (xs.map g).sum
      ∨ (xs.map g).sum + 2 ≤ (xs.map f).sum := by
  induction xs with
  | nil => exact .inl ⟨fun x hx => absurd hx List.not_mem_nil, rfl⟩
  | cons x xs ih =>
    simp only [List.map_cons, List.sum_cons]
    rcases h x List.mem_cons_self with hx | hx <;>
      rcases ih (fun y hy => h y (List.mem_cons_of_mem x hy)) with ⟨hall, hsum⟩ | hsum
    · left
      refine ⟨?_, by omega⟩
      intro y hy
      rcases List.mem_cons.mp hy with rfl | hy
      · exact hx
      · exact hall y hy
    all_goals exact .inr (by omega)

/-- A piece that is sent has two characters at least. -/
theorem sendCount_pieceEvents (p : List Char) :
    sendCount (pieceEvents p) = 0 ∧ (ISCOMMENT p || ISBLANK p) = true
      ∨ 2 ≤ sendCount (pieceEvents p) := by
  cases hdropped : ISCOMMENT p || ISBLANK p with
  | true =>
    rw [pieceEvents_of_dropped hdropped]
    exact .inl ⟨rfl, rfl⟩
  | false =>
    right
    rw [Bool.or_eq_false_iff] at hdropped
    have hblank : ¬ ISBLANK p = true := by simp [hdropped.2]
    rw [ISBLANK_iff] at hblank
    unfold pieceEvents
    rw [hdropped.1, hdropped.2]
    show 2 ≤ sendCount (block (cstr NUL p) (iscontinuation p))
    rw [sendCount_block]
    omega

/-- A line that is left out is left out as a whole, or two characters of it are
sent. -/
theorem sendCount_of_not_kept {l : List Char} (hl : IsLine '\n' l) (hkept : ¬ Kept l) :
    (∀ p ∈ (pieces '\n' MAXLINE l).tail, (ISCOMMENT p || ISBLANK p) = true)
      ∨ 2 ≤ sendCount (programEvents l) := by
  rw [programEvents_of_not_kept hl hkept, sendCount_flatMap]
  have heach : ∀ p ∈ (pieces '\n' MAXLINE l).tail,
      sendCount (pieceEvents p) = 0 ∨ 0 + 2 ≤ sendCount (pieceEvents p) := by
    intro p _
    rcases sendCount_pieceEvents p with ⟨hzero, -⟩ | hsent
    · exact .inl hzero
    · exact .inr (by omega)
  have hpieces := sum_eq_or_add_two_le heach
  rcases hpieces with ⟨hall, -⟩ | hsum
  · left
    intro p hp
    rcases sendCount_pieceEvents p with ⟨-, hdropped⟩ | hsent
    · exact hdropped
    · have hzero := hall p hp
      omega
  · right
    simpa using hsum

/-! ## Filtering -/

/-- Each line is sent, or left out, as it is. -/
structure FilteredAsLines (stdin : List Char) : Prop where
  sent : ∀ l ∈ lines '\n' stdin, Kept l → NUL ∉ l ∧ l.length < MAXLINE ∧ l.length ≠ 1
  left : ∀ l ∈ lines '\n' stdin, ¬ Kept l →
    ∀ p ∈ (pieces '\n' MAXLINE l).tail, (ISCOMMENT p || ISBLANK p) = true

theorem programEvents_of_filtered {stdin : List Char} (h : FilteredAsLines stdin) :
    programEvents stdin = scriptEvents stdin := by
  have hline : ∀ l ∈ lines '\n' stdin, programEvents l = lineEvents l := by
    intro l hl
    have hl' := isLine_of_mem_lines hl
    by_cases hkept : Kept l
    · obtain ⟨hnul, hshort, hone⟩ := h.sent l hl hkept
      exact programEvents_of_short hl' hkept hnul hshort hone
    · have hnone : ∀ p ∈ (pieces '\n' MAXLINE l).tail, pieceEvents p = [] := fun p hp =>
        pieceEvents_of_dropped (h.left l hl hkept p hp)
      unfold lineEvents
      rw [programEvents_of_not_kept hl' hkept, List.flatMap_eq_nil_iff.mpr hnone, if_neg hkept]
  rw [programEvents_eq_flatMap_lines]
  unfold scriptEvents
  rw [List.flatMap_def, List.flatMap_def, List.map_congr_left hline]

/-- A single character is sent only by a script that says so. -/
theorem programEvents_of_single {l : List Char} (hl : IsLine '\n' l) (hone : l.length = 1) :
    programEvents l = [] := by
  have hblank : ISBLANK l = true := by
    rw [ISBLANK_iff, ← hone]
    exact (cstr_isPrefix NUL l).length_le
  have hmax : MAXLINE = 4096 := rfl
  unfold programEvents
  rw [pieces_short hl (by omega), List.flatMap_singleton]
  exact pieceEvents_of_dropped (by rw [hblank, Bool.or_true])

theorem sendCount_lineEvents {l : List Char} (hkept : Kept l) :
    sendCount (lineEvents l) = l.length := by
  unfold lineEvents
  rw [if_pos hkept, sendCount_block]

/-- No line loses more than a single character, and that one at the end of the
script. -/
theorem sendCount_line {stdin l : List Char} (heq : programEvents stdin = scriptEvents stdin)
    (hl : l ∈ lines '\n' stdin) :
    (sendCount (programEvents l) = sendCount (lineEvents l)
        ∨ sendCount (lineEvents l) + 2 ≤ sendCount (programEvents l))
      ∨ l.getLast? ≠ some '\n'
        ∧ sendCount (programEvents l) + 1 = sendCount (lineEvents l) := by
  have hline := isLine_of_mem_lines hl
  by_cases hkept : Kept l
  · by_cases hone : l.length = 1
    · right
      rw [programEvents_of_single hline hone, sendCount_lineEvents hkept, hone]
      refine ⟨?_, rfl⟩
      obtain ⟨c, rfl⟩ := List.length_eq_one_iff.mp hone
      intro hlast
      rw [List.getLast?_singleton, Option.some_inj] at hlast
      exact hkept.2 (by rw [hlast])
    · rw [programEvents_of_short hline hkept (not_mem_of_eq heq hl hkept)
        (length_lt_of_eq heq hl hkept) hone]
      exact .inl (.inl rfl)
  · left
    unfold lineEvents
    rw [if_neg hkept]
    rcases sendCount_of_not_kept hline hkept with hdropped | hsent
    · left
      rw [programEvents_of_not_kept hline hkept, List.flatMap_eq_nil_iff.mpr fun p hp =>
        pieceEvents_of_dropped (hdropped p hp)]
    · exact .inr (by simpa [sendCount] using hsent)

/-- The same events have the same characters line by line. -/
theorem sendCount_eq {stdin : List Char} (heq : programEvents stdin = scriptEvents stdin) :
    ∀ l ∈ lines '\n' stdin, sendCount (programEvents l) = sendCount (lineEvents l) := by
  rcases List.eq_nil_or_concat (lines '\n' stdin) with hnil | ⟨init, last, hs⟩
  · rw [hnil]
    exact fun l hl => absurd hl List.not_mem_nil
  · rw [List.concat_eq_append] at hs
    have hinit : ∀ l ∈ init, sendCount (programEvents l) = sendCount (lineEvents l)
        ∨ sendCount (lineEvents l) + 2 ≤ sendCount (programEvents l) := by
      intro l hl
      have hdrop : l ∈ (lines '\n' stdin).dropLast := by
        rw [hs, List.dropLast_concat]
        exact hl
      exact (sendCount_line heq (List.dropLast_subset _ hdrop)).resolve_right fun h =>
        h.1 (getLast?_of_mem_dropLast_lines hdrop)
    have hlast := sendCount_line heq (l := last) (by rw [hs]; simp)
    have htotal := congrArg sendCount heq
    rw [programEvents_eq_flatMap_lines] at htotal
    unfold scriptEvents at htotal
    rw [sendCount_flatMap, sendCount_flatMap, hs, List.map_append, List.map_append,
      List.sum_append, List.sum_append, List.map_singleton, List.map_singleton,
      List.sum_singleton, List.sum_singleton] at htotal
    rw [hs]
    intro l hl
    rcases sum_eq_or_add_two_le hinit with ⟨hall, hsum⟩ | hsum
    · rcases List.mem_append.mp hl with hmem | hmem
      · exact hall l hmem
      · rw [List.mem_singleton.mp hmem]
        omega
    · omega

theorem filtered_of_eq {stdin : List Char} (heq : programEvents stdin = scriptEvents stdin) :
    FilteredAsLines stdin := by
  constructor
  · intro l hl hkept
    refine ⟨not_mem_of_eq heq hl hkept, length_lt_of_eq heq hl hkept, fun hone => ?_⟩
    have hcount := sendCount_eq heq l hl
    rw [programEvents_of_single (isLine_of_mem_lines hl) hone, sendCount_lineEvents hkept,
      hone] at hcount
    exact absurd hcount (by decide)
  · intro l hl hkept
    have hcount := sendCount_eq heq l hl
    refine (sendCount_of_not_kept (isLine_of_mem_lines hl) hkept).resolve_right fun hsent => ?_
    unfold lineEvents at hcount
    rw [if_neg hkept] at hcount
    have hzero : sendCount [] = 0 := rfl
    omega

/-- A script is filtered line by line exactly if each line is sent, or left out,
as it is. -/
theorem script_filter_iff {stdin fd : List Char}
    (h : Answered ((scriptEvents stdin).count .read) (pieces '\n' 80 fd)) :
    (processStdin stdin fd).events = scriptEvents stdin ↔ FilteredAsLines stdin :=
  (events_eq_iff h).trans ⟨filtered_of_eq, programEvents_of_filtered⟩

/-- A comment and a command of two lines. -/
def commandInTwoLines : List Char := ['#', '\n', 'a', ';', '\n', 'b', '\n']

theorem commandInTwoLines_filtered :
    (processStdin commandInTwoLines (['c', '\n'] ++ EOF_LINE)).events
      = scriptEvents commandInTwoLines := by
  have hreply : IsReply ['c', '\n'] := ⟨by decide, by decide, by decide⟩
  have hanswered := answered_of_replies (List.forall_mem_singleton.mpr hreply) []
  have hcount : (scriptEvents commandInTwoLines).count .read = [['c', '\n']].length := by
    decide
  rw [← hcount] at hanswered
  exact (script_filter_iff hanswered).mpr ⟨by decide +kernel, by decide +kernel⟩

/-- A comment that is too long by two characters. -/
def longComment : List Char := '#' :: List.replicate 4094 '-' ++ ['a', '\n']

/-- The end of a comment that is too long is sent as a command. -/
theorem comment_tail_sent :
    (processStdin longComment []).events ≠ scriptEvents longComment := by
  have hline : IsLine '\n' longComment := by
    unfold longComment IsLine
    rw [List.dropLast_append_of_ne_nil (List.cons_ne_nil _ _)]
    refine ⟨List.cons_ne_nil _ _, fun hmem => ?_⟩
    rcases List.mem_append.mp hmem with hmem | hmem
    · rcases List.mem_cons.mp hmem with hmem | hmem
      · exact absurd hmem (by decide)
      · exact absurd (List.eq_of_mem_replicate hmem) (by decide)
    · exact absurd hmem (by decide)
  have hlines : lines '\n' longComment = [longComment] := lines_of_isLine hline
  have hkept : ¬ Kept longComment := fun h => h.1 rfl
  have hscript : scriptEvents longComment = [] := by
    unfold scriptEvents lineEvents
    rw [hlines, List.flatMap_singleton, if_neg hkept]
  have htail : (pieces '\n' MAXLINE longComment).tail = [['a', '\n']] := by
    rw [pieces_line hline (by decide), List.tail_cons]
    unfold longComment
    rw [List.drop_left' (by rw [List.length_cons, List.length_replicate]; rfl)]
    decide
  intro h
  have hfiltered := filtered_of_eq ((events_eq_iff (by rw [hscript]; exact trivial)).mp h)
  have hdropped := hfiltered.left longComment (by rw [hlines]; exact List.mem_cons_self) hkept
    ['a', '\n'] (by rw [htail]; exact List.mem_cons_self)
  exact absurd hdropped (by decide)

end Acq200.Acqcmd
