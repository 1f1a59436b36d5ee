import Mathlib.Data.BitVec
import Acq200.Lib.Fgets

/-!
# The reply to a command

`acqcmd` sends a command to the device and prints what comes back, up to a line
`EOF`.  It reads with `fgets` into a buffer of 80 characters and looks at each
piece as if it were a line.

`reply_framing_iff` says for which replies that makes no difference: a line
longer than the buffer must not go on with a piece that looks like the end or
like the first error, no NUL may come, and the count of the pieces must not be
zero when there is a reply.  It is zero for a reply that is only the line `EOF`,
and such a reply is taken for none.
-/

namespace Acq200.Acqcmd

open Acq200.Lib

/-! ## The program -/

/-- What ends a C string. -/
def NUL : Char := Char.ofNat 0

def EOF_LINE : List Char := ['E', 'O', 'F', '\n']

def ERROR_STRING : List Char := ['A', 'C', 'Q', '3', '2', ':', 'E', 'R', 'R', 'O', 'R']

def ERROR_LEN : Nat := ERROR_STRING.length

/-- `strcmp` finds no difference. -/
def STREQ (s1 s2 : List Char) : Bool := cstr NUL s1 == cstr NUL s2

/-- `strncmp` finds no difference. -/
def STREQN (s1 s2 : List Char) (n : Nat) : Bool :=
  (cstr NUL s1).take n == (cstr NUL s2).take n

/-- How a loop that reads a reply ends. -/
structure ReplyRead where
  printed : List Char
  nout : BitVec 32
  err : Int
  rest : List Char

/-- The loop over the pieces of a reply.  `note` is what a piece does to `err`. -/
def readReply (note : List Char → Int → Int) (err : Int) (nout : BitVec 32) (fd : List Char) :
    ReplyRead :=
  match h : fgets '\n' 80 fd with
  | none => { printed := [], nout := nout, err := err, rest := [] }
  | some (reply, rest) =>
    if STREQ reply EOF_LINE then
      { printed := [], nout := nout, err := note reply err, rest := rest }
    else
      let r := readReply note (note reply err) (nout + 1) rest
      { r with printed := cstr NUL reply ++ r.printed }
termination_by fd.length
decreasing_by exact (fgets_eq_some (by decide) h).2.1

/-- What `process_command` sends and prints, and its return code. -/
structure CommandRun where
  sent : List Char
  printed : List Char
  rc : Int
deriving DecidableEq

/-- `err` after a piece of a reply to a command. -/
def noteError (reply : List Char) (err : Int) : Int :=
  if STREQN reply ERROR_STRING ERROR_LEN then 1 else err

/-- The words go out with a blank after each.  `fd` is all that the device will
answer. -/
def processCommand (words : List (List Char)) (fd : List Char) : CommandRun :=
  let r := readReply noteError 0 0 fd
  { sent := words.flatMap (· ++ [' ']) ++ ['\n']
    printed := r.printed
    rc := if r.nout = 0 then -1 else r.err }

/-! ## The reply as lines -/

/-- The lines of the reply before the first that is `EOF`. -/
def replyLines (fd : List Char) : List (List Char) :=
  (lines '\n' fd).takeWhile fun l => decide (l ≠ EOF_LINE)

/-- The pieces that the loop gets before the first that is `EOF`. -/
def replyPieces (fd : List Char) : List (List Char) :=
  (pieces '\n' 80 fd).takeWhile fun p => decide (p ≠ EOF_LINE)

/-- What a run does with a reply seen as lines: it prints the text before the
line `EOF` and tells an error, no reply and success apart. -/
structure Framed (run : CommandRun) (fd : List Char) : Prop where
  printed : run.printed = (replyLines fd).flatten
  error : run.rc = 1 ↔ ∃ l ∈ replyLines fd, ERROR_STRING <+: l
  noReply : run.rc = -1 ↔ fd = []
  success : run.rc = 0 ↔ (¬ ∃ l ∈ replyLines fd, ERROR_STRING <+: l) ∧ fd ≠ []

/-- The pieces of the reply tell as much as its lines. -/
structure SeenAsLines (fd : List Char) : Prop where
  noNul : NUL ∉ (replyLines fd).flatten
  noEof : ∀ l ∈ replyLines fd, EOF_LINE ∉ (pieces '\n' 80 l).tail
  noError : ∀ l ∈ replyLines fd, ∀ p ∈ (pieces '\n' 80 l).tail, ERROR_STRING <+: p →
    ∃ first ∈ replyLines fd, ERROR_STRING <+: first
  counted : fd ≠ [] →
    BitVec.ofNat 32 ((replyLines fd).flatMap (pieces '\n' 80)).length ≠ 0

/-! ## The loop and the pieces -/

theorem isLine_EOF_LINE : IsLine '\n' EOF_LINE := by
  unfold IsLine
  decide

theorem STREQ_EOF_LINE {p : List Char} (hp : IsLine '\n' p) :
    STREQ p EOF_LINE = true ↔ p = EOF_LINE := by
  have hself : cstr NUL EOF_LINE = EOF_LINE := by decide
  unfold STREQ
  rw [hself, beq_iff_eq]
  exact cstr_eq_iff hp.2 (by decide) (by decide)

theorem STREQN_ERROR_STRING (p : List Char) :
    STREQN p ERROR_STRING ERROR_LEN = true ↔ ERROR_STRING <+: p := by
  have hself : (cstr NUL ERROR_STRING).take ERROR_LEN = ERROR_STRING := by decide
  unfold STREQN
  rw [hself, beq_iff_eq]
  constructor
  · intro h
    rw [← h]
    exact (List.take_prefix _ _).trans (cstr_isPrefix NUL p)
  · rintro ⟨t, rfl⟩
    have hall : ∀ c ∈ ERROR_STRING, decide (c ≠ NUL) = true := by
      rw [← List.all_eq_true]
      decide
    unfold cstr ERROR_LEN
    rw [List.takeWhile_append_of_pos hall, List.take_left]

variable {note : List Char → Int → Int} {err : Int} {nout : BitVec 32}

theorem replyPieces_nil : replyPieces [] = [] := rfl

/-- A piece is the first of the reply, unless it is `EOF`. -/
theorem replyPieces_of_fgets {fd reply rest : List Char}
    (h : fgets '\n' 80 fd = some (reply, rest)) :
    replyPieces fd = if STREQ reply EOF_LINE then [] else reply :: replyPieces rest := by
  have hpieces := (fgets_eq_some (show 2 ≤ 80 by decide) h).2.2
  have hline : IsLine '\n' reply := isLine_of_fgets (by decide) h
  unfold replyPieces
  rw [hpieces]
  by_cases heof : reply = EOF_LINE
  · rw [if_pos ((STREQ_EOF_LINE hline).mpr heof)]
    exact List.takeWhile_cons_of_neg (by simp [heof])
  · rw [if_neg (fun h => heof ((STREQ_EOF_LINE hline).mp h))]
    exact List.takeWhile_cons_of_pos (by simp [heof])

theorem readReply_printed (fd : List Char) :
    (readReply note err nout fd).printed = (replyPieces fd).flatMap (cstr NUL) := by
  fun_induction readReply note err nout fd with
  | case1 err nout fd h =>
    rw [fgets_eq_none.mp h, replyPieces_nil, List.flatMap_nil]
  | case2 err nout fd reply rest h heof =>
    rw [replyPieces_of_fgets h, if_pos heof, List.flatMap_nil]
  | case3 err nout fd reply rest h heof r ih =>
    rw [replyPieces_of_fgets h, if_neg heof, List.flatMap_cons, ← ih]

theorem readReply_nout (fd : List Char) :
    (readReply note err nout fd).nout = nout + BitVec.ofNat 32 (replyPieces fd).length := by
  fun_induction readReply note err nout fd with
  | case1 err nout fd h =>
    rw [fgets_eq_none.mp h, replyPieces_nil]
    simp
  | case2 err nout fd reply rest h heof =>
    rw [replyPieces_of_fgets h, if_pos heof]
    simp
  | case3 err nout fd reply rest h heof r ih =>
    rw [replyPieces_of_fgets h, if_neg heof, List.length_cons]
    show (readReply note (note reply err) (nout + 1) rest).nout = _
    rw [ih, Nat.add_comm (replyPieces rest).length, BitVec.ofNat_add, ← BitVec.add_assoc]
    rfl

theorem readReply_err (fd : List Char) :
    (readReply noteError err nout fd).err
      = if ∃ p ∈ replyPieces fd, ERROR_STRING <+: p then 1 else err := by
  fun_induction readReply noteError err nout fd with
  | case1 err nout fd h =>
    rw [fgets_eq_none.mp h, replyPieces_nil]
    simp
  | case2 err nout fd reply rest h heof =>
    have hline : IsLine '\n' reply := isLine_of_fgets (by decide) h
    have hnot : ¬ STREQN reply ERROR_STRING ERROR_LEN = true := by
      rw [(STREQ_EOF_LINE hline).mp heof]
      decide
    rw [replyPieces_of_fgets h, if_pos heof]
    simp [noteError, hnot]
  | case3 err nout fd reply rest h heof r ih =>
    rw [replyPieces_of_fgets h, if_neg heof]
    show (readReply noteError (noteError reply err) (nout + 1) rest).err = _
    rw [ih]
    unfold noteError
    simp only [STREQN_ERROR_STRING, List.mem_cons, exists_eq_or_imp]
    by_cases hfirst : ERROR_STRING <+: reply
    · simp [hfirst]
    · simp [hfirst]

/-- A count of less than `2 ^ 32` does not wrap. -/
theorem ofNat_length_ne_zero {ps : List (List Char)} (hps : ps ≠ [])
    (hlt : ps.length < 4294967296) : BitVec.ofNat 32 ps.length ≠ 0 := by
  intro h
  have hzero := congrArg BitVec.toNat h
  have hpos := List.length_pos_of_ne_nil hps
  rw [BitVec.toNat_ofNat, Nat.mod_eq_of_lt hlt] at hzero
  change ps.length = 0 at hzero
  omega

/-! ## The pieces and the lines -/

/-- Cutting at the line `EOF` before or after the lines are cut into pieces makes
no difference to the pieces before it. -/
theorem replyPieces_eq (fd : List Char) :
    replyPieces fd = ((replyLines fd).flatMap (pieces '\n' 80)).takeWhile
      fun p => decide (p ≠ EOF_LINE) := by
  have hafter : ∀ ls : List (List Char), ((ls.dropWhile fun l => decide (l ≠ EOF_LINE)).flatMap
      (pieces '\n' 80)).takeWhile (fun p => decide (p ≠ EOF_LINE)) = [] := by
    intro ls
    induction ls with
    | nil => rfl
    | cons l ls ih =>
      by_cases hl : l = EOF_LINE
      · rw [List.dropWhile_cons_of_neg (by simp [hl]), List.flatMap_cons, hl,
          pieces_short isLine_EOF_LINE (by decide)]
        exact List.takeWhile_cons_of_neg (by simp)
      · rw [List.dropWhile_cons_of_pos (by simp [hl]), ih]
  unfold replyPieces replyLines
  rw [pieces_eq_flatMap_lines]
  have hsplit := List.takeWhile_append_dropWhile (p := fun l => decide (l ≠ EOF_LINE))
    (l := lines '\n' fd)
  rw [← hsplit, List.flatMap_append, List.takeWhile_append, hsplit, hafter, List.append_nil]
  split
  · next hlength => exact ((List.takeWhile_prefix _).eq_of_length hlength).symm
  · rfl

/-- The pieces of the lines before the line `EOF`. -/
def linePieces (fd : List Char) : List (List Char) :=
  (replyLines fd).flatMap (pieces '\n' 80)

theorem flatten_linePieces (fd : List Char) :
    (linePieces fd).flatten = (replyLines fd).flatten := by
  unfold linePieces
  rw [List.flatMap_def, List.flatten_flatten, List.map_map]
  congr 1
  exact List.map_id'' (fun l => flatten_pieces '\n' 80 l) _

theorem isLine_of_mem_linePieces {fd p : List Char} (hp : p ∈ linePieces fd) :
    IsLine '\n' p := by
  obtain ⟨l, -, hl⟩ := List.mem_flatMap.mp hp
  exact isLine_of_mem_pieces hl

theorem isLine_of_mem_replyLines {fd l : List Char} (hl : l ∈ replyLines fd) :
    IsLine '\n' l :=
  isLine_of_mem_lines ((List.takeWhile_prefix _).subset hl)

/-- A piece of a line is its beginning or comes later. -/
theorem mem_linePieces {fd p : List Char} :
    p ∈ linePieces fd
      ↔ ∃ l ∈ replyLines fd, p = l.take 79 ∨ p ∈ (pieces '\n' 80 l).tail := by
  unfold linePieces
  rw [List.mem_flatMap]
  refine exists_congr fun l => and_congr_right fun hl => ?_
  rw [pieces_line (isLine_of_mem_replyLines hl) (by decide), List.mem_cons, List.tail_cons]

theorem ne_EOF_LINE_of_mem {fd l : List Char} (hl : l ∈ replyLines fd) : l ≠ EOF_LINE := by
  unfold replyLines at hl
  exact of_decide_eq_true (List.mem_takeWhile_imp (p := fun l => decide (l ≠ EOF_LINE)) hl)

theorem EOF_LINE_mem_linePieces {fd : List Char} :
    EOF_LINE ∈ linePieces fd
      ↔ ∃ l ∈ replyLines fd, EOF_LINE ∈ (pieces '\n' 80 l).tail := by
  rw [mem_linePieces]
  refine exists_congr fun l => and_congr_right fun hl => or_iff_right ?_
  intro h
  have hlength := congrArg List.length h
  rw [List.length_take] at hlength
  have hshort : EOF_LINE.length = 4 := rfl
  rw [List.take_of_length_le (by omega)] at h
  exact ne_EOF_LINE_of_mem hl h.symm

/-- An error in a piece is an error in the line, or a later piece looks like one. -/
theorem exists_error_linePieces {fd : List Char} :
    (∃ p ∈ linePieces fd, ERROR_STRING <+: p)
      ↔ (∃ l ∈ replyLines fd, ERROR_STRING <+: l)
        ∨ ∃ l ∈ replyLines fd, ∃ p ∈ (pieces '\n' 80 l).tail, ERROR_STRING <+: p := by
  have htake : ∀ l : List Char, ERROR_STRING <+: l.take 79 ↔ ERROR_STRING <+: l := by
    intro l
    rw [List.prefix_take_iff]
    exact and_iff_left (by decide)
  constructor
  · rintro ⟨p, hp, herror⟩
    obtain ⟨l, hl, rfl | htail⟩ := mem_linePieces.mp hp
    · exact .inl ⟨l, hl, (htake l).mp herror⟩
    · exact .inr ⟨l, hl, p, htail, herror⟩
  · rintro (⟨l, hl, herror⟩ | ⟨l, hl, p, htail, herror⟩)
    · exact ⟨l.take 79, mem_linePieces.mpr ⟨l, hl, .inl rfl⟩, (htake l).mpr herror⟩
    · exact ⟨p, mem_linePieces.mpr ⟨l, hl, .inr htail⟩, herror⟩

/-! ## What is printed -/

theorem replyPieces_isPrefix (fd : List Char) : replyPieces fd <+: linePieces fd := by
  rw [replyPieces_eq]
  exact List.takeWhile_prefix _

theorem replyPieces_eq_linePieces {fd : List Char} :
    replyPieces fd = linePieces fd ↔ EOF_LINE ∉ linePieces fd := by
  rw [replyPieces_eq]
  unfold linePieces
  rw [List.takeWhile_eq_self_iff]
  constructor
  · intro h hmem
    exact of_decide_eq_true (h EOF_LINE hmem) rfl
  · intro h p hp
    exact decide_eq_true fun heq => h (heq ▸ hp)

/-- All of the text is printed only if all of its pieces are. -/
theorem printed_iff (fd : List Char) :
    (replyPieces fd).flatMap (cstr NUL) = (replyLines fd).flatten
      ↔ NUL ∉ (replyLines fd).flatten ∧ EOF_LINE ∉ linePieces fd := by
  rw [← flatten_linePieces, ← replyPieces_eq_linePieces]
  constructor
  · intro h
    have hnul : NUL ∉ (linePieces fd).flatten := by
      rw [← h]
      exact not_mem_flatMap_cstr NUL _
    refine ⟨hnul, ?_⟩
    rw [flatMap_cstr fun hmem => hnul ((replyPieces_isPrefix fd).flatten.subset hmem)] at h
    exact eq_of_prefix_of_flatten (replyPieces_isPrefix fd)
      (fun p hp => isLine_of_mem_linePieces hp) h
  · rintro ⟨hnul, heq⟩
    rw [heq, flatMap_cstr hnul]

/-! ## Framing -/

theorem processCommand_rc (words : List (List Char)) (fd : List Char) :
    (processCommand words fd).rc
      = if BitVec.ofNat 32 (replyPieces fd).length = 0 then -1
        else if ∃ p ∈ replyPieces fd, ERROR_STRING <+: p then 1 else 0 := by
  show (if (readReply noteError 0 0 fd).nout = 0 then -1 else (readReply noteError 0 0 fd).err) = _
  rw [readReply_nout, readReply_err, show (0 : BitVec 32) = 0#32 from rfl, BitVec.zero_add]

theorem replyLines_nil : replyLines [] = [] := rfl

theorem processCommand_printed (words : List (List Char)) (fd : List Char) :
    (processCommand words fd).printed = (replyPieces fd).flatMap (cstr NUL) :=
  readReply_printed fd

theorem seenAsLines_of_framed {words : List (List Char)} {fd : List Char}
    (h : Framed (processCommand words fd) fd) : SeenAsLines fd := by
  have hrc := processCommand_rc words fd
  obtain ⟨hnul, heof⟩ :=
    (printed_iff fd).mp ((processCommand_printed words fd).symm.trans h.printed)
  rw [replyPieces_eq_linePieces.mpr heof] at hrc
  have hcounted : fd ≠ [] → BitVec.ofNat 32 (linePieces fd).length ≠ 0 := by
    intro hfd hzero
    rw [if_pos hzero] at hrc
    exact hfd (h.noReply.mp hrc)
  refine ⟨hnul, ?_, ?_, hcounted⟩
  · intro l hl hmem
    exact heof (EOF_LINE_mem_linePieces.mpr ⟨l, hl, hmem⟩)
  · intro l hl p hp herror
    have hfd : fd ≠ [] := by
      rintro rfl
      rw [replyLines_nil] at hl
      exact absurd hl List.not_mem_nil
    rw [if_neg (hcounted hfd),
      if_pos (exists_error_linePieces.mpr (.inr ⟨l, hl, p, hp, herror⟩))] at hrc
    exact h.error.mp hrc

theorem SeenAsLines.not_mem_linePieces {fd : List Char} (h : SeenAsLines fd) :
    EOF_LINE ∉ linePieces fd := by
  rw [EOF_LINE_mem_linePieces]
  rintro ⟨l, hl, hmem⟩
  exact h.noEof l hl hmem

/-- What a reply whose pieces tell as much as its lines makes of the return code. -/
theorem SeenAsLines.rc {fd : List Char} (h : SeenAsLines fd) (words : List (List Char)) :
    (processCommand words fd).rc
      = if fd = [] then -1 else if ∃ l ∈ replyLines fd, ERROR_STRING <+: l then 1 else 0 := by
  have heof := h.not_mem_linePieces
  have herror : (∃ p ∈ linePieces fd, ERROR_STRING <+: p)
      ↔ ∃ l ∈ replyLines fd, ERROR_STRING <+: l := by
    rw [exists_error_linePieces]
    refine or_iff_left_of_imp ?_
    rintro ⟨l, hl, p, hp, hbegins⟩
    exact h.noError l hl p hp hbegins
  have hzero : BitVec.ofNat 32 (linePieces fd).length = 0 ↔ fd = [] := by
    refine ⟨fun hzero => by_contra fun hfd => h.counted hfd hzero, ?_⟩
    rintro rfl
    rfl
  rw [processCommand_rc, replyPieces_eq_linePieces.mpr heof]
  simp only [hzero, herror]

theorem framed_of_seenAsLines {fd : List Char} (h : SeenAsLines fd)
    (words : List (List Char)) : Framed (processCommand words fd) fd := by
  have heof := h.not_mem_linePieces
  have hprinted := (processCommand_printed words fd).trans ((printed_iff fd).mpr ⟨h.noNul, heof⟩)
  refine ⟨hprinted, ?_, ?_, ?_⟩
  all_goals
    rw [h.rc words]
    by_cases hfd : fd = []
    · simp [hfd, replyLines_nil]
    · by_cases hline : ∃ l ∈ replyLines fd, ERROR_STRING <+: l
      · simp [hfd, hline]
      · simp [hfd, hline]

/-- A reply is framed as its lines say exactly if its pieces say the same. -/
theorem reply_framing_iff (words : List (List Char)) (fd : List Char) :
    Framed (processCommand words fd) fd ↔ SeenAsLines fd :=
  ⟨seenAsLines_of_framed, fun h => framed_of_seenAsLines h words⟩

/-- A reply to `getState` that is only the line `EOF` is taken for none. -/
theorem bare_eof_is_no_reply :
    ¬ Framed (processCommand [['g', 'e', 't', 'S', 't', 'a', 't', 'e']] EOF_LINE) EOF_LINE := by
  intro h
  have hrc : (processCommand [['g', 'e', 't', 'S', 't', 'a', 't', 'e']] EOF_LINE).rc = -1 := by
    rw [processCommand_rc]
    decide
  exact absurd (h.noReply.mp hrc) (by decide)

/-- Short lines, of which the first is not `EOF`, are seen as they are. -/
theorem seenAsLines_of_short {fd : List Char} (hnul : NUL ∉ fd)
    (hshort : ∀ l ∈ replyLines fd, l.length < 80) (hlines : replyLines fd = [] → fd = [])
    (hcount : (replyLines fd).length < 4294967296) : SeenAsLines fd := by
  have htail : ∀ l ∈ replyLines fd, (pieces '\n' 80 l).tail = [] := by
    intro l hl
    rw [pieces_short (isLine_of_mem_replyLines hl) (hshort l hl)]
    rfl
  have hflat : (replyLines fd).flatten <+: fd := by
    have hpre := (List.takeWhile_prefix (p := fun l => decide (l ≠ EOF_LINE))
      (l := lines '\n' fd)).flatten
    rwa [flatten_lines] at hpre
  refine ⟨fun h => hnul (hflat.subset h), ?_, ?_, ?_⟩
  · intro l hl
    rw [htail l hl]
    exact List.not_mem_nil
  · intro l hl p hp
    rw [htail l hl] at hp
    exact absurd hp List.not_mem_nil
  · intro hfd
    rw [flatMap_pieces_of_short (fun l hl => isLine_of_mem_replyLines hl) hshort]
    exact ofNat_length_ne_zero (fun h => hfd (hlines h)) hcount

end Acq200.Acqcmd
