import Acq200.Acqcmd.Reply

/-!
# A script on standard input

Without a command on its command line `acqcmd` takes commands from standard
input.  It leaves out comments and blank lines, sends the others, and reads the
reply to each, unless the line goes on, that is, ends in a backslash or a
semicolon.  All of these tests are made on what `fgets` puts into `command_line`,
which is a line only if the line is shorter than `MAXLINE`.

A run is the list of its `Event`s.  `events_eq_iff` says that a run that gets
replies makes the events of the pieces of the script, call after call.
-/

namespace Acq200.Acqcmd

open Acq200.Lib

/-! ## The program -/

/-- A character that goes to the device, or the loop that reads a reply. -/
inductive Event where
  | send (c : Char)
  | read
deriving DecidableEq

/-- What `process_stdin` does, prints and returns. -/
structure Session where
  events : List Event
  printed : List Char
  rc : Int

def MAXLINE : Nat := 4096

def ISCOMMENT (cl : List Char) : Bool := cl.head? == some '#'

def ISBLANK (cl : List Char) : Bool := decide ((cstr NUL cl).length ≤ 1)

def iscontinuation (line : List Char) : Bool :=
  let s := cstr NUL line
  let len := s.length
  if 1 < len then
    if s[len - 1]? = some '\n' then
      decide (s[len - 2]? = some '\\') || decide (s[len - 2]? = some ';')
    else false
  else false

/-- `fd` is all that the device will answer. -/
def processStdin (stdin fd : List Char) : Session :=
  match _h : fgets '\n' MAXLINE stdin with
  | none => { events := [], printed := [], rc := 0 }
  | some (commandLine, stdin') =>
    if !ISCOMMENT commandLine && !ISBLANK commandLine then
      let sent := (cstr NUL commandLine).map Event.send
      if iscontinuation commandLine then
        let rest := processStdin stdin' fd
        { rest with events := sent ++ rest.events }
      else
        let reply := readReply (fun _ err => err) 0 0 fd
        if reply.nout = 0 then
          { events := sent ++ [.read], printed := reply.printed, rc := 1 }
        else
          let rest := processStdin stdin' reply.rest
          { events := sent ++ .read :: rest.events
            printed := reply.printed ++ rest.printed
            rc := rest.rc }
    else processStdin stdin' fd
termination_by stdin.length
decreasing_by
  · exact (fgets_eq_some (by decide) _h).2.1
  · exact (fgets_eq_some (by decide) _h).2.1
  · exact (fgets_eq_some (by decide) _h).2.1

/-! ## The script as lines -/

/-- Neither a comment nor empty. -/
def Kept (l : List Char) : Prop := l.head? ≠ some '#' ∧ l ≠ ['\n']

instance (l : List Char) : Decidable (Kept l) :=
  inferInstanceAs (Decidable (l.head? ≠ some '#' ∧ l ≠ ['\n']))

/-- A backslash or a semicolon before the newline. -/
def Continued (l : List Char) : Prop := ['\\', '\n'] <:+ l ∨ [';', '\n'] <:+ l

instance (l : List Char) : Decidable (Continued l) :=
  inferInstanceAs (Decidable (['\\', '\n'] <:+ l ∨ [';', '\n'] <:+ l))

/-- The text goes out, and a reply is read if it is the end of a command. -/
def block (text : List Char) (continued : Bool) : List Event :=
  text.map Event.send ++ if continued then [] else [.read]

/-- What a line of a script asks for. -/
def lineEvents (l : List Char) : List Event :=
  if Kept l then block l (decide (Continued l)) else []

/-- What a script asks for. -/
def scriptEvents (stdin : List Char) : List Event := (lines '\n' stdin).flatMap lineEvents

/-- What the program makes of a piece. -/
def pieceEvents (p : List Char) : List Event :=
  if !ISCOMMENT p && !ISBLANK p then block (cstr NUL p) (iscontinuation p) else []

/-- What the program makes of a script, if no reply stops it. -/
def programEvents (stdin : List Char) : List Event :=
  (pieces '\n' MAXLINE stdin).flatMap pieceEvents

/-- The first `n` replies that can be read are not empty and end in a line
`EOF`. -/
def Answered : Nat → List (List Char) → Prop
  | 0, _ => True
  | n + 1, ps => ∃ reply rest, ps = reply ++ EOF_LINE :: rest ∧ EOF_LINE ∉ reply
      ∧ BitVec.ofNat 32 reply.length ≠ 0 ∧ Answered n rest

/-! ## Replies -/

variable {note : List Char → Int → Int} {err : Int} {nout : BitVec 32}

/-- Reading goes on after the line `EOF`. -/
theorem pieces_readReply_rest (fd : List Char) :
    pieces '\n' 80 (readReply note err nout fd).rest
      = ((pieces '\n' 80 fd).dropWhile fun p => decide (p ≠ EOF_LINE)).tail := by
  fun_induction readReply note err nout fd with
  | case1 err nout fd h =>
    rw [fgets_eq_none.mp h, pieces_nil]
    rfl
  | case2 err nout fd reply rest h heof =>
    have hline : IsLine '\n' reply := isLine_of_fgets (by decide) h
    rw [(fgets_eq_some (by decide) h).2.2, (STREQ_EOF_LINE hline).mp heof,
      List.dropWhile_cons_of_neg (by simp)]
    rfl
  | case3 err nout fd reply rest h heof r ih =>
    have hline : IsLine '\n' reply := isLine_of_fgets (by decide) h
    have hne : reply ≠ EOF_LINE := fun heq => heof ((STREQ_EOF_LINE hline).mpr heq)
    rw [(fgets_eq_some (by decide) h).2.2, List.dropWhile_cons_of_pos (by simp [hne])]
    exact ih

/-- A reply that ends in a line `EOF` is read up to there. -/
theorem readReply_of_answer {fd : List Char} {reply rest : List (List Char)}
    (hfd : pieces '\n' 80 fd = reply ++ EOF_LINE :: rest) (hreply : EOF_LINE ∉ reply) :
    (readReply note err nout fd).nout = nout + BitVec.ofNat 32 reply.length
      ∧ pieces '\n' 80 (readReply note err nout fd).rest = rest := by
  have hall : ∀ p ∈ reply, decide (p ≠ EOF_LINE) = true := by
    intro p hp
    exact decide_eq_true fun heq => hreply (heq ▸ hp)
  constructor
  · rw [readReply_nout]
    unfold replyPieces
    rw [hfd, List.takeWhile_append_of_pos hall, List.takeWhile_cons_of_neg (by simp),
      List.append_nil]
  · rw [pieces_readReply_rest, hfd, List.dropWhile_append_of_pos hall,
      List.dropWhile_cons_of_neg (by simp), List.tail_cons]

/-- A reply as the device sends it: some lines, not too long, and none of them
`EOF`. -/
structure IsReply (text : List Char) : Prop where
  ends : text.getLast? = some '\n'
  lines_ok : ∀ l ∈ lines '\n' text, l ≠ EOF_LINE ∧ l.length < 80
  count_lt : (lines '\n' text).length < 4294967296

/-- Replies that each end in a line `EOF` are answers, whatever follows them. -/
theorem answered_of_replies {replies : List (List Char)} (h : ∀ text ∈ replies, IsReply text)
    (more : List Char) :
    Answered replies.length
      (pieces '\n' 80 ((replies.flatMap fun text => text ++ EOF_LINE) ++ more)) := by
  induction replies with
  | nil => exact trivial
  | cons text replies ih =>
    have htext := h text List.mem_cons_self
    have hlines : pieces '\n' 80 text = lines '\n' text :=
      pieces_eq_lines fun l hl => (htext.lines_ok l hl).2
    refine ⟨pieces '\n' 80 text, _, ?_, ?_, ?_, ih fun t ht => h t (List.mem_cons_of_mem _ ht)⟩
    · rw [List.flatMap_cons, List.append_assoc, List.append_assoc, pieces_append htext.ends,
        pieces_append (show EOF_LINE.getLast? = some '\n' by decide),
        pieces_short isLine_EOF_LINE (by decide), List.singleton_append]
    · rw [hlines]
      exact fun hmem => (htext.lines_ok _ hmem).1 rfl
    · rw [hlines]
      refine ofNat_length_ne_zero (lines_ne_nil ?_) htext.count_lt
      rintro rfl
      exact absurd htext.ends (by decide)

/-! ## Runs -/

theorem programEvents_of_fgets {stdin p rest : List Char}
    (h : fgets '\n' MAXLINE stdin = some (p, rest)) :
    programEvents stdin = pieceEvents p ++ programEvents rest := by
  unfold programEvents
  rw [(fgets_eq_some (by decide) h).2.2, List.flatMap_cons]

theorem pieceEvents_continued {p : List Char} (hkept : (!ISCOMMENT p && !ISBLANK p) = true)
    (hcont : iscontinuation p = true) : pieceEvents p = (cstr NUL p).map .send := by
  unfold pieceEvents block
  rw [if_pos hkept, if_pos hcont, List.append_nil]

theorem pieceEvents_command {p : List Char} (hkept : (!ISCOMMENT p && !ISBLANK p) = true)
    (hcont : ¬ iscontinuation p = true) :
    pieceEvents p = (cstr NUL p).map .send ++ [.read] := by
  unfold pieceEvents block
  rw [if_pos hkept, if_neg hcont]

theorem pieceEvents_dropped {p : List Char}
    (hdropped : ¬ (!ISCOMMENT p && !ISBLANK p) = true) : pieceEvents p = [] := by
  unfold pieceEvents
  rw [if_neg hdropped]

/-- A run may stop early, but does not do anything else. -/
theorem events_isPrefix (stdin fd : List Char) :
    (processStdin stdin fd).events <+: programEvents stdin := by
  fun_induction processStdin stdin fd with
  | case1 fd stdin h => exact List.nil_prefix
  | case2 stdin fd p stdin' h hkept sent hcont rest ih =>
    rw [programEvents_of_fgets h, pieceEvents_continued hkept hcont]
    exact (List.prefix_append_right_inj _).mpr ih
  | case3 stdin fd p stdin' h hkept sent hcont reply hnout =>
    rw [programEvents_of_fgets h, pieceEvents_command hkept hcont]
    exact List.prefix_append _ _
  | case4 stdin fd p stdin' h hkept sent hcont reply hnout rest ih =>
    rw [programEvents_of_fgets h, pieceEvents_command hkept hcont, List.append_assoc]
    exact (List.prefix_append_right_inj _).mpr (List.cons_prefix_cons.mpr ⟨rfl, ih⟩)
  | case5 stdin fd p stdin' h hdropped ih =>
    rw [programEvents_of_fgets h, pieceEvents_dropped hdropped]
    exact ih

theorem count_read_send (w : List Char) : (w.map Event.send).count .read = 0 := by
  induction w with
  | nil => rfl
  | cons c w ih =>
    rw [List.map_cons, List.count_cons_of_ne Event.noConfusion, ih]

/-- A run that gets `n` replies comes to its end, or asks for more. -/
theorem events_of_answered (stdin fd : List Char) :
    ∀ n, Answered n (pieces '\n' 80 fd) →
      (processStdin stdin fd).events = programEvents stdin
        ∨ n < (processStdin stdin fd).events.count .read := by
  fun_induction processStdin stdin fd with
  | case1 fd stdin hget =>
    intro n h
    rw [fgets_eq_none.mp hget]
    exact .inl rfl
  | case2 stdin fd p stdin' hget hkept sent hcont rest ih =>
    intro n h
    rw [programEvents_of_fgets hget, pieceEvents_continued hkept hcont]
    show sent ++ rest.events = _ ∨ n < (sent ++ rest.events).count .read
    rw [List.count_append, count_read_send, Nat.zero_add]
    exact (ih n h).imp_left (congrArg (sent ++ ·))
  | case3 stdin fd p stdin' hget hkept sent hcont reply hnout =>
    intro n h
    cases n with
    | zero =>
      right
      show 0 < (sent ++ [Event.read]).count .read
      rw [List.count_append, count_read_send]
      exact Nat.succ_pos 0
    | succ n =>
      obtain ⟨text, more, hfd, htext, hcount, -⟩ := h
      have hread : reply.nout = 0 + BitVec.ofNat 32 text.length :=
        (readReply_of_answer hfd htext).1
      exact absurd (hread.symm.trans hnout) (by simpa using hcount)
  | case4 stdin fd p stdin' hget hkept sent hcont reply hnout rest ih =>
    intro n h
    rw [programEvents_of_fgets hget, pieceEvents_command hkept hcont]
    show sent ++ .read :: rest.events = _ ∨ n < (sent ++ .read :: rest.events).count .read
    rw [List.count_append, count_read_send, Nat.zero_add, List.count_cons_self]
    cases n with
    | zero => exact .inr (Nat.succ_pos _)
    | succ n =>
      obtain ⟨text, more, hfd, htext, -, hmore⟩ := h
      have hrest : pieces '\n' 80 reply.rest = more := (readReply_of_answer hfd htext).2
      rw [← hrest] at hmore
      rcases ih n hmore with heq | hlt
      · left
        rw [heq, List.append_assoc]
        rfl
      · exact .inr (Nat.succ_lt_succ hlt)
  | case5 stdin fd p stdin' hget hdropped ih =>
    rw [programEvents_of_fgets hget, pieceEvents_dropped hdropped]
    exact ih

/-- A run that gets the replies that the script asks for does what the script
asks for exactly if the pieces of the script say the same as its lines. -/
theorem events_eq_iff {stdin fd : List Char}
    (h : Answered ((scriptEvents stdin).count .read) (pieces '\n' 80 fd)) :
    (processStdin stdin fd).events = scriptEvents stdin
      ↔ programEvents stdin = scriptEvents stdin := by
  have hpre := events_isPrefix stdin fd
  rcases events_of_answered stdin fd _ h with heq | hlt
  · rw [heq]
  · have hle := hpre.sublist.count_le Event.read
    constructor
    · intro hrun
      rw [hrun] at hlt
      exact absurd hlt (Nat.lt_irrefl _)
    · intro hprogram
      rw [hprogram] at hle
      exact absurd hlt (Nat.not_lt.mpr hle)

end Acq200.Acqcmd
