import Acq200.Acqcmd.Reply

/-!
# Polling a state

With `--while` or `--until`, `acqcmd` sends a command over and over and looks
for the words in what comes back.  On a socket it reads without blocking, up to
a piece with `EOF` in it, and a read that finds nothing yet leaves the piece
before it in `reply`, where it is looked at again.

At the start of a round that piece is the end of the answer before, so the round
is over before the new answer is there.  `poll_answers_iff` says when this does
harm.  If no read fails right after an end of an answer in which the `--while`
word does not occur, the poll returns on the first answer that calls for it, with
the value that this answer calls for, and goes on while there is none.  If one
does, and the poll has returned, no answer had called for it.  A poll with
`--until` alone, and a poll of a device, are always right.
-/

namespace Acq200.Acqcmd

open Acq200.Lib

/-! ## The program -/

/-- `strstr` finds the word. -/
def strstr (haystack needle : List Char) : Bool :=
  decide (cstr NUL needle <:+: cstr NUL haystack)

def EOF_MARK : List Char := ['E', 'O', 'F']

/-- What `do_poll` is given: whether the connection is a socket, the command, and
the words of `--while` and `--until`. -/
structure Poll where
  sock : Bool
  command : Option (List Char)
  doWhile : Option (List Char)
  doUntil : Option (List Char)

namespace Poll

/-- The command that is sent in each round. -/
def sent (poll : Poll) : List Char :=
  poll.command.getD ['g', 'e', 't', 'S', 't', 'a', 't', 'e'] ++ ['\n']

/-- One of the words is wanted and occurs in the piece. -/
def finds (word : Option (List Char)) (reply : List Char) : Bool := word.any (strstr reply)

/-- The `if` at the end of a round.  There is no value when the poll goes on. -/
def verdict (poll : Poll) (foundWhile foundUntil : Bool) : Option Int :=
  if foundUntil then some 0
  else if poll.doUntil.isNone && !foundWhile then some 0
  else if poll.doWhile.isSome && foundWhile || poll.doWhile.isNone then none
  else some (-1)

/-- The piece ends the round.  A device is read once. -/
def endsRound (poll : Poll) (reply : List Char) : Bool := !poll.sock || strstr reply EOF_MARK

/-- What the poll has sent and returned, and the reads that it has not made. -/
structure Run where
  sent : List Char
  rc : Int
  unread : List (Option (List Char))

/-- The rest of a round, and the rounds after it.  The list holds what the calls of
`fgets` will find, with `none` for a call that fails and leaves `reply` as it is.
There is no run when the reads do not suffice. -/
def rounds (poll : Poll) (reply : List Char) (foundWhile foundUntil : Bool) :
    List (Option (List Char)) → Option Run
  | [] => none
  | read :: reads =>
    let reply := read.getD reply
    let foundWhile := foundWhile || finds poll.doWhile reply
    let foundUntil := foundUntil || finds poll.doUntil reply
    if poll.endsRound reply then
      match poll.verdict foundWhile foundUntil with
      | some rc => some ⟨[], rc, reads⟩
      | none =>
        (poll.rounds reply false false reads).map fun run =>
          { run with sent := poll.sent ++ run.sent }
    else poll.rounds reply foundWhile foundUntil reads

/-- `do_poll`.  The buffer holds `junk` before the first read. -/
def doPoll (poll : Poll) (junk : List Char) (reads : List (Option (List Char))) : Option Run :=
  (poll.rounds junk false false reads).map fun run => { run with sent := poll.sent ++ run.sent }

/-! ## What the answers call for -/

/-- The pieces that are read, as answers.  `answer` is the beginning of the first
one. -/
def answers (poll : Poll) (answer : List (List Char)) : List (List Char) → List (List (List Char))
  | [] => []
  | piece :: pieces =>
    if poll.endsRound piece then (answer ++ [piece]) :: poll.answers [] pieces
    else poll.answers (answer ++ [piece]) pieces

/-- The word occurs in a piece of the answer. -/
def occurs (answer : List (List Char)) (word : List Char) : Bool :=
  answer.any fun piece => strstr piece word

/-- What one answer calls for.  With `--until` the poll succeeds on an answer with that
word, and with `--while` alone on one without that word.  Before that it goes on, but a
poll with both words fails on an answer that has neither. -/
def decides (poll : Poll) (answer : List (List Char)) : Option Int :=
  match poll.doWhile, poll.doUntil with
  | none, none => some 0
  | none, some goal => if occurs answer goal then some 0 else none
  | some state, none => if occurs answer state then none else some 0
  | some state, some goal =>
    if occurs answer goal then some 0 else if occurs answer state then none else some (-1)

/-- What the answers call for: the verdict on the first one that has any. -/
def decision (poll : Poll) (pieces : List (List Char)) : Option Int :=
  (poll.answers [] pieces).findSome? poll.decides

/-- No read fails at the start of a round, unless what is still in the buffer has
the `--while` word in it. -/
def NoStaleRound (poll : Poll) (reads : List (Option (List Char))) : Prop :=
  reads.IsChain fun read next => next = none →
    ∀ piece ∈ read, strstr piece EOF_MARK = true → ∀ word ∈ poll.doWhile, strstr piece word = true

/-! ## The verdict -/

section Verdicts

variable {poll : Poll} {foundWhile foundUntil : Bool}

/-- When a poll goes on. -/
theorem verdict_eq_none : poll.verdict foundWhile foundUntil = none ↔
    foundUntil = false ∧ (poll.doWhile = none → poll.doUntil ≠ none ∨ foundWhile = true) ∧
      (poll.doWhile ≠ none → foundWhile = true) := by
  unfold verdict
  cases foundUntil with
  | true => simp
  | false =>
    cases poll.doUntil with
    | none => cases poll.doWhile <;> cases foundWhile <;> simp
    | some word => cases poll.doWhile <;> cases foundWhile <;> simp

/-- The program's test comes to what the answer calls for. -/
theorem verdict_eq_decides (answer : List (List Char)) :
    poll.verdict (answer.any (finds poll.doWhile)) (answer.any (finds poll.doUntil))
      = poll.decides answer := by
  have hnone : answer.any (finds none) = false := by simp [finds]
  have hsome : ∀ word, answer.any (finds (some word)) = occurs answer word := fun _ => rfl
  unfold verdict decides
  cases poll.doWhile with
  | none => cases poll.doUntil <;> simp [hnone, hsome]
  | some state =>
    cases poll.doUntil with
    | none =>
      rw [hsome, hnone]
      dsimp only
      cases occurs answer state <;> rfl
    | some goal =>
      rw [hsome, hsome]
      dsimp only
      cases occurs answer goal <;> cases occurs answer state <;> rfl

end Verdicts

/-! ## One read -/

section Reads

variable {poll : Poll} {reply piece : List Char} {answer pieces : List (List Char)}
  {reads : List (Option (List Char))} {foundWhile foundUntil : Bool} {run : Run}

/-- The buffer holds the end of an answer after which the poll has gone on. -/
structure Stale (poll : Poll) (reply : List Char) : Prop where
  ends : poll.endsRound reply = true
  noUntil : finds poll.doUntil reply = false
  goesOn : poll.doWhile = none → poll.doUntil ≠ none
  device : poll.sock = false → ∀ word ∈ poll.doWhile, strstr reply word = true

/-- Looking at the end of an answer once more does no harm if the word is in it. -/
theorem Stale.verdict_eq_none (h : Stale poll reply) :
    poll.verdict (finds poll.doWhile reply) (finds poll.doUntil reply) = none ↔
      ∀ word ∈ poll.doWhile, strstr reply word = true := by
  rw [Poll.verdict_eq_none, h.noUntil]
  cases hword : poll.doWhile with
  | none =>
    have huntil := h.goesOn hword
    simp [huntil]
  | some word => simp [finds]

/-- A round that ends on it decides nothing if no read that fails does harm. -/
theorem Stale.verdict_of_noStaleRound (h : Stale poll reply)
    (hround : poll.sock = true → poll.NoStaleRound (some reply :: none :: reads)) :
    poll.verdict (finds poll.doWhile reply) (finds poll.doUntil reply) = none := by
  refine h.verdict_eq_none.mpr ?_
  cases hsock : poll.sock with
  | false => exact h.device hsock
  | true =>
    have hends : strstr reply EOF_MARK = true := by
      have hends := h.ends
      rwa [endsRound, hsock, Bool.not_true, Bool.false_or] at hends
    exact (List.isChain_cons_cons.mp (hround hsock)).1 rfl reply rfl hends

/-- The last piece of an answer after which the poll goes on. -/
theorem stale_of_verdict (hends : poll.endsRound piece = true)
    (hanswer : poll.sock = false → answer = [])
    (h : poll.decides (answer ++ [piece]) = none) : Stale poll piece := by
  rw [← verdict_eq_decides] at h
  obtain ⟨huntil, hgoes, hwhile⟩ := Poll.verdict_eq_none.mp h
  refine ⟨hends, ?_, ?_, ?_⟩
  · rw [List.any_append, Bool.or_eq_false_iff, List.any_cons, List.any_nil, Bool.or_false]
      at huntil
    exact huntil.2
  · intro hnone
    refine (hgoes hnone).resolve_right fun hfound => ?_
    obtain ⟨found, _, hfinds⟩ := List.any_eq_true.mp hfound
    rw [hnone] at hfinds
    cases hfinds
  · intro hdevice word hword
    have hfound := hwhile (by rw [hword]; exact Option.some_ne_none word)
    rw [hanswer hdevice, List.nil_append, List.any_cons, List.any_nil, Bool.or_false, hword]
      at hfound
    exact hfound

theorem any_concat (f : List Char → Bool) (answer : List (List Char)) (piece : List Char) :
    (answer ++ [piece]).any f = (answer.any f || f piece) := by
  rw [List.any_append, List.any_cons, List.any_nil, Bool.or_false]

theorem any_or_of_mem {f : List Char → Bool} (h : reply ∈ answer) :
    (answer.any f || f reply) = answer.any f := by
  cases hreply : f reply with
  | false => exact Bool.or_false _
  | true => rw [Bool.or_true, List.any_eq_true.mpr ⟨reply, h, hreply⟩]

/-- Reads after a piece that may be looked at once more. -/
theorem noStaleRound_cons (read : Option (List Char))
    (h : ∀ piece ∈ read, strstr piece EOF_MARK = true →
      ∀ word ∈ poll.doWhile, strstr piece word = true) :
    poll.NoStaleRound (read :: reads) ↔ poll.NoStaleRound reads := by
  unfold NoStaleRound
  cases reads with
  | nil => exact iff_of_true (.singleton _) .nil
  | cons next reads =>
    rw [List.isChain_cons_cons]
    exact and_iff_right fun _ => h

/-- Reads that go on with a piece. -/
theorem noStaleRound_some (read : Option (List Char)) :
    poll.NoStaleRound (read :: some piece :: reads) ↔ poll.NoStaleRound (some piece :: reads) := by
  unfold NoStaleRound
  rw [List.isChain_cons_cons]
  exact and_iff_right fun h => by cases h

/-- A read that fails after a piece that may be looked at once more. -/
theorem noStaleRound_failed
    (h : strstr reply EOF_MARK = true → ∀ word ∈ poll.doWhile, strstr reply word = true) :
    poll.NoStaleRound (some reply :: none :: reads) ↔ poll.NoStaleRound (some reply :: reads) := by
  have hreply : ∀ piece ∈ some reply, strstr piece EOF_MARK = true →
      ∀ word ∈ poll.doWhile, strstr piece word = true := by
    intro piece hpiece
    rw [← Option.some.inj hpiece]
    exact h
  rw [noStaleRound_cons _ hreply, noStaleRound_cons _ hreply,
    noStaleRound_cons none fun _ hpiece => by cases hpiece]

/-- What the rest of a poll returns, with the reads that it does not make. -/
def outcome (poll : Poll) (reply : List Char) (foundWhile foundUntil : Bool)
    (reads : List (Option (List Char))) : Option (Int × List (Option (List Char))) :=
  (poll.rounds reply foundWhile foundUntil reads).map fun run => (run.rc, run.unread)

/-- What the answers call for that begin with `answer`. -/
def rest (poll : Poll) (answer : List (List Char)) (reads : List (Option (List Char))) :
    Option Int :=
  (poll.answers answer (reads.filterMap id)).findSome? poll.decides

/-- One point of a poll, with `answer` for the pieces that have come of the answer.  If the
next read fails then either `reply` is one of them, or `reply` is the end of the answer
before. -/
structure Point (poll : Poll) (reply : List Char) (foundWhile foundUntil : Bool)
    (answer : List (List Char)) (reads : List (Option (List Char))) : Prop where
  foundWhile : foundWhile = answer.any (finds poll.doWhile)
  foundUntil : foundUntil = answer.any (finds poll.doUntil)
  device : poll.sock = false → answer = []
  reply : reads.head? = some none →
    reply ∈ answer ∧ poll.endsRound reply = false ∨ answer = [] ∧ Stale poll reply

/-- The poll is at the same place after some of its reads: it comes to the same end, for
the same answers. -/
structure Onward (poll : Poll) (reply : List Char) (foundWhile foundUntil : Bool)
    (answer : List (List Char)) (all : List (Option (List Char)))
    (reply' : List Char) (foundWhile' foundUntil' : Bool)
    (answer' : List (List Char)) (reads : List (Option (List Char))) : Prop where
  point : Point poll reply' foundWhile' foundUntil' answer' reads
  outcome : poll.outcome reply foundWhile foundUntil all
    = poll.outcome reply' foundWhile' foundUntil' reads
  rest : poll.rest answer all = poll.rest answer' reads
  fresh : poll.NoStaleRound (some reply :: all) ↔ poll.NoStaleRound (some reply' :: reads)

theorem outcome_resend :
    ((poll.rounds reply foundWhile foundUntil reads).map fun run =>
        { run with sent := poll.sent ++ run.sent }).map (fun run => (run.rc, run.unread))
      = poll.outcome reply foundWhile foundUntil reads := by
  unfold outcome
  rw [Option.map_map]
  rfl

/-- A read that fails in the middle of a round finds what has been found. -/
theorem Point.onward_of_open (h : Point poll reply foundWhile foundUntil answer (none :: reads))
    (hmem : reply ∈ answer) (hopen : poll.endsRound reply = false) :
    Onward poll reply foundWhile foundUntil answer (none :: reads)
      reply foundWhile foundUntil answer reads := by
  have hmark : strstr reply EOF_MARK = false := (Bool.or_eq_false_iff.mp hopen).2
  refine ⟨⟨h.foundWhile, h.foundUntil, h.device, fun _ => Or.inl ⟨hmem, hopen⟩⟩, ?_, rfl, ?_⟩
  · unfold outcome
    simp only [rounds, Option.getD_none, hopen, Bool.false_eq_true, if_false]
    rw [h.foundWhile, h.foundUntil, any_or_of_mem hmem, any_or_of_mem hmem]
  · refine noStaleRound_failed fun hends => ?_
    rw [hmark] at hends
    cases hends

/-- A read that fails at the start of a round ends it on the answer before.  This does no
harm, or it ends the poll. -/
theorem Point.onward_or_stale (h : Point poll reply foundWhile foundUntil [] (none :: reads))
    (hstale : Stale poll reply) :
    Onward poll reply foundWhile foundUntil [] (none :: reads) reply false false [] reads ∨
      ∃ rc, poll.outcome reply foundWhile foundUntil (none :: reads) = some (rc, reads) ∧
        ¬ (poll.sock = true → poll.NoStaleRound (some reply :: none :: reads)) := by
  have hwhile : foundWhile = false := h.foundWhile
  have huntil : foundUntil = false := h.foundUntil
  subst hwhile huntil
  cases hverdict : poll.verdict (finds poll.doWhile reply) (finds poll.doUntil reply) with
  | none =>
    refine Or.inl ⟨⟨rfl, rfl, fun _ => rfl, fun _ => Or.inr ⟨rfl, hstale⟩⟩, ?_, rfl, ?_⟩
    · unfold outcome
      simp only [rounds, Option.getD_none, hstale.ends, if_true, Bool.false_or, hverdict]
      exact outcome_resend
    · exact noStaleRound_failed fun _ => hstale.verdict_eq_none.mp hverdict
  | some rc =>
    refine Or.inr ⟨rc, ?_, fun hround => ?_⟩
    · unfold outcome
      simp only [rounds, Option.getD_none, hstale.ends, if_true, Bool.false_or, hverdict]
      rfl
    · rw [hstale.verdict_of_noStaleRound hround] at hverdict
      cases hverdict

/-- A read that gets a piece goes on, unless the piece ends an answer that calls for a
value. -/
theorem Point.onward_or_done
    (h : Point poll reply foundWhile foundUntil answer (some piece :: reads)) :
    (∃ foundWhile' foundUntil' answer',
      Onward poll reply foundWhile foundUntil answer (some piece :: reads)
        piece foundWhile' foundUntil' answer' reads) ∨
      ∃ rc, poll.outcome reply foundWhile foundUntil (some piece :: reads) = some (rc, reads) ∧
        poll.rest answer (some piece :: reads) = some rc := by
  have hwhile : (foundWhile || finds poll.doWhile piece)
      = (answer ++ [piece]).any (finds poll.doWhile) := by rw [any_concat, h.foundWhile]
  have huntil : (foundUntil || finds poll.doUntil piece)
      = (answer ++ [piece]).any (finds poll.doUntil) := by rw [any_concat, h.foundUntil]
  have hpieces : (some piece :: reads).filterMap id = piece :: reads.filterMap id := rfl
  cases hends : poll.endsRound piece with
  | false =>
    refine Or.inl ⟨_, _, answer ++ [piece],
      ⟨hwhile, huntil, fun hsock => ?_, fun _ => Or.inl ⟨?_, hends⟩⟩, ?_, ?_,
      noStaleRound_some _⟩
    · rw [endsRound, hsock] at hends
      cases hends
    · exact List.mem_append_right _ List.mem_cons_self
    · unfold outcome
      simp only [rounds, Option.getD_some, hends, Bool.false_eq_true, if_false]
    · unfold rest
      rw [hpieces]
      simp only [answers, hends, Bool.false_eq_true, if_false]
  | true =>
    have hrest : poll.rest answer (some piece :: reads)
        = (poll.decides (answer ++ [piece])).or (poll.rest [] reads) := by
      unfold rest
      rw [hpieces]
      simp only [answers, hends, if_true, List.findSome?_cons]
      cases poll.decides (answer ++ [piece]) <;> rfl
    have hverdict : poll.verdict (foundWhile || finds poll.doWhile piece)
        (foundUntil || finds poll.doUntil piece) = poll.decides (answer ++ [piece]) := by
      rw [hwhile, huntil, verdict_eq_decides]
    rw [hrest]
    cases hdecides : poll.decides (answer ++ [piece]) with
    | none =>
      have hstale := stale_of_verdict hends h.device hdecides
      refine Or.inl ⟨false, false, [],
        ⟨rfl, rfl, fun _ => rfl, fun _ => Or.inr ⟨rfl, hstale⟩⟩, ?_, ?_, noStaleRound_some _⟩
      · unfold outcome
        simp only [rounds, Option.getD_some, hends, if_true, hverdict, hdecides]
        exact outcome_resend
      · rw [hrest, hdecides, Option.none_or]
    | some rc =>
      refine Or.inr ⟨rc, ?_, rfl⟩
      unfold outcome
      simp only [rounds, Option.getD_some, hends, if_true, hverdict, hdecides]
      rfl

/-- What comes of the reads from a point on: without a stale round the poll returns just
when the answers call for a value, and with that value.  With one it returns before they
call for any. -/
structure Decided (poll : Poll) (reply : List Char) (foundWhile foundUntil : Bool)
    (answer : List (List Char)) (reads : List (Option (List Char))) : Prop where
  fresh : (poll.sock = true → poll.NoStaleRound (some reply :: reads)) →
    (poll.outcome reply foundWhile foundUntil reads).map Prod.fst = poll.rest answer reads
  stale : ∀ rc, poll.outcome reply foundWhile foundUntil reads = some (rc, []) →
    ¬ (poll.sock = true → poll.NoStaleRound (some reply :: reads)) →
      poll.rest answer reads = none

theorem Onward.decided {all : List (Option (List Char))} {reply' : List Char}
    {foundWhile' foundUntil' : Bool} {answer' : List (List Char)}
    (h : Onward poll reply foundWhile foundUntil answer all
      reply' foundWhile' foundUntil' answer' reads)
    (hrest : Decided poll reply' foundWhile' foundUntil' answer' reads) :
    Decided poll reply foundWhile foundUntil answer all := by
  refine ⟨fun hround => ?_, fun rc hrc hround => ?_⟩
  · rw [h.outcome, h.rest]
    exact hrest.fresh fun hsock => h.fresh.mp (hround hsock)
  · rw [h.outcome] at hrc
    rw [h.rest]
    exact hrest.stale rc hrc fun hfresh => hround fun hsock => h.fresh.mpr (hfresh hsock)

/-- By induction on the reads, from any point. -/
theorem Point.decided (h : Point poll reply foundWhile foundUntil answer reads) :
    Decided poll reply foundWhile foundUntil answer reads := by
  induction reads generalizing reply foundWhile foundUntil answer with
  | nil => exact ⟨fun _ => rfl, fun rc hrc => by cases hrc⟩
  | cons read reads ih =>
    cases read with
    | none =>
      rcases h.reply rfl with ⟨hmem, hopen⟩ | ⟨rfl, hstale⟩
      · have honward := h.onward_of_open hmem hopen
        exact honward.decided (ih honward.point)
      · rcases h.onward_or_stale hstale with honward | ⟨rc, hrc, hround⟩
        · exact honward.decided (ih honward.point)
        · refine ⟨fun hfresh => absurd hfresh hround, fun rc' hrc' _ => ?_⟩
          -- No piece has come since the last answer.
          rw [hrc] at hrc'
          obtain ⟨_, rfl⟩ := Prod.mk.inj (Option.some.inj hrc')
          rfl
    | some piece =>
      rcases h.onward_or_done with ⟨_, _, _, honward⟩ | ⟨rc, hrc, hrest⟩
      · exact honward.decided (ih honward.point)
      · refine ⟨fun _ => ?_, fun rc' hrc' hround => ?_⟩
        · rw [hrc, hrest]
          rfl
        · rw [hrc] at hrc'
          obtain ⟨_, rfl⟩ := Prod.mk.inj (Option.some.inj hrc')
          exact absurd (fun _ => (noStaleRound_some _).mpr (.singleton _)) hround

/-- If no read of a socket fails right after an end of an answer in which the `--while` word
does not occur, the poll returns just when the answers call for a value, with that value.
A poll that has returned has decided what its answers call for only in this case. -/
theorem poll_answers_iff {junk : List Char} (hfirst : reads.head? ≠ some none) :
    ((poll.sock = true → poll.NoStaleRound reads) →
      (poll.doPoll junk reads).map Run.rc = poll.decision (reads.filterMap id)) ∧
    ∀ run, poll.doPoll junk reads = some run → run.unread = [] →
      (poll.decision (reads.filterMap id) = some run.rc ↔
        (poll.sock = true → poll.NoStaleRound reads)) := by
  have hpoint : Point poll junk false false [] reads :=
    ⟨rfl, rfl, fun _ => rfl, fun hnone => absurd hnone hfirst⟩
  have hdecided := hpoint.decided
  have hround : poll.NoStaleRound (some junk :: reads) ↔ poll.NoStaleRound reads := by
    cases reads with
    | nil => exact iff_of_true (.singleton _) .nil
    | cons read reads =>
      cases read with
      | none => exact absurd rfl hfirst
      | some piece => exact noStaleRound_some _
  have hreturns : (poll.doPoll junk reads).map (fun run => (run.rc, run.unread))
      = poll.outcome junk false false reads := outcome_resend
  have hvalue : (poll.sock = true → poll.NoStaleRound reads) →
      (poll.doPoll junk reads).map Run.rc = poll.decision (reads.filterMap id) := by
    intro hfresh
    have hfst := hdecided.fresh fun hsock => hround.mpr (hfresh hsock)
    rw [← hreturns, Option.map_map] at hfst
    exact hfst
  refine ⟨hvalue, fun run hrun hread => ⟨fun hdecision => ?_, fun hfresh => ?_⟩⟩
  · by_contra hstale
    rw [hrun] at hreturns
    have hnone := hdecided.stale run.rc (hreturns.symm.trans (by rw [← hread]; rfl))
      fun hfresh => hstale fun hsock => hround.mp (hfresh hsock)
    rw [show poll.decision _ = poll.rest [] reads from rfl, hnone] at hdecision
    cases hdecision
  · rw [← hvalue hfresh, hrun]
    rfl

end Reads

end Poll

/-- A poll of a socket until the state is no longer `RUN`. -/
def pollRun : Poll := ⟨true, none, some ['R', 'U', 'N'], none⟩

/-- Two answers.  The second comes late, in the middle of its round. -/
def promptReads : List (Option (List Char)) :=
  [some ['R', 'U', 'N', '\n'], some EOF_LINE, some ['S', 'T', 'O', 'P', '\n'], none,
    some EOF_LINE]

theorem poll_answers_iff_promptReads :
    (pollRun.doPoll [] promptReads).map Poll.Run.rc = pollRun.decision (promptReads.filterMap id) ∧
      ∃ run, pollRun.doPoll [] promptReads = some run ∧ run.rc = 0 ∧
        pollRun.decision (promptReads.filterMap id) = some run.rc := by
  have hrun : pollRun.doPoll [] promptReads = some _ := rfl
  have hfresh : pollRun.NoStaleRound promptReads := by
    unfold Poll.NoStaleRound
    decide
  obtain ⟨hvalue, hiff⟩ := @Poll.poll_answers_iff pollRun promptReads [] (by decide)
  exact ⟨hvalue fun _ => hfresh, _, hrun, rfl, (hiff _ hrun rfl).mpr fun _ => hfresh⟩

/-- If it comes a moment later the poll ends with success on the first answer. -/
example :
    (pollRun.doPoll [] [some ['R', 'U', 'N', '\n'], some EOF_LINE, none]).map Poll.Run.rc
      = some 0 := rfl

end Acq200.Acqcmd
