import Acq200.Output.Files
import Acq200.Recorder.Reports

/-!
# From the card to the output files

This is the whole way of the data of a streaming `htstream` that writes
files.  The card moves the data of a request into the buffer that the
request names, and replies.  A successful call tells the client which
buffers are full, and `fileWork` writes each of them as it is when its turn
comes.  The card may move data and reply at any time in between.

`files_hold_stream` proves that as long as no call fails with a flag set and
no user copy faults, the bytes that go to the files are the data of the
blocks that were reported, each once, in the order of the reports.
-/

namespace Acq200.Recorder

open Acq200.Lib Acq200.Htstream
open Acq200.Rch (Buffer)
open Acq200.BufferAB (Driver Event otherBuffer_ne)
open Acq200.Output (Target Block OutFile FileInfo fileWork)

/-! ## The client, the driver, the card and the files -/

structure Sys where
  stream : Logged
  card : Card
  files : FileInfo (Nat → UInt8)
  /-- The calls of `doWork` that the last successful call of the driver asks
  for. -/
  pending : List Report

inductive Label where
  /-- A step of the client's calls and of the driver. -/
  | stream (l : Htstream.Label)
  /-- The client calls `doWork`. -/
  | work
  /-- The card moves the data of one of the requests that it has. -/
  | transfer (n : Nat) (data : List UInt8)
  deriving DecidableEq

namespace Sys

def driver (s : Sys) : Driver := s.stream.sys.driver

/-- The blocks that were reported to the client, in order. -/
def delivered (s : Sys) : List Nat := s.stream.sys.delivered

end Sys

/-- The steps of the client itself. -/
def ofClient : Htstream.Label → Bool
  | .driver _ => false
  | .enter | .interrupted | .copyInFault | .leave _ => true

/-- `doWork`, which is `fileWork`.  A length that no `int` holds does not
come, since the buffer is no longer than `BUFLEN`. -/
def doWork (platform : Target) (memory : Buffer → Nat → UInt8) (g : FileInfo (Nat → UInt8))
    (work : Report) : FileInfo (Nat → UInt8) :=
  if h : work.2.toNat < 2147483648 then fileWork platform g ⟨memory work.1, work.2.toNat, h⟩
  else g

/-- A step, until `fileOpen` has ended the program. -/
def step (platform : Target) (l : Label) (s : Sys) : Option Sys :=
  if s.files.exited then none
  else
    match l with
    | .stream l =>
      if ofClient l ∧ s.pending ≠ [] then none
      else
        (s.card.noteLabel s.driver l).bind fun card =>
          (loggedStep l s.stream).map fun stream =>
            { s with
              stream := stream
              card := card
              pending := s.pending ++ workedBy s.stream.sys l }
    | .work =>
      match s.pending with
      | [] => none
      | work :: rest =>
        some { s with
          files := doWork platform s.card.memory s.files work
          pending := rest }
    | .transfer n data =>
      s.driver.unanswered[n]?.bind fun k =>
        if data.length ≤ BUFLEN then some { s with card := s.card.move k data } else none

/-- The program before its first call. -/
def initial (config : Config) (files : FileInfo (Nat → UInt8))
    (memory : Buffer → Nat → UInt8) : Sys :=
  { stream := loggedInitial config, card := idleCard memory, files := files, pending := [] }

/-! ## What is in the files -/

/-- What `write` takes from the buffer. -/
def bytesOf (block : Block (Nat → UInt8)) : List UInt8 := slice block.pbuf 0 block.len

/-- The bytes written, file by file in the order of the opens. -/
def contents (g : FileInfo (Nat → UInt8)) : List UInt8 :=
  g.files.flatMap fun file => file.written.flatMap bytesOf

/-- The files hold the data of every block that was reported, once and in
order, up to the works that are pending.  If the program has ended, there may
be less. -/
structure FilesHold (s : Sys) : Prop where
  all : s.stream.sys.phase ≠ .inIoctl → s.delivered = s.driver.reported
  nodup : s.delivered.Nodup
  isPrefix : contents s.files <+: s.delivered.flatMap s.card.answered
  complete : s.files.exited = false → s.pending = [] →
    contents s.files = s.delivered.flatMap s.card.answered

/-- No user copy faults, and no call fails with a flag set. -/
def Undisturbed (l : Label) (s : Sys) : Prop :=
  match l with
  | .stream l => NoFault l s.stream ∧ FailsClean l s.stream.sys
  | .work | .transfer _ _ => True

instance : ∀ (l : Label) (s : Sys), Decidable (Undisturbed l s)
  | .stream l, s => inferInstanceAs (Decidable (NoFault l s.stream ∧ FailsClean l s.stream.sys))
  | .work, _ | .transfer _ _, _ => inferInstanceAs (Decidable True)

section Files

variable {platform : Target} {memory : Buffer → Nat → UInt8} {g g' : FileInfo (Nat → UInt8)}

/-- A buffer is written whole, or the program ends. -/
theorem contents_step {block : Block (Nat → UInt8)} (h : Output.step platform block g = some g') :
    contents g' = contents g ++ bytesOf block ∨ g'.exited = true ∧ contents g' = contents g := by
  obtain ⟨-, ⟨hkeeps, rfl⟩ | ⟨-, ⟨-, -, rfl⟩ | ⟨-, rfl⟩⟩⟩ := Output.step_cases h
  · obtain ⟨file, hcurrent, -⟩ := Output.keeps_current hkeeps
    refine Or.inl ?_
    rw [contents, contents, Output.append_files hcurrent, Output.files_of_current hcurrent]
    simp [OutFile.write, List.flatMap_append]
  · refine Or.inr ⟨rfl, ?_⟩
    rw [contents, contents, Output.stop_files]
    simp
  · refine Or.inl ?_
    rw [contents, contents, Output.advance_files]
    simp

/-- What the client passes to `write` for one call of `doWork`. -/
def workBytes (memory : Buffer → Nat → UInt8) (work : Report) : List UInt8 :=
  slice (memory work.1) 0 work.2.toNat

theorem contents_doWork {work : Report} (hlen : work.2.toNat < 2147483648)
    (hrunning : g.exited = false) :
    contents (doWork platform memory g work) = contents g ++ workBytes memory work ∨
      (doWork platform memory g work).exited = true ∧
        contents (doWork platform memory g work) = contents g := by
  have hstep : Output.step platform ⟨memory work.1, work.2.toNat, hlen⟩ g
      = some (doWork platform memory g work) := by
    rw [Output.step, doWork, dif_pos hlen, hrunning, if_neg Bool.false_ne_true]
  exact contents_step hstep

end Files

/-! ## The blocks that wait to be written -/

/-- The block is in its buffer, and the card has nothing more to do there. -/
def InBuffer (d : Driver) (c : Card) (k : Nat) : Prop :=
  ∃ h, d.rchAB (c.target k) = some h ∧ h.rchReturn.valid ≠ 0 ∧ h.block = k

/-- `rest` are the blocks that the client has yet to write, and `done` those
before them. -/
structure Written (s : Sys) (done rest : List Nat) : Prop where
  delivered : s.delivered = done ++ rest
  pending : s.pending = s.card.reports rest
  inBuffer : ∀ k ∈ rest, InBuffer s.driver s.card k
  /-- The driver is not called before everything is written. -/
  idle : rest ≠ [] → s.driver.pc = .idle
  isPrefix : contents s.files <+: done.flatMap s.card.answered
  complete : s.files.exited = false → contents s.files = done.flatMap s.card.answered

structure RecInv (s : Sys) : Prop where
  stream : StreamInv s.stream.sys
  pace : PaceInv s.stream
  card : CardInv s.driver s.card
  books : Books s.stream s.card
  once : Once s.stream.sys
  written : ∃ done rest, Written s done rest

theorem RecInv.filesHold {s : Sys} (h : RecInv s) : FilesHold s := by
  obtain ⟨done, rest, hwritten⟩ := h.written
  have hnodup : s.delivered.Nodup := by
    by_cases hphase : s.stream.sys.phase = .inIoctl
    · have hreported := h.once.nodup
      rw [← h.books.inside hphase] at hreported
      exact (List.nodup_append.mp hreported).1
    · rw [Sys.delivered, h.books.outside hphase]
      exact h.once.nodup
  refine ⟨h.books.outside, hnodup, ?_, ?_⟩
  · rw [hwritten.delivered, List.flatMap_append]
    exact hwritten.isPrefix.trans (List.prefix_append _ _)
  · intro hrunning hpending
    have hrest : rest = [] := by
      have hnone := hwritten.pending.symm.trans hpending
      exact List.map_eq_nil_iff.mp hnone
    rw [hwritten.delivered, hrest, List.append_nil]
    exact hwritten.complete hrunning

section Blocks

variable {d d' : Driver} {c c' : Card} {k : Nat}

/-- The client writes what the reply has said to be there. -/
theorem InBuffer.workBytes (h : InBuffer d c k) (hcard : CardInv d c) :
    Recorder.workBytes c.memory (c.target k, BitVec.ofNat 32 (c.answered k).length)
      = c.answered k := by
  obtain ⟨handler, hslot, hvalid, hblock⟩ := h
  have hfull := hcard.full _ handler hslot hvalid
  rw [hblock] at hfull
  rw [Recorder.workBytes, ← hfull, length_slice, BitVec.ofNat_toNat, BitVec.setWidth_eq]

/-- Between two calls the driver does nothing but take replies. -/
theorem reply_of_idle (hidle : d.pc = .idle) {event : Event} (hd : d.step event = some d') :
    ∃ n start nsamples, event = .reply n start nsamples := by
  cases event with
  | reply n start nsamples => exact ⟨n, start, nsamples, rfl⟩
  | go | post | wake | timeout | signal =>
    simp [Driver.step, Driver.go, Driver.post, Driver.wake, Driver.endWait, hidle] at hd

/-- A reply leaves the block where it is. -/
theorem InBuffer.event (h : InBuffer d c k) (hcard : CardInv d c) (hidle : d.pc = .idle)
    {event : Event} (hk : k ∈ d.reported) (hd : d.step event = some d')
    (hc : c.note d event = some c') : InBuffer d' c' k ∧ d'.pc = .idle := by
  obtain ⟨handler, hslot, hvalid, hblock⟩ := h
  obtain ⟨n, start, nsamples, rfl⟩ := reply_of_idle hidle hd
  rw [InBuffer, (hcard.note_keeps hc hk).1]
  obtain ⟨other, hn, rfl⟩ := Option.map_eq_some_iff.mp hd
  have hne : handler.block ≠ other := by
    rintro rfl
    exact hcard.not_waiting hslot hvalid (List.mem_of_getElem? hn)
  refine ⟨⟨handler, ?_, hvalid, hblock⟩, hidle⟩
  show Driver.deliver (d.rchAB (c.target k)) other start nsamples = some handler
  rw [Driver.deliver, hslot, Option.map_some, if_neg hne]

theorem works_nodup (a : Action) : a.works.Nodup := by
  rw [Action.works]
  split
  · split
    · refine List.nodup_cons.mpr ⟨fun hmem => ?_, List.nodup_singleton _⟩
      exact otherBuffer_ne _ (List.mem_singleton.mp hmem).symm
    · exact List.nodup_singleton _
  · exact List.nodup_nil

/-- Every block that a successful call has reported is in its buffer. -/
theorem inBuffer_now {logged : Logged} (hstream : StreamInv logged.sys) (hpace : PaceInv logged)
    (hcard : CardInv logged.sys.driver c) (hbooks : Books logged c)
    (hpc : logged.sys.driver.pc = .done .ok) :
    c.reports logged.sys.reportedNow = logged.sys.worksOf ∧
      ∀ k ∈ logged.sys.reportedNow, InBuffer logged.sys.driver c k := by
  have hphase : logged.sys.phase = .inIoctl := hstream.inIoctl (by rw [hpc]; simp)
  have hcall := hstream.call
  have hlog := hpace.pace
  rw [hpc] at hcall hlog
  have hnow := hbooks.now hphase hlog.1
  refine ⟨hnow, fun k hk => ?_⟩
  have htargets : logged.sys.reportedNow.map c.target = logged.sys.informed.works := by
    have hfirst := congrArg (List.map Prod.fst) hnow
    rw [Card.reports, Sys.worksOf, List.map_map, List.map_map] at hfirst
    simpa [Function.comp_def] using hfirst
  have hmem : c.target k ∈ logged.sys.informed.works := by
    rw [← htargets]
    exact List.mem_map_of_mem hk
  obtain ⟨handler, hslot, hvalid, hin⟩ := hcall _ ((hlog.2.2 _).mp hmem)
  refine ⟨handler, hslot, hvalid, ?_⟩
  have hnodup : (logged.sys.reportedNow.map c.target).Nodup := by
    rw [htargets]
    exact works_nodup _
  exact List.inj_on_of_nodup_map hnodup hin hk (hcard.slots _ handler hslot).2

end Blocks

/-! ## Steps -/

section Steps

variable {platform : Target} {s s' : Sys} {done rest : List Nat}

/-- When nothing is pending, everything that was reported is written. -/
theorem RecInv.written_all (h : RecInv s) (hpending : s.pending = []) :
    Written s s.delivered [] := by
  obtain ⟨done, rest, hwritten⟩ := h.written
  have hrest : rest = [] := List.map_eq_nil_iff.mp (hwritten.pending.symm.trans hpending)
  rw [hrest] at hwritten
  have hdone : s.delivered = done := hwritten.delivered.trans (List.append_nil done)
  rwa [← hdone] at hwritten

/-- A step of the client.  The works that it asks for are those of the blocks
that are reported to it. -/
theorem Written.client (h : Written s done []) {stream : Logged} {works : List Report}
    (hdelivered : stream.sys.delivered = s.delivered ++ rest)
    (hworks : works = s.card.reports rest)
    (hin : ∀ k ∈ rest, InBuffer stream.sys.driver s.card k)
    (hidle : rest ≠ [] → stream.sys.driver.pc = .idle) :
    Written { s with stream := stream, pending := s.pending ++ works } done rest where
  delivered := by
    have hold : s.delivered = done := h.delivered.trans (List.append_nil done)
    exact hdelivered.trans (by rw [hold])
  pending := by
    show s.pending ++ works = s.card.reports rest
    rw [h.pending, hworks]
    rfl
  inBuffer := hin
  idle := hidle
  isPrefix := h.isPrefix
  complete := h.complete

/-- A step of the client that asks for nothing. -/
theorem Written.quiet (h : Written s done []) {stream : Logged}
    (hdelivered : stream.sys.delivered = s.delivered) :
    Written { s with stream := stream, pending := s.pending ++ [] } done [] := by
  refine h.client ?_ rfl (fun _ hk => by cases hk) fun hne => absurd rfl hne
  rw [List.append_nil]
  exact hdelivered

/-- An event of the driver.  A reply may come while the client writes. -/
theorem Written.event (h : Written s done rest) (hcard : CardInv s.driver s.card)
    (hbooks : Books s.stream s.card) {event : Event} {d : Driver} {card : Card}
    {worked : Buffer → Bool} {reports : List Report} (hd : s.driver.step event = some d)
    (hc : s.card.note s.driver event = some card) :
    Written { s with
      stream :=
        { sys := { s.stream.sys with driver := d, worked := worked }
          reports := reports
          works := s.stream.works }
      card := card } done rest := by
  have hkeeps : ∀ k ∈ done ++ rest,
      card.target k = s.card.target k ∧ card.answered k = s.card.answered k := by
    intro k hk
    rw [← h.delivered] at hk
    exact hcard.note_keeps hc (hbooks.delivered_subset hk)
  have hdata : done.flatMap card.answered = done.flatMap s.card.answered :=
    List.flatMap_congr fun k hk => (hkeeps k (List.mem_append_left _ hk)).2
  have hevent : ∀ k ∈ rest, InBuffer d card k ∧ d.pc = .idle := by
    intro k hk
    have hreported : k ∈ s.driver.reported := by
      refine hbooks.delivered_subset ?_
      rw [show s.stream.sys.delivered = done ++ rest from h.delivered]
      exact List.mem_append_right _ hk
    exact (h.inBuffer k hk).event hcard (h.idle (List.ne_nil_of_mem hk)) hreported hd hc
  refine ⟨h.delivered, ?_, ?_, ?_, ?_, ?_⟩
  · refine h.pending.trans (reports_congr fun k hk => ?_).symm
    exact hkeeps k (List.mem_append_right _ hk)
  · exact fun k hk => (hevent k hk).1
  · intro hrest
    obtain ⟨k, hk⟩ := List.exists_mem_of_ne_nil rest hrest
    exact (hevent k hk).2
  · show contents s.files <+: done.flatMap card.answered
    rw [hdata]
    exact h.isPrefix
  · intro hrunning
    exact (h.complete hrunning).trans hdata.symm

theorem RecInv.stream_step (h : RecInv s) {l : Htstream.Label} {stream : Logged} {card : Card}
    (hok : NoFault l s.stream ∧ FailsClean l s.stream.sys)
    (hfree : ¬ (ofClient l ∧ s.pending ≠ []))
    (hc : s.card.noteLabel s.driver l = some card) (hs : loggedStep l s.stream = some stream) :
    RecInv { s with
      stream := stream
      card := card
      pending := s.pending ++ workedBy s.stream.sys l } := by
  have hpace := paceInv_step l _ _ h.pace hok.1 hs
  have hbooks := books_step h.books h.stream h.pace h.card hok.1 hs hc
  have honce := once_step h.once h.books h.stream h.pace h.card hok.1 hs
  obtain ⟨sys, hsys, rfl⟩ := Option.map_eq_some_iff.mp hs
  have hstream := streamInv_step l _ _ h.stream hok.2 hsys
  have hcard := cardInv_stream h.card h.stream hsys hc
  refine ⟨hstream, hpace, hcard, hbooks, honce, ?_⟩
  have hall : ofClient l = true → Written s s.delivered [] := by
    intro hclient
    refine h.written_all ?_
    by_contra hpending
    exact hfree ⟨hclient, hpending⟩
  cases l with
  | driver event =>
    obtain ⟨done, rest, hwritten⟩ := h.written
    obtain ⟨d, hd, rfl⟩ := Option.map_eq_some_iff.mp hsys
    refine ⟨done, rest, ?_⟩
    simp only [workedBy, List.append_nil]
    exact hwritten.event h.card h.books hd hc
  | enter =>
    obtain rfl := Option.some.inj hc
    rw [Htstream.step] at hsys
    split at hsys
    · obtain rfl := Option.some.inj hsys
      exact ⟨s.delivered, [], (hall rfl).quiet rfl⟩
    · cases hsys
  | interrupted =>
    obtain rfl := Option.some.inj hc
    rw [Htstream.step] at hsys
    split at hsys
    · obtain rfl := Option.some.inj hsys
      exact ⟨s.delivered, [], (hall rfl).quiet rfl⟩
    · cases hsys
  | copyInFault => exact absurd hok.1 id
  | leave copied =>
    obtain rfl := Option.some.inj hc
    cases copied with
    | false => exact absurd hok.1 id
    | true =>
      rw [Htstream.step] at hsys
      split at hsys
      · rename_i rc hpc
        obtain rfl := Option.some.inj hsys
        have hidle : (s.stream.sys.leave rc true).driver.pc = .idle := by rw [leave_driver]
        by_cases hrc : rc = .ok
        · rw [hrc] at hpc hidle ⊢
          obtain ⟨hnow, hin⟩ := inBuffer_now h.stream h.pace h.card h.books hpc
          refine ⟨s.delivered, s.stream.sys.reportedNow,
            (hall rfl).client ?_ ?_ ?_ fun _ => hidle⟩
          · exact leave_delivered .ok true
          · rw [workedBy, if_pos hpc]
            exact hnow.symm
          · intro k hk
            obtain ⟨handler, hslot, hvalid⟩ := hin k hk
            refine ⟨handler, ?_, hvalid⟩
            rw [leave_driver]
            exact hslot
        · rw [workedBy, if_neg (by rw [hpc]; simpa using hrc)]
          refine ⟨s.delivered, [], (hall rfl).quiet ?_⟩
          refine (leave_delivered rc true).trans (if_neg ?_)
          cases rc with
          | ok => exact absurd rfl hrc
          | timedOut | interrupted => simp [outcome]
      · cases hsys

/-- The client writes the buffer of the first block that is pending. -/
theorem RecInv.work (h : RecInv s) (hrunning : s.files.exited = false) {work : Report}
    {pending : List Report} (hpending : s.pending = work :: pending) :
    RecInv { s with
      files := doWork platform s.card.memory s.files work
      pending := pending } := by
  refine ⟨h.stream, h.pace, h.card, h.books, h.once, ?_⟩
  obtain ⟨done, rest, hwritten⟩ := h.written
  cases rest with
  | nil =>
    rw [hwritten.pending] at hpending
    cases hpending
  | cons k rest =>
    obtain ⟨rfl, rfl⟩ := List.cons.inj (hwritten.pending.symm.trans hpending)
    have hbytes := (hwritten.inBuffer k List.mem_cons_self).workBytes h.card
    have hlen : (BitVec.ofNat 32 (s.card.answered k).length).toNat < 2147483648 := by
      have hfits := (h.card.fits k).2
      rw [BUFLEN] at hfits
      rw [BitVec.toNat_ofNat]
      omega
    have hdata : (done ++ [k]).flatMap s.card.answered = contents s.files ++ s.card.answered k := by
      rw [List.flatMap_append, List.flatMap_singleton, hwritten.complete hrunning]
    have hmore := @contents_doWork platform s.card.memory s.files
      (s.card.target k, BitVec.ofNat 32 (s.card.answered k).length) hlen hrunning
    rw [hbytes] at hmore
    refine ⟨done ++ [k], rest, ?_, rfl, ?_, ?_, ?_, ?_⟩
    · exact hwritten.delivered.trans (List.append_cons done k rest)
    · exact fun other hother => hwritten.inBuffer other (List.mem_cons_of_mem k hother)
    · exact fun _ => hwritten.idle (List.cons_ne_nil k rest)
    · show contents (doWork _ _ _ _) <+: (done ++ [k]).flatMap s.card.answered
      rw [hdata]
      rcases hmore with hwhole | ⟨_, hsame⟩
      · exact ⟨[], (List.append_nil _).trans hwhole⟩
      · rw [hsame]
        exact List.prefix_append _ _
    · intro hstill
      show contents (doWork _ _ _ _) = (done ++ [k]).flatMap s.card.answered
      rw [hdata]
      rcases hmore with hwhole | ⟨hgone, _⟩
      · exact hwhole
      · exact absurd (hstill.symm.trans hgone) Bool.false_ne_true

/-- The card moves data. -/
theorem RecInv.transfer (h : RecInv s) {k : Nat} {data : List UInt8}
    (hk : k ∈ s.driver.unanswered) (hlen : data.length ≤ BUFLEN) :
    RecInv { s with card := s.card.move k data } := by
  obtain ⟨done, rest, hwritten⟩ := h.written
  have hbooks : Books s.stream (s.card.move k data) :=
    ⟨h.books.reports, h.books.works, h.books.outside, h.books.inside⟩
  refine ⟨h.stream, h.pace, h.card.move hk hlen, hbooks, h.once, done, rest, ?_⟩
  exact ⟨hwritten.delivered, hwritten.pending, hwritten.inBuffer, hwritten.idle,
    hwritten.isPrefix, hwritten.complete⟩

end Steps

/-! ## Runs -/

theorem recInv_initial (config : Config) (maxfile nfiles : BitVec 32) (oneshot : Bool)
    (memory : Buffer → Nat → UInt8) :
    RecInv (initial config (.start maxfile nfiles oneshot) memory) where
  stream := streamInv_initial config
  pace := paceInv_initial config
  card := cardInv_initial memory
  books := ⟨rfl, rfl, fun _ => rfl, fun h => by cases h⟩
  once := once_initial config
  written := by
    refine ⟨[], [], rfl, rfl, fun _ hk => ?_, fun hne => absurd rfl hne, ?_, fun _ => rfl⟩
    · cases hk
    · exact List.prefix_refl _

theorem recInv_step {platform : Target} (l : Label) (s s' : Sys) (h : RecInv s)
    (hok : Undisturbed l s) (hs : step platform l s = some s') : RecInv s' := by
  unfold step at hs
  split at hs
  · cases hs
  · rename_i hrunning
    have hrunning : s.files.exited = false := Bool.eq_false_iff.mpr hrunning
    cases l with
    | stream l =>
      dsimp only at hs
      split at hs
      · cases hs
      · rename_i hfree
        obtain ⟨card, hc, hs⟩ := Option.bind_eq_some_iff.mp hs
        obtain ⟨stream, hlogged, rfl⟩ := Option.map_eq_some_iff.mp hs
        exact h.stream_step hok hfree hc hlogged
    | work =>
      dsimp only at hs
      split at hs
      · cases hs
      · rename_i work pending hpending
        obtain rfl := Option.some.inj hs
        exact h.work hrunning hpending
    | transfer n data =>
      obtain ⟨k, hk, hs⟩ := Option.bind_eq_some_iff.mp hs
      split at hs
      · rename_i hlen
        obtain rfl := Option.some.inj hs
        exact h.transfer (List.mem_of_getElem? hk) hlen
      · cases hs

/-- The first call reports two samples in buffer A.  The client writes them
while the card moves data into buffer B. -/
def firstRecord : List Label :=
  [.stream .enter, .stream (.driver .go), .stream (.driver .go),
    .stream (.driver (.post true 0)), .stream (.driver (.post true 0)),
    .transfer 0 [7, 7], .transfer 0 [1, 2, 3, 4, 5], .stream (.driver (.reply 0 0 2)),
    .stream (.driver .wake), .stream (.driver .go), .stream (.driver .go),
    .stream (.leave true), .transfer 0 [6, 7, 8], .work]

end Acq200.Recorder
