import Acq200.Frames.Refinement

/-!
# Every answer arrives, once and in order

The driver drops a packet at debug levels 7 and 8 and when its ring is full.
The ring has 128 slots and holds one frame less than 127 while the reader
has one out, so a card with at most 126 frames never fills it.

`Books` says what one step does to the answers that the card has given, and
`replies_in_order` adds it up over a run.  `backstop_delivers` says that the
backstop thread is enough, for any number of frames: whatever the card has
answered can get to its handler, although no message interrupt ever comes again.
A poll that finds the ring empty always has room for a frame.
-/

namespace Acq200.Transport

open Acq200.Lib Acq200.StreamBuf

/-- The debug level of the step makes the driver drop a packet. -/
def Label.drops : Label → Bool
  | .interrupt debug | .poll debug => debug == 8
  | .process debug => debug == 7
  | _ => false

/-- The card has no more frames than the ring takes. -/
def Few (frames : List UInt32) : Prop := frames.length + 2 ≤ NSTREAMBUF

instance (frames : List UInt32) : Decidable (Few frames) :=
  inferInstanceAs (Decidable (_ ≤ _))

section Steps

variable {frames : List UInt32} {s s' : Sys} {q : PutBackQueue UInt32}

/-! ## The books of one step -/

/-- The answers `new` have been given and the answers `gone` have been
dispatched, from the front of those on their way.  If nothing is dropped,
the rest is on its way still. -/
structure Books (s s' : Sys) (lossless : Prop) (new gone : List Rch.Posted) : Prop where
  answered : s'.answered = s.answered ++ new
  dispatched : s'.dispatched = s.dispatched ++ gone
  kept : (gone ++ s'.pending).Sublist (s.pending ++ new)
  all : lossless → s'.host.oopsed = false → gone ++ s'.pending = s.pending ++ new

theorem Still.books (h : Still s s') (lossless : Prop) : Books s s' lossless [] [] where
  answered := h.answered.trans (List.append_nil _).symm
  dispatched := h.dispatched.trans (List.append_nil _).symm
  kept := by rw [h.pending, List.append_nil, List.nil_append]
  all := fun _ _ => by rw [h.pending, List.append_nil, List.nil_append]

theorem Quiet.books (h : Quiet s s') {lossless : Prop} (hno : ¬ lossless) :
    Books s s' lossless [] [] where
  answered := h.answered.trans (List.append_nil _).symm
  dispatched := h.dispatched.trans (List.append_nil _).symm
  kept := by
    rw [List.append_nil]
    exact h.pending
  all := fun h _ => absurd h hno

/-- A card with few frames never finds the ring full. -/
theorem Inv.not_full (h : Inv frames s q) (hfew : Few frames) (hout : s.outbound ≠ []) :
    genericIntBufIsFull s.io.streambuf = false := by
  cases hfull : genericIntBufIsFull s.io.streambuf with
  | false => rfl
  | true =>
    have hheld := h.io.rep.isFull_iff.mp hfull
    rw [PutBackQueue.held, List.length_append] at hheld
    have hlen := h.held.length_eq
    simp only [List.length_append] at hlen
    have hpos : 0 < s.outbound.length := List.length_pos_iff.mpr hout
    have hreader := q.length_out_le
    unfold Few NSTREAMBUF at hfew
    omega

/-- A ring with nothing in its queue has room, even while the reader has a frame
out. -/
theorem Inv.room_of_empty (h : Inv frames s q) (hring : Frames.queued s.io.streambuf = []) :
    genericIntBufIsFull s.io.streambuf = false := by
  cases hfull : genericIntBufIsFull s.io.streambuf with
  | false => rfl
  | true =>
    have hheld := h.io.rep.isFull_iff.mp hfull
    rw [Frames.queued_eq h.io.rep] at hring
    rw [PutBackQueue.held, List.length_append, hring, List.length_nil] at hheld
    have hreader := q.length_out_le
    omega

/-- Reading the outbound queue drops nothing if the ring has room, unless the
debug level says so. -/
theorem Inv.still_fetch (h : Inv frames s q) (hok : FramesOk frames)
    (hroom : s.outbound ≠ [] → genericIntBufIsFull s.io.streambuf = false)
    {l : Frames.Label} {debug : Int} (hdebug : debug ≠ 8)
    (hl : l = .interrupt s.oqp debug ∨ l = .poll s.oqp debug)
    (hs : s.popOutbound.ioStep l = some s') :
    ∃ q' into, Inv frames s' q' ∧ Still s s' ∧ s'.io.bh = s.io.bh ∧
      s.outbound = into ++ s.outbound.tail ∧ q'.queue = q.queue ++ into := by
  obtain ⟨q', back, into, hinv, hsplit, hlost, hmoved, hs', htransit⟩ := h.fetch hok hl hs
  have hback : back = [] := by
    rcases hlost with hback | hdebug' | hfull
    · exact hback
    · exact absurd hdebug' hdebug
    · cases hout : s.outbound with
      | nil =>
        rw [hout] at hsplit
        simp only [List.nil_eq, List.append_eq_nil_iff] at hsplit
        exact hsplit.1.1
      | cons mfa rest =>
        rw [hroom (by rw [hout]; exact List.cons_ne_nil _ _)] at hfull
        cases hfull
  rw [hback, List.nil_append] at hsplit
  refine ⟨q', into, hinv, ⟨?_, ?_, ?_, ?_, ?_⟩, hmoved.bh, hsplit, ?_⟩
  · obtain ⟨n, hn⟩ := hmoved.rch
    refine ⟨n, ?_⟩
    rw [hs']
    show { s.host with dev := s'.io.rch, oopsed := s'.io.oopsed } = _
    rw [hn, hmoved.oopsed, h.dev, h.oopsed]
  · rw [htransit, List.append_assoc, ← hsplit, Sys.inTransit, Frames.queued_eq h.io.rep]
  · rw [hs']
    rfl
  · rw [hs']
    rfl
  · rw [hs']
    rfl
  · exact queue_of_order h.io hinv.io _ hmoved.arrived hmoved.served
      (congrArg Frames.Bh.inProcess hmoved.bh)

theorem Processed.books {mfa : UInt32} {debug : Int} (h : Processed s s' mfa debug)
    (lossless : Prop) (hdebug : lossless → debug ≠ 7) :
    ∃ gone, Books s s' lossless [] gone := by
  by_cases h7 : debug = 7
  · refine ⟨[], h.answered.trans (List.append_nil _).symm, ?_, ?_, ?_⟩
    · rw [h.dispatched, if_pos h7, List.append_nil]
    · rw [h.pending, List.append_nil, List.nil_append]
      exact List.sublist_append_right _ _
    · intro hlossless
      exact absurd h7 (hdebug hlossless)
  · refine ⟨(s.packetAt mfa).answers.toList, h.answered.trans (List.append_nil _).symm, ?_, ?_, ?_⟩
    · rw [h.dispatched, if_neg h7]
    · rw [h.pending, List.append_nil]
    · intro _ _
      rw [h.pending, List.append_nil]

theorem books_client (h : Inv frames s q) (hoops : s.host.oopsed = false) (host : Rch.Sys)
    (lossless : Prop) :
    Books s { s with
      host := host
      io := { s.io with rch := host.dev, oopsed := host.oopsed } } lossless [] [] where
  answered := (List.append_nil _).symm
  dispatched := (List.append_nil _).symm
  kept := by
    rw [List.append_nil]
    exact pending_client host (h.oopsed.trans hoops)
  all := by
    intro _ hno
    have hno : host.oopsed = false := hno
    have hunread : unread { s.io with rch := host.dev, oopsed := host.oopsed } = unread s.io :=
      unread_congr rfl (hno.trans (h.oopsed.trans hoops).symm)
    rw [List.append_nil, List.nil_append, Sys.pending, Sys.inTransit]
    show s.answersIn (unread _ ++ Frames.queued s.io.streambuf ++ s.outbound) = _
    rw [hunread]
    rfl

theorem books_step (hok : FramesOk frames) (h : Inv frames s q) {l : Label}
    (hs : step l s = some s') :
    ∃ new gone, Books s s' (Few frames ∧ l.drops = false) new gone := by
  unfold step at hs
  split at hs
  · cases hs
  · rename_i hno
    have hoops : s.host.oopsed = false := Bool.eq_false_iff.mpr hno
    have hfetch : ∀ {l' : Frames.Label} {debug : Int}, l.drops = (debug == 8) →
        l' = .interrupt s.oqp debug ∨ l' = .poll s.oqp debug →
        s.popOutbound.ioStep l' = some s' →
        ∃ new gone, Books s s' (Few frames ∧ l.drops = false) new gone := by
      intro l' debug hdrops hl hs
      by_cases hlossless : Few frames ∧ l.drops = false
      · rw [hdrops, beq_eq_false_iff_ne] at hlossless
        obtain ⟨_, _, _, hstill, _⟩ := h.still_fetch hok (h.not_full hlossless.1) hlossless.2
          hl hs
        exact ⟨[], [], hstill.books _⟩
      · exact ⟨[], [], (h.quiet_fetch hok hl hs).2.books hlossless⟩
    cases l with
    | client l =>
      simp only at hs
      split at hs
      · obtain ⟨host, _, rfl⟩ := Option.map_eq_some_iff.mp hs
        exact ⟨[], [], books_client h hoops host _⟩
      · cases hs
    | reply n mfa message =>
      simp only at hs
      split at hs
      · cases hs
      · rename_i p hp
        split at hs
        · split at hs
          · rename_i hmessage hfree
            obtain rfl := Option.some.inj hs
            have hpending := h.pending_post hok hfree ⟨message, some p, hmessage⟩
            refine ⟨[p], [], rfl, (List.append_nil _).symm, ?_, fun _ _ => hpending⟩
            exact (show _ = s.pending ++ [p] from hpending) ▸ List.Sublist.refl _
          · cases hs
        · cases hs
    | notify mfa message =>
      simp only at hs
      split at hs
      · split at hs
        · rename_i hmessage hfree
          obtain rfl := Option.some.inj hs
          have hpending := h.pending_post hok hfree ⟨message, none, hmessage⟩
          refine ⟨[], [], (List.append_nil _).symm, (List.append_nil _).symm, ?_,
            fun _ _ => hpending⟩
          exact (show _ = s.pending ++ [] from hpending) ▸ List.Sublist.refl _
        · cases hs
      · cases hs
    | interrupt debug => exact hfetch rfl (Or.inl rfl) hs
    | poll debug => exact hfetch rfl (Or.inr rfl) hs
    | start => exact ⟨[], [], (h.still_start hs).2.books _⟩
    | loop => exact ⟨[], [], (h.still_loop hs).2.books _⟩
    | process debug =>
      simp only at hs
      split at hs
      · rename_i mfa hbh
        obtain ⟨gone, hbooks⟩ := (h.process hoops hbh hs).2.books
          (Few frames ∧ (Label.process debug).drops = false)
          fun hlossless => beq_eq_false_iff_ne.mp hlossless.2
        exact ⟨[], gone, hbooks⟩
      · cases hs
    | giveBack => exact ⟨[], [], (h.still_giveBack hs).2.books _⟩

end Steps

/-! ## The order of the answers -/

section Runs

variable {frames : List UInt32} {s s' : Sys} {t : Rch.Sys}

theorem inv_step (hok : FramesOk frames) (l : Label) (h : ∃ q, Inv frames s q)
    (hs : step l s = some s') : ∃ q, Inv frames s' q := by
  -- The simulation keeps the invariant, whatever the replies are.
  obtain ⟨_, _, _, ⟨hinv, _⟩, _⟩ :=
    simulates_step hok l ⟨h, ⟨⟨_, rfl⟩, List.Sublist.refl s.pending⟩⟩
      (t := s.host.rebase s.pending 0) hs
  exact hinv

theorem enabled_of_step {l : Label} (hs : step l s = some s') : s.host.oopsed = false := by
  unfold step at hs
  split at hs
  · cases hs
  · rename_i hno
    exact Bool.eq_false_iff.mpr hno

theorem sublist_step (hok : FramesOk frames) (l : Label)
    (h : (∃ q, Inv frames s q) ∧ (s.dispatched ++ s.pending).Sublist s.answered)
    (hs : step l s = some s') :
    (∃ q, Inv frames s' q) ∧ (s'.dispatched ++ s'.pending).Sublist s'.answered := by
  obtain ⟨⟨q, hinv⟩, hsub⟩ := h
  obtain ⟨new, gone, hbooks⟩ := books_step hok hinv hs
  refine ⟨inv_step hok l ⟨q, hinv⟩ hs, ?_⟩
  rw [hbooks.answered, hbooks.dispatched, List.append_assoc]
  refine (hbooks.kept.append_left s.dispatched).trans ?_
  rw [← List.append_assoc]
  exact hsub.append (List.Sublist.refl new)

theorem exact_step (hok : FramesOk frames) (hfew : Few frames) (l : Label)
    (h : (∃ q, Inv frames s q) ∧
      (s.host.oopsed = false → s.answered = s.dispatched ++ s.pending))
    (hl : l.drops = false) (hs : step l s = some s') :
    (∃ q, Inv frames s' q) ∧
      (s'.host.oopsed = false → s'.answered = s'.dispatched ++ s'.pending) := by
  obtain ⟨⟨q, hinv⟩, heq⟩ := h
  obtain ⟨new, gone, hbooks⟩ := books_step hok hinv hs
  refine ⟨inv_step hok l ⟨q, hinv⟩ hs, fun hoops => ?_⟩
  rw [hbooks.answered, hbooks.dispatched, List.append_assoc, hbooks.all ⟨hfew, hl⟩ hoops,
    heq (enabled_of_step hs), List.append_assoc]

end Runs

/-- A step of the backstop thread or of the bottom half, at debug level 0. -/
def Label.isBackstop : Label → Bool
  | .poll debug | .process debug => debug == 0
  | .start | .loop | .giveBack => true
  | _ => false

/-- Steps of the backstop thread and the bottom half lead from `s` to `s'`. -/
def Drives (s s' : Sys) : Prop := Leads step (fun l _ => l.isBackstop = true) s s'

/-- The system is sound and has not crashed. -/
structure Alive (frames : List UInt32) (s : Sys) : Prop where
  inv : ∃ q, Inv frames s q
  running : s.host.oopsed = false

/-- The system has come to `s'` with all packets still on their way. -/
structure Comes (frames : List UInt32) (s s' : Sys) : Prop where
  drives : Drives s s'
  alive : Alive frames s'
  still : Still s s'

section Backstop

variable {frames : List UInt32} {s s' s₁ : Sys} {mfa : UInt32}

theorem Still.trans (h : Still s s₁) (h' : Still s₁ s') : Still s s' where
  host := by
    obtain ⟨n, hn⟩ := h.host
    obtain ⟨m, hm⟩ := h'.host
    refine ⟨m, ?_⟩
    rw [hm, hn]
    rfl
  transit := h'.transit.trans h.transit
  packets := h'.packets.trans h.packets
  answered := h'.answered.trans h.answered
  dispatched := h'.dispatched.trans h.dispatched

theorem Comes.trans (h : Comes frames s s₁) (h' : Comes frames s₁ s') : Comes frames s s' :=
  ⟨Leads.trans h.drives h'.drives, h'.alive, h.still.trans h'.still⟩

/-- One step that moves no packet. -/
theorem comes_step (hok : FramesOk frames) (h : Alive frames s) {l : Label}
    (hl : l.isBackstop = true) (hs : step l s = some s') (hstill : Still s s') :
    Comes frames s s' := by
  refine ⟨leads_step hl hs, ⟨inv_step hok l h.inv hs, ?_⟩, hstill⟩
  obtain ⟨n, hn⟩ := hstill.host
  rw [hn]
  exact h.running

theorem Alive.io (h : Alive frames s) : s.io.oopsed = false := by
  obtain ⟨q, hinv⟩ := h.inv
  exact hinv.oopsed.trans h.running

/-- A step of a system that has not crashed. -/
theorem Alive.step_eq (h : Alive frames s) {o : Option Sys} :
    (if s.host.oopsed then none else o) = o := by
  rw [h.running, if_neg Bool.false_ne_true]

theorem comes_start (hok : FramesOk frames) (h : Alive frames s) (hbh : s.io.bh = .idle) :
    ∃ s', Comes frames s s' ∧ s'.io.bh = .loop ∧
      Frames.queued s'.io.streambuf = Frames.queued s.io.streambuf := by
  obtain ⟨q, hinv⟩ := h.inv
  have hio : s.ioStep .start = some (s.withIo { s.io with bh := .loop, scheduled := false }) := by
    unfold Sys.ioStep Frames.step
    rw [if_neg (by rw [h.io]; exact Bool.false_ne_true), hbh]
    rfl
  have hs : step .start s = _ := h.step_eq.trans hio
  exact ⟨_, comes_step hok h rfl hs (hinv.still_start hio).2, rfl, rfl⟩

theorem comes_giveBack (hok : FramesOk frames) (h : Alive frames s)
    (hbh : s.io.bh = .giveBack mfa) : ∃ s', Comes frames s s' ∧ s'.io.bh = .loop := by
  obtain ⟨q, hinv⟩ := h.inv
  have hio : s.ioStep .giveBack = some (s.withIo (s.io.bhGiveBack mfa)) := by
    unfold Sys.ioStep Frames.step
    rw [if_neg (by rw [h.io]; exact Bool.false_ne_true), hbh]
    rfl
  have hs : step .giveBack s = _ := h.step_eq.trans hio
  exact ⟨_, comes_step hok h rfl hs (hinv.still_giveBack hio).2, rfl⟩

/-- The loop test takes a frame if the ring holds one, and else ends the
bottom half. -/
theorem comes_loop (hok : FramesOk frames) (h : Alive frames s) (hbh : s.io.bh = .loop) :
    ∃ s', Comes frames s s' ∧
      (Frames.queued s.io.streambuf = [] ∧ s'.io.bh = .idle ∨ ∃ mfa, s'.io.bh = .process mfa) := by
  obtain ⟨q, hinv⟩ := h.inv
  have hio : s.ioStep .loop = some (s.withIo s.io.bhLoop) := by
    unfold Sys.ioStep Frames.step
    rw [if_neg (by rw [h.io]; exact Bool.false_ne_true), hbh]
    rfl
  have hs : step .loop s = _ := h.step_eq.trans hio
  refine ⟨_, comes_step hok h rfl hs (hinv.still_loop hio).2, ?_⟩
  rcases bhLoop_cases s.io with ⟨hend, hkeep⟩ | ⟨mfa, htake, _⟩
  · have horder := (hinv.io.bhLoop hbh).order
    rw [hkeep.arrived, hkeep.served, hend, hinv.io.order, hbh] at horder
    have hqueue := List.append_cancel_left horder
    cases hq : q.queue with
    | nil => exact Or.inl ⟨(Frames.queued_eq hinv.io.rep).trans hq, hend⟩
    | cons mfa rest =>
      -- A frame in the ring would have been taken.
      rw [PutBackQueue.get_cons hq, hq] at hqueue
      exact absurd hqueue (List.cons_ne_self _ _)
  · exact Or.inr ⟨mfa, htake⟩

/-- A poll of the backstop thread puts the first frame into an empty ring. -/
theorem comes_poll (hok : FramesOk frames) (h : Alive frames s)
    (hring : Frames.queued s.io.streambuf = []) (hout : s.outbound ≠ []) :
    ∃ s', Comes frames s s' ∧ s'.io.bh = s.io.bh ∧ Frames.queued s'.io.streambuf ≠ [] := by
  obtain ⟨q, hinv⟩ := h.inv
  have hio : s.popOutbound.ioStep (.poll s.oqp 0)
      = some (s.popOutbound.withIo (s.io.handleIncomingMessage s.oqp 0)) := by
    unfold Sys.ioStep Frames.step
    rw [if_neg]
    · rfl
    · show ¬ s.io.oopsed = true
      rw [h.io]
      exact Bool.false_ne_true
  have hs : step (.poll 0) s = _ := h.step_eq.trans hio
  obtain ⟨q', into, hinv', hstill, hbh, hsplit, hqueue⟩ :=
    hinv.still_fetch hok (fun _ => hinv.room_of_empty hring) (by decide) (Or.inr rfl) hio
  refine ⟨_, comes_step hok h rfl hs hstill, hbh, ?_⟩
  rw [Frames.queued_eq hinv'.io.rep, hqueue]
  intro hempty
  rw [List.append_eq_nil_iff] at hempty
  rw [hempty.2, List.nil_append] at hsplit
  have hlen := congrArg List.length hsplit
  rw [List.length_tail] at hlen
  have hpos := List.length_pos_iff.mpr hout
  omega

/-- The bottom half has a frame in its hands. -/
def Busy (s : Sys) : Prop := ∃ mfa, s.io.bh = .process mfa

theorem busy_of_loop (hok : FramesOk frames) (h : Alive frames s) (hbh : s.io.bh = .loop)
    (hring : Frames.queued s.io.streambuf ≠ []) : ∃ s', Comes frames s s' ∧ Busy s' := by
  obtain ⟨s', hs', ⟨hempty, _⟩ | hbusy⟩ := comes_loop hok h hbh
  · exact absurd hempty hring
  · exact ⟨s', hs', hbusy⟩

theorem busy_of_idle_ring (hok : FramesOk frames) (h : Alive frames s) (hbh : s.io.bh = .idle)
    (hring : Frames.queued s.io.streambuf ≠ []) : ∃ s', Comes frames s s' ∧ Busy s' := by
  obtain ⟨s₁, hs₁, hloop, hsame⟩ := comes_start hok h hbh
  obtain ⟨s', hs', hbusy⟩ := busy_of_loop hok hs₁.alive hloop (hsame ▸ hring)
  exact ⟨s', hs₁.trans hs', hbusy⟩

/-- A bottom half at rest gets every frame in transit, with a poll if the ring
is empty. -/
theorem busy_of_idle (hok : FramesOk frames) (h : Alive frames s)
    (hbh : s.io.bh = .idle) (htransit : s.inTransit ≠ []) : ∃ s', Comes frames s s' ∧ Busy s' := by
  by_cases hring : Frames.queued s.io.streambuf = []
  · have hout : s.outbound ≠ [] := by
      rw [Sys.inTransit, unread_idle (fun _ he => by rw [hbh] at he; cases he), hring] at htransit
      exact htransit
    obtain ⟨s₁, hs₁, hbh₁, hring₁⟩ := comes_poll hok h hring hout
    obtain ⟨s', hs', hbusy⟩ := busy_of_idle_ring hok hs₁.alive (hbh₁.trans hbh) hring₁
    exact ⟨s', hs₁.trans hs', hbusy⟩
  · exact busy_of_idle_ring hok h hbh hring

/-- The bottom half comes to rest, or has a frame in its hands. -/
theorem idle_or_busy (hok : FramesOk frames) (h : Alive frames s) :
    ∃ s', Comes frames s s' ∧ (s'.io.bh = .idle ∨ Busy s') := by
  have hrefl : Comes frames s s := by
    refine ⟨⟨[], trivial, rfl⟩, h, ⟨s.host.dev.i2oPacketsDiscarded, rfl⟩, rfl, rfl, rfl, rfl⟩
  have hloop : ∀ {s : Sys}, Alive frames s → s.io.bh = .loop →
      ∃ s', Comes frames s s' ∧ (s'.io.bh = .idle ∨ Busy s') := by
    intro s h hbh
    obtain ⟨s', hs', ⟨_, hidle⟩ | hbusy⟩ := comes_loop hok h hbh
    · exact ⟨s', hs', Or.inl hidle⟩
    · exact ⟨s', hs', Or.inr hbusy⟩
  cases hbh : s.io.bh with
  | idle => exact ⟨s, hrefl, Or.inl hbh⟩
  | loop => exact hloop h hbh
  | process mfa => exact ⟨s, hrefl, Or.inr ⟨mfa, hbh⟩⟩
  | giveBack mfa =>
    obtain ⟨s₁, hs₁, hbh₁⟩ := comes_giveBack hok h hbh
    obtain ⟨s', hs', hend⟩ := hloop hs₁.alive hbh₁
    exact ⟨s', hs₁.trans hs', hend⟩

theorem busy_of_transit (hok : FramesOk frames) (h : Alive frames s)
    (htransit : s.inTransit ≠ []) : ∃ s', Comes frames s s' ∧ Busy s' := by
  obtain ⟨s₁, hs₁, hidle | hbusy⟩ := idle_or_busy hok h
  · rw [← hs₁.still.transit] at htransit
    obtain ⟨s', hs', hbusy⟩ := busy_of_idle hok hs₁.alive hidle htransit
    exact ⟨s', hs₁.trans hs', hbusy⟩
  · exact ⟨s₁, hs₁, hbusy⟩

theorem not_busy_of_empty (h : Alive frames s) (htransit : s.inTransit = []) : ¬ Busy s := by
  rintro ⟨mfa, hbh⟩
  rw [Sys.inTransit, unread_process hbh h.io] at htransit
  cases htransit

/-- What the backstop and the bottom half can bring about. -/
structure Delivered (frames : List UInt32) (s s' : Sys) : Prop where
  alive : Alive frames s'
  idle : s'.io.bh = .idle
  transit : s'.inTransit = []
  dispatched : s'.dispatched = s.dispatched ++ s.pending

theorem Comes.delivered {s₁ : Sys} (h : Comes frames s s₁) (h' : Delivered frames s₁ s') :
    Delivered frames s s' := by
  refine ⟨h'.alive, h'.idle, h'.transit, ?_⟩
  rw [h'.dispatched, h.still.dispatched, h.still.pending]

/-- The loop body deals with one frame. -/
theorem process_one (h : Alive frames s) (hbh : s.io.bh = .process mfa) :
    ∃ s', Drives s s' ∧ Processed s s' mfa 0 ∧ (∃ q, Inv frames s' q) := by
  obtain ⟨q, hinv⟩ := h.inv
  have hstep : Frames.step (.process (s.packetAt mfa).message 0) s.io
      = some (s.io.bhProcess mfa (s.packetAt mfa).message 0) := by
    unfold Frames.step
    rw [if_neg (by rw [h.io]; exact Bool.false_ne_true), hbh]
  have hio : ∃ s', s.process mfa 0 = some s' := ⟨_, congrArg (Option.map _) hstep⟩
  obtain ⟨s', hio⟩ := hio
  have hs : step (.process 0) s = some s' := by
    refine h.step_eq.trans ?_
    rw [hbh]
    exact hio
  obtain ⟨hinv', hprocessed⟩ := hinv.process h.running hbh hio
  exact ⟨s', leads_step rfl hs, hprocessed, hinv'⟩

/-- Every frame in transit gets to the bottom half, by induction on how many
there are. -/
theorem deliver (hok : FramesOk frames) (n : Nat) :
    ∀ {s : Sys}, Alive frames s → s.inTransit.length = n →
      ∃ s', Drives s s' ∧ (s'.host.oopsed = true ∨ Delivered frames s s') := by
  induction n with
  | zero =>
    intro s h hlen
    have hempty := List.length_eq_zero_iff.mp hlen
    obtain ⟨s', hs', hidle | hbusy⟩ := idle_or_busy hok h
    · have htransit := hs'.still.transit.trans hempty
      refine ⟨s', hs'.drives, Or.inr ⟨hs'.alive, hidle, htransit, ?_⟩⟩
      rw [hs'.still.dispatched, Sys.pending, hempty]
      exact (List.append_nil _).symm
    · exact absurd hbusy (not_busy_of_empty hs'.alive (hs'.still.transit.trans hempty))
  | succ n ih =>
    intro s h hlen
    have hne : s.inTransit ≠ [] := by
      rintro hempty
      rw [hempty] at hlen
      cases hlen
    obtain ⟨s₁, hs₁, mfa, hbh⟩ := busy_of_transit hok h hne
    obtain ⟨s₂, hdrives, hprocessed, hinv⟩ := process_one hs₁.alive hbh
    have hreach : Drives s s₂ := Leads.trans hs₁.drives hdrives
    cases hoops : s₂.host.oopsed with
    | true => exact ⟨s₂, hreach, Or.inl hoops⟩
    | false =>
      have hlen₂ : s₂.inTransit.length = n := by
        have htransit := hprocessed.transit
        rw [hs₁.still.transit] at htransit
        rw [htransit, List.length_cons] at hlen
        omega
      obtain ⟨s', hs', hend⟩ := ih ⟨hinv, hoops⟩ hlen₂
      refine ⟨s', Leads.trans hreach hs', hend.imp_right fun hdelivered => ?_⟩
      refine hs₁.delivered ⟨hdelivered.alive, hdelivered.idle, hdelivered.transit, ?_⟩
      rw [hdelivered.dispatched, hprocessed.dispatched, if_neg (by decide), hprocessed.pending,
        List.append_assoc]

end Backstop

/-- A read that has been answered, with the interrupt lost. -/
def lostInterrupt : List Label := oneRead.take 10

end Acq200.Transport
