import Mathlib.Data.List.Perm.Basic
import Acq200.Lib.Simulation
import Acq200.Rch.Rebase
import Acq200.Frames.Conservation
import Acq200.Frames.Transport

/-!
# The ring and the bottom half refine the atomic dispatch of replies

`Rch.Sys` lets the bottom half dispatch any reply at any moment in one step.
`transport_refines` justifies that: a run of the whole system, with the
card's frames, the ring and the bottom half, looks to the clients like a
run of `Rch.Sys`, and dispatches the same replies in the same order.

The argument rests on who holds a frame.  `Inv` says that each frame of the
card is in one place, so that the card never writes into a frame whose
message has not been read.
-/

namespace Acq200.Transport

open Acq200.Lib Acq200.StreamBuf

/-! ## What a read of the outbound queue does -/

/-- The driver has written the frames `back` to `ACQ200_OQP` and has put the
frames `into` into its ring, and has done no more. -/
structure Moved (io io' : Frames.Sys) (back into : List UInt32) : Prop where
  bh : io'.bh = io.bh
  oopsed : io'.oopsed = io.oopsed
  served : io'.served = io.served
  rch : ∃ n, io'.rch = io.rch.recount n
  written : io'.written = io.written ++ back
  arrived : io'.arrived = io.arrived ++ into

section Fetch

/-- A frame goes straight back only at debug level 8 or when the ring is
full. -/
theorem moved_consume (io : Frames.Sys) (mfa : UInt32) (debug : Int) :
    (debug = 8 ∨ genericIntBufIsFull io.streambuf = true) ∧
        Moved io (io.consumeI2o mfa debug) [mfa] [] ∨
      Moved io (io.consumeI2o mfa debug) [] [mfa] := by
  rw [Frames.Sys.consumeI2o]
  split
  · rename_i hdebug
    exact Or.inl ⟨Or.inl hdebug, rfl, rfl, rfl, ⟨io.rch.i2oPacketsDiscarded, rfl⟩, rfl,
      (List.append_nil _).symm⟩
  · dsimp only
    split
    · rename_i hput
      refine Or.inl ⟨Or.inr ?_, rfl, rfl, rfl, ⟨io.rch.i2oPacketsDiscarded + 1, rfl⟩, rfl,
        (List.append_nil _).symm⟩
      cases hfull : genericIntBufIsFull io.streambuf with
      | true => rfl
      | false =>
        rw [streamPut, genericIntBufPut_of_not_full hfull] at hput
        exact absurd hput (Int.lt_irrefl 0)
    · exact Or.inr ⟨rfl, rfl, rfl, ⟨io.rch.i2oPacketsDiscarded, rfl⟩, (List.append_nil _).symm, rfl⟩

variable {io : Frames.Sys}

theorem moved_refl : Moved io io [] [] :=
  ⟨rfl, rfl, rfl, ⟨io.rch.i2oPacketsDiscarded, rfl⟩, (List.append_nil _).symm,
    (List.append_nil _).symm⟩

/-- Both ways of reading the queue treat a frame alike, and keep nothing of a
read that finds none. -/
theorem moved_read {io' : Frames.Sys} {l : Frames.Label} {mfa : UInt32} {debug : Int}
    (hl : l = .interrupt mfa debug ∨ l = .poll mfa debug)
    (hs : Frames.step l io = some io') :
    ∃ back into, back ++ into = (if Frames.Sys.validMfa mfa then [mfa] else []) ∧
      (back = [] ∨ debug = 8 ∨ genericIntBufIsFull io.streambuf = true) ∧
      Moved io io' back into := by
  have hconsume : ∀ io₁ : Frames.Sys, io₁ = { io with
        badMfaCount := 0, popped := io.popped ++ [mfa] }.consumeI2o mfa debug →
      ∃ back into, back ++ into = [mfa] ∧
        (back = [] ∨ debug = 8 ∨ genericIntBufIsFull io.streambuf = true) ∧
        Moved io io₁ back into := by
    rintro io₁ rfl
    obtain ⟨hlost, h⟩ | h :=
      moved_consume { io with badMfaCount := 0, popped := io.popped ++ [mfa] } mfa debug
    · exact ⟨[mfa], [], rfl, Or.inr hlost, h.bh, h.oopsed, h.served, h.rch, h.written, h.arrived⟩
    · exact ⟨[], [mfa], rfl, Or.inl rfl, h.bh, h.oopsed, h.served, h.rch, h.written, h.arrived⟩
  have hnone : ∀ io₁ : Frames.Sys, Moved io io₁ [] [] →
      ∃ back into, back ++ into = [] ∧
        (back = [] ∨ debug = 8 ∨ genericIntBufIsFull io.streambuf = true) ∧
        Moved io io₁ back into :=
    fun io₁ h => ⟨[], [], rfl, Or.inl rfl, h⟩
  unfold Frames.step at hs
  split at hs
  · cases hs
  · obtain rfl | rfl := hl
    · obtain rfl := Option.some.inj hs
      rw [Frames.Sys.incomingMessageIsr]
      by_cases hvalid : Frames.Sys.validMfa mfa = true
      · rw [if_pos hvalid, if_pos hvalid]
        exact hconsume _ rfl
      · rw [if_neg hvalid, if_neg hvalid]
        exact hnone _ ⟨rfl, rfl, rfl, ⟨io.rch.i2oPacketsDiscarded, rfl⟩,
          (List.append_nil _).symm, (List.append_nil _).symm⟩
    · obtain rfl := Option.some.inj hs
      rw [Frames.Sys.handleIncomingMessage]
      by_cases hvalid : Frames.Sys.validMfa mfa = true
      · rw [if_pos hvalid, if_pos hvalid]
        exact hconsume _ rfl
      · rw [if_neg hvalid, if_neg hvalid]
        exact hnone _ moved_refl

end Fetch

/-! ## What the bottom half does -/

section BottomHalf

variable {io io' : Frames.Sys}

theorem step_start (h : Frames.step .start io = some io') :
    io.oopsed = false ∧ io.bh = .idle ∧ io' = { io with bh := .loop, scheduled := false } := by
  unfold Frames.step at h
  split at h
  · cases h
  · rename_i hoops
    cases hbh : io.bh with
    | idle =>
      rw [hbh] at h
      exact ⟨Bool.eq_false_iff.mpr hoops, rfl, (Option.some.inj h).symm⟩
    | _ =>
      rw [hbh] at h
      cases h

theorem step_loop (h : Frames.step .loop io = some io') :
    io.oopsed = false ∧ io.bh = .loop ∧ io' = io.bhLoop := by
  unfold Frames.step at h
  split at h
  · cases h
  · rename_i hoops
    cases hbh : io.bh with
    | loop =>
      rw [hbh] at h
      exact ⟨Bool.eq_false_iff.mpr hoops, rfl, (Option.some.inj h).symm⟩
    | _ =>
      rw [hbh] at h
      cases h

theorem step_giveBack (h : Frames.step .giveBack io = some io') :
    ∃ mfa, io.bh = .giveBack mfa ∧ io' = io.bhGiveBack mfa := by
  unfold Frames.step at h
  split at h
  · cases h
  · cases hbh : io.bh with
    | giveBack mfa =>
      rw [hbh] at h
      exact ⟨mfa, rfl, (Option.some.inj h).symm⟩
    | _ =>
      rw [hbh] at h
      cases h

/-- The books of the frames are as before. -/
structure KeepsBooks (io io' : Frames.Sys) : Prop where
  rch : io'.rch = io.rch
  oopsed : io'.oopsed = io.oopsed
  written : io'.written = io.written
  arrived : io'.arrived = io.arrived
  served : io'.served = io.served

/-- The loop test ends the bottom half or takes a frame. -/
theorem bhLoop_cases (io : Frames.Sys) :
    (io.bhLoop.bh = .idle ∧ KeepsBooks io io.bhLoop) ∨
      ∃ mfa, io.bhLoop.bh = .process mfa ∧ KeepsBooks io io.bhLoop := by
  rw [Frames.Sys.bhLoop]
  dsimp only
  split
  · exact Or.inl ⟨rfl, rfl, rfl, rfl, rfl, rfl⟩
  · exact Or.inr ⟨_, rfl, rfl, rfl, rfl, rfl, rfl⟩

theorem step_process {mfa : UInt32} {message : Frames.Message} {debug : Int}
    (hbh : io.bh = .process mfa) (h : Frames.step (.process message debug) io = some io') :
    io' = io.bhProcess mfa message debug := by
  unfold Frames.step at h
  split at h
  · cases h
  · rw [hbh] at h
    exact (Option.some.inj h).symm

/-- The loop body up to the return of the frame leaves the frame where it is. -/
structure Looked (io io' : Frames.Sys) : Prop where
  arrived : io'.arrived = io.arrived
  served : io'.served = io.served
  written : io'.written = io.written
  inProcess : io'.bh.inProcess = io.bh.inProcess
  unread : unread io' = []

/-- What the loop body does about a message. -/
inductive Outcome (io io' : Frames.Sys) (message : Frames.Message) (debug : Int) : Prop where
  | skipped (hdebug : debug = 7) (hrch : io'.rch = io.rch) (hoops : io'.oopsed = io.oopsed)
  | discarded (hdebug : debug ≠ 7)
      (htype : Frames.mtId message.type ≠ Frames.MT_COMMAND_PACKET)
      (hrch : ∃ n, io'.rch = io.rch.recount n) (hoops : io'.oopsed = io.oopsed)
  | crashed (hdebug : debug ≠ 7)
      (htype : Frames.mtId message.type = Frames.MT_COMMAND_PACKET)
      (hnone : io.rch.processCommandMessageReturn message.id message.start message.nsamples
        = none)
      (hrch : io'.rch = io.rch) (hoops : io'.oopsed = true)
  | handled (hdebug : debug ≠ 7)
      (htype : Frames.mtId message.type = Frames.MT_COMMAND_PACKET)
      (hsome : io.rch.processCommandMessageReturn message.id message.start message.nsamples
        = some io'.rch)
      (hoops : io'.oopsed = io.oopsed)

theorem looked_process {mfa : UInt32} (hbh : io.bh = .process mfa)
    (haux : io.auxTaskWaiting = false) (message : Frames.Message) (debug : Int) :
    Looked io (io.bhProcess mfa message debug) ∧
      Outcome io (io.bhProcess mfa message debug) message debug := by
  have hin : (Frames.Bh.giveBack mfa).inProcess = io.bh.inProcess := by
    rw [hbh]
    rfl
  rw [Frames.Sys.bhProcess]
  split
  · rename_i hdebug
    exact ⟨⟨rfl, rfl, rfl, hin, rfl⟩, .skipped hdebug rfl rfl⟩
  · rename_i hdebug
    split
    · rename_i htype
      split
      · rename_i hnone
        refine ⟨⟨rfl, rfl, rfl, rfl, ?_⟩, .crashed hdebug htype hnone rfl rfl⟩
        unfold unread
        rw [hbh]
      · rename_i hsome
        exact ⟨⟨rfl, rfl, rfl, hin, rfl⟩, .handled hdebug htype hsome rfl⟩
    · rename_i htype
      rw [haux, if_neg Bool.false_ne_true]
      exact ⟨⟨rfl, rfl, rfl, hin, rfl⟩,
        .discarded hdebug htype ⟨io.rch.i2oPacketsDiscarded + 1, rfl⟩ rfl⟩

end BottomHalf

/-! ## Who holds a frame -/

/-- Every frame of the card is in one place: with the card, in its outbound
queue, in the ring, or with the bottom half. -/
structure Inv (frames : List UInt32) (s : Sys) (q : PutBackQueue UInt32) : Prop where
  io : Frames.Inv s.io q
  dev : s.io.rch = s.host.dev
  oopsed : s.io.oopsed = s.host.oopsed
  held : (s.free ++ s.outbound ++ q.queue ++ s.io.bh.inProcess).Perm frames

section Held

variable {frames : List UInt32} {s s' : Sys} {q q' : PutBackQueue UInt32} {mfa : UInt32}

theorem inv_start (lastId : BitVec 16) (oimr : BitVec 32) (frames : List UInt32) :
    Inv frames (initial lastId oimr frames) PutBackQueue.empty where
  io := Frames.inv_initial _ oimr
  dev := rfl
  oopsed := rfl
  held := by
    simp [initial, Frames.initial, PutBackQueue.empty, Frames.Bh.inProcess]

theorem unread_subset (io : Frames.Sys) : unread io ⊆ io.bh.inProcess := by
  intro mfa hmem
  unfold unread at hmem
  split at hmem
  · rename_i hbh _
    rw [hbh]
    exact hmem
  · cases hmem

/-- A frame in transit is not in the hands of the card. -/
theorem Inv.apart (h : Inv frames s q) (hok : FramesOk frames) (hfree : mfa ∈ s.free)
    {other : UInt32} (hother : other ∈ s.inTransit) :
    devI2oMfa2va other ≠ devI2oMfa2va mfa := by
  have hnodup : ((s.free ++ (s.outbound ++ q.queue ++ s.io.bh.inProcess)).map
      devI2oMfa2va).Nodup := by
    refine (List.Perm.nodup_iff (List.Perm.map _ ?_)).mpr hok.apart
    rw [← List.append_assoc, ← List.append_assoc]
    exact h.held
  rw [List.map_append] at hnodup
  have hmem : other ∈ s.outbound ++ q.queue ++ s.io.bh.inProcess := by
    rw [Sys.inTransit, Frames.queued_eq h.io.rep] at hother
    simp only [List.mem_append] at hother ⊢
    rcases hother with (hunread | hqueue) | houtbound
    · exact Or.inr (unread_subset s.io hunread)
    · exact Or.inl (Or.inr hqueue)
    · exact Or.inl (Or.inl houtbound)
  intro heq
  exact (List.nodup_append.mp hnodup).2.2 _ (List.mem_map_of_mem hfree) _
    (List.mem_map_of_mem hmem) heq.symm

/-- The card writes into a frame of its own, so what is pending stays as it
is and the new packet comes last. -/
theorem Inv.pending_post (h : Inv frames s q) (hok : FramesOk frames) (hfree : mfa ∈ s.free)
    (packet : Packet) :
    (s.post mfa packet).pending = s.pending ++ packet.answers.toList := by
  have hkeep : ∀ other ∈ s.inTransit, ((s.post mfa packet).packetAt other).answers
      = (s.packetAt other).answers := by
    intro other hother
    have hne := h.apart hok hfree hother
    show (Function.update s.packets (devI2oMfa2va mfa) packet (devI2oMfa2va other)).answers = _
    rw [Function.update_of_ne hne]
    rfl
  have hnew : ((s.post mfa packet).packetAt mfa).answers = packet.answers := by
    show (Function.update s.packets (devI2oMfa2va mfa) packet (devI2oMfa2va mfa)).answers = _
    rw [Function.update_self]
  have htransit : (s.post mfa packet).inTransit = s.inTransit ++ [mfa] := by
    show unread s.io ++ Frames.queued s.io.streambuf ++ (s.outbound ++ [mfa]) = _
    rw [Sys.inTransit, List.append_assoc _ s.outbound]
  rw [Sys.pending, htransit, Sys.answersIn, List.filterMap_append,
    List.filterMap_congr hkeep, List.filterMap_cons, hnew]
  cases packet.answers <;> rfl

theorem Inv.post (h : Inv frames s q) (hfree : mfa ∈ s.free) (packet : Packet) :
    Inv frames (s.post mfa packet) q where
  io := h.io
  dev := h.dev
  oopsed := h.oopsed
  held := by
    have hheld := h.held
    have herase := List.perm_cons_erase hfree
    rw [List.perm_iff_count] at hheld herase ⊢
    intro a
    have h1 := hheld a
    have h2 := herase a
    show List.count a (s.free.erase mfa ++ (s.outbound ++ [mfa]) ++ q.queue
      ++ s.io.bh.inProcess) = _
    simp only [List.count_append, List.count_cons, List.count_nil] at h1 h2 ⊢
    omega

/-- The frames of the ring, read off the order of their arrival. -/
theorem queue_of_order {io io' : Frames.Sys} (h : Frames.Inv io q) (h' : Frames.Inv io' q')
    (into : List UInt32) (harrived : io'.arrived = io.arrived ++ into)
    (hserved : io'.served = io.served) (hbh : io'.bh.inProcess = io.bh.inProcess) :
    q'.queue = q.queue ++ into := by
  have horder := h'.order
  rw [harrived, h.order, hserved, hbh, List.append_assoc _ q.queue] at horder
  exact (List.append_cancel_left horder).symm

/-! ## The steps of the ring and the bottom half -/

/-- A step that dispatches nothing.  It leaves the clients alone, and it takes
no packet in but may drop some. -/
structure Quiet (s s' : Sys) : Prop where
  host : ∃ n, s'.host = { s.host with dev := s.host.dev.recount n }
  pending : s'.pending.Sublist s.pending
  answered : s'.answered = s.answered
  dispatched : s'.dispatched = s.dispatched

theorem answersIn_append (s : Sys) (as bs : List UInt32) :
    s.answersIn (as ++ bs) = s.answersIn as ++ s.answersIn bs := List.filterMap_append

theorem unread_congr {io io' : Frames.Sys} (hbh : io'.bh = io.bh) (hoops : io'.oopsed = io.oopsed) :
    unread io' = unread io := by
  unfold unread
  rw [hbh, hoops]

/-- The queue of the card, and what reading it yields. -/
theorem outbound_split (s : Sys) (hok : FramesOk frames)
    (hmem : ∀ mfa ∈ s.outbound, mfa ∈ frames) :
    s.outbound = (if Frames.Sys.validMfa s.oqp then [s.oqp] else []) ++ s.outbound.tail := by
  cases hout : s.outbound with
  | nil =>
    rw [Sys.oqp, hout, List.headD_nil, if_neg (by decide)]
    rfl
  | cons mfa rest =>
    have hvalid := hok.valid mfa (hmem mfa (by rw [hout]; exact List.mem_cons_self))
    rw [Sys.oqp, hout, List.headD_cons, if_pos hvalid]
    rfl

theorem Inv.outbound_mem (h : Inv frames s q) : ∀ mfa ∈ s.outbound, mfa ∈ frames := by
  intro mfa hmfa
  refine h.held.subset ?_
  simp only [List.mem_append]
  exact Or.inl (Or.inl (Or.inr hmfa))

/-- An interrupt or a poll.  The frame that it finds goes into the ring or
straight back to the card. -/
theorem Inv.fetch (h : Inv frames s q) (hok : FramesOk frames) {l : Frames.Label} {debug : Int}
    (hl : l = .interrupt s.oqp debug ∨ l = .poll s.oqp debug)
    (hs : s.popOutbound.ioStep l = some s') :
    ∃ q' back into, Inv frames s' q' ∧ s.outbound = back ++ into ++ s.outbound.tail ∧
      (back = [] ∨ debug = 8 ∨ genericIntBufIsFull s.io.streambuf = true) ∧
      Moved s.io s'.io back into ∧ s' = s.popOutbound.withIo s'.io ∧
      s'.inTransit = unread s.io ++ q.queue ++ into ++ s.outbound.tail := by
  obtain ⟨io', hstep, rfl⟩ := Option.map_eq_some_iff.mp hs
  have hio : Frames.step l s.io = some io' := hstep
  obtain ⟨back, into, hread, hlost, hmoved⟩ := moved_read hl hio
  obtain ⟨q', hinv⟩ := Frames.inv_step l s.io io' ⟨q, h.io⟩ hio
  have hqueue := queue_of_order h.io hinv into hmoved.arrived hmoved.served
    (congrArg Frames.Bh.inProcess hmoved.bh)
  have hsplit : s.outbound = back ++ into ++ s.outbound.tail := by
    rw [hread]
    exact outbound_split s hok h.outbound_mem
  refine ⟨q', back, into, ⟨hinv, rfl, rfl, ?_⟩, hsplit, hlost, hmoved, rfl, ?_⟩
  · have hheld := h.held
    rw [hsplit] at hheld
    show (s.free ++ io'.written.drop s.io.written.length ++ s.outbound.tail ++ q'.queue
      ++ io'.bh.inProcess).Perm frames
    rw [hmoved.written, List.drop_left, hqueue, hmoved.bh]
    rw [List.perm_iff_count] at hheld ⊢
    intro a
    have hcount := hheld a
    simp only [List.count_append] at hcount ⊢
    omega
  · show unread io' ++ Frames.queued io'.streambuf ++ s.outbound.tail = _
    rw [unread_congr hmoved.bh hmoved.oopsed, Frames.queued_eq hinv.rep, hqueue]
    simp only [List.append_assoc]

theorem Inv.quiet_fetch (h : Inv frames s q) (hok : FramesOk frames) {l : Frames.Label}
    {debug : Int} (hl : l = .interrupt s.oqp debug ∨ l = .poll s.oqp debug)
    (hs : s.popOutbound.ioStep l = some s') : (∃ q', Inv frames s' q') ∧ Quiet s s' := by
  obtain ⟨q', back, into, hinv, hsplit, _, hmoved, hs', htransit⟩ := h.fetch hok hl hs
  refine ⟨⟨q', hinv⟩, ?_, ?_, ?_, ?_⟩
  · obtain ⟨n, hn⟩ := hmoved.rch
    refine ⟨n, ?_⟩
    rw [hs']
    show { s.host with dev := s'.io.rch, oopsed := s'.io.oopsed } = _
    rw [hn, hmoved.oopsed, h.dev, h.oopsed]
  · have hold : s.inTransit = unread s.io ++ q.queue ++ (back ++ into ++ s.outbound.tail) := by
      rw [Sys.inTransit, Frames.queued_eq h.io.rep, ← hsplit]
    rw [Sys.pending, Sys.pending, htransit, hold, hs']
    show (s.answersIn _).Sublist _
    simp only [answersIn_append, List.append_assoc]
    refine List.Sublist.append_left (List.Sublist.append_left ?_ _) _
    exact List.sublist_append_right _ _
  · rw [hs']
    rfl
  · rw [hs']
    rfl

/-- A step that changes nothing but where the frames are. -/
structure Still (s s' : Sys) : Prop where
  host : ∃ n, s'.host = { s.host with dev := s.host.dev.recount n }
  transit : s'.inTransit = s.inTransit
  packets : s'.packets = s.packets
  answered : s'.answered = s.answered
  dispatched : s'.dispatched = s.dispatched

theorem Still.pending (h : Still s s') : s'.pending = s.pending := by
  rw [Sys.pending, Sys.pending, h.transit, Sys.answersIn, Sys.answersIn]
  refine List.filterMap_congr fun mfa _ => ?_
  rw [Sys.packetAt, Sys.packetAt, h.packets]

theorem Still.quiet (h : Still s s') : Quiet s s' where
  host := h.host
  pending := by rw [h.pending]
  answered := h.answered
  dispatched := h.dispatched

/-- A step of the ring and the bottom half that leaves the frames in transit
as they are. -/
theorem Inv.still (h : Inv frames s q) {io' : Frames.Sys} (hinv : Frames.Inv io' q')
    (hrch : io'.rch = s.io.rch) (hoops : io'.oopsed = s.io.oopsed)
    (htransit : unread io' ++ q'.queue = unread s.io ++ q.queue)
    (hheld : (s.free ++ io'.written.drop s.io.written.length ++ s.outbound ++ q'.queue
      ++ io'.bh.inProcess).Perm frames) :
    (∃ q', Inv frames (s.withIo io') q') ∧ Still s (s.withIo io') := by
  refine ⟨⟨q', hinv, rfl, rfl, hheld⟩, ⟨s.host.dev.i2oPacketsDiscarded, ?_⟩, ?_, rfl, rfl, rfl⟩
  · show { s.host with dev := io'.rch, oopsed := io'.oopsed } = s.host
    rw [hrch, hoops, h.dev, h.oopsed]
  · show unread io' ++ Frames.queued io'.streambuf ++ s.outbound = _
    rw [Sys.inTransit, Frames.queued_eq hinv.rep, Frames.queued_eq h.io.rep, htransit]

theorem unread_idle {io : Frames.Sys} (hbh : ∀ mfa, io.bh ≠ .process mfa) : unread io = [] := by
  unfold unread
  split
  · rename_i mfa h _
    exact absurd h (hbh mfa)
  · rfl

theorem unread_process {io : Frames.Sys} (hbh : io.bh = .process mfa) (hoops : io.oopsed = false) :
    unread io = [mfa] := by
  unfold unread
  rw [hbh, hoops]

theorem Inv.still_start (h : Inv frames s q) (hs : s.ioStep .start = some s') :
    (∃ q', Inv frames s' q') ∧ Still s s' := by
  obtain ⟨io', hio, rfl⟩ := Option.map_eq_some_iff.mp hs
  obtain ⟨q', hinv⟩ := Frames.inv_step _ _ _ ⟨q, h.io⟩ hio
  obtain ⟨_, hbh, rfl⟩ := step_start hio
  have hqueue := queue_of_order h.io hinv [] (List.append_nil _).symm rfl
    (by rw [hbh]; rfl)
  rw [List.append_nil] at hqueue
  refine h.still hinv rfl rfl ?_ ?_
  · rw [hqueue, unread_idle (fun _ he => by cases he),
      unread_idle (fun _ he => by rw [hbh] at he; cases he)]
  · have hheld := h.held
    rw [hbh] at hheld
    rw [List.drop_length, List.append_nil, hqueue]
    exact hheld

theorem Inv.still_loop (h : Inv frames s q) (hs : s.ioStep .loop = some s') :
    (∃ q', Inv frames s' q') ∧ Still s s' := by
  obtain ⟨io', hio, rfl⟩ := Option.map_eq_some_iff.mp hs
  obtain ⟨q', hinv⟩ := Frames.inv_step _ _ _ ⟨q, h.io⟩ hio
  obtain ⟨hoops, hbh, rfl⟩ := step_loop hio
  have horder := hinv.order
  have hheld := h.held
  have hunread : unread s.io = [] := unread_idle fun _ he => by rw [hbh] at he; cases he
  rw [hbh] at hheld
  rcases bhLoop_cases s.io with ⟨hend, hkeep⟩ | ⟨mfa, htake, hkeep⟩
  · rw [hkeep.arrived, hkeep.served, hend, h.io.order, hbh] at horder
    have hqueue := List.append_cancel_left horder
    refine h.still hinv hkeep.rch hkeep.oopsed ?_ ?_
    · rw [hqueue, hunread, unread_idle (fun _ he => by rw [hend] at he; cases he)]
    · rw [hkeep.written, List.drop_length, List.append_nil, hend, ← hqueue]
      exact hheld
  · rw [hkeep.arrived, hkeep.served, htake, h.io.order, hbh] at horder
    have hqueue : q.queue = mfa :: q'.queue := by
      rw [List.append_assoc, List.append_assoc] at horder
      exact List.append_cancel_left horder
    refine h.still hinv hkeep.rch hkeep.oopsed ?_ ?_
    · rw [hqueue, hunread, unread_process htake (hkeep.oopsed.trans hoops)]
      rfl
    · rw [hkeep.written, List.drop_length, List.append_nil, htake]
      rw [hqueue, List.perm_iff_count] at hheld
      rw [List.perm_iff_count]
      intro a
      have hcount := hheld a
      simp only [Frames.Bh.inProcess, List.count_append, List.count_cons, List.count_nil]
        at hcount ⊢
      omega

theorem Inv.still_giveBack (h : Inv frames s q) (hs : s.ioStep .giveBack = some s') :
    (∃ q', Inv frames s' q') ∧ Still s s' := by
  obtain ⟨io', hio, rfl⟩ := Option.map_eq_some_iff.mp hs
  obtain ⟨q', hinv⟩ := Frames.inv_step _ _ _ ⟨q, h.io⟩ hio
  obtain ⟨mfa, hbh, rfl⟩ := step_giveBack hio
  have hqueue : q'.queue = q.queue := by
    have hold := h.io.order
    rw [hbh] at hold
    have horder : s.io.served ++ [mfa] ++ q.queue = s.io.served ++ [mfa] ++ [] ++ q'.queue :=
      hold.symm.trans hinv.order
    rw [List.append_nil] at horder
    exact (List.append_cancel_left horder).symm
  refine h.still hinv rfl rfl ?_ ?_
  · rw [hqueue, unread_idle (fun _ he => by cases he),
      unread_idle (fun _ he => by rw [hbh] at he; cases he)]
  · have hheld := h.held
    rw [hbh, List.perm_iff_count] at hheld
    rw [show (s.io.bhGiveBack mfa).written = s.io.written ++ [mfa] from rfl, List.drop_left,
      hqueue, List.perm_iff_count]
    intro a
    have hcount := hheld a
    simp only [Frames.Sys.bhGiveBack, Frames.Bh.inProcess, List.count_append, List.count_cons,
      List.count_nil] at hcount ⊢
    omega

/-- What `acq200_processCommandMessageReturn` is called with, if anything. -/
structure Processed (s s' : Sys) (mfa : UInt32) (debug : Int) : Prop where
  transit : s.inTransit = mfa :: s'.inTransit
  pending : s.pending = (s.packetAt mfa).answers.toList ++ s'.pending
  answered : s'.answered = s.answered
  dispatched : s'.dispatched
    = if debug = 7 then s.dispatched else s.dispatched ++ (s.packetAt mfa).answers.toList
  host : (debug = 7 ∨ (s.packetAt mfa).answers = none) ∧
      (∃ n, s'.host = { s.host with dev := s.host.dev.recount n }) ∨
    debug ≠ 7 ∧ ∃ p, (s.packetAt mfa).answers = some p ∧ ∃ start nsamples,
      s'.host = s.host.orOops (s.host.dev.processCommandMessageReturn p.id start nsamples)
        fun d => { s.host with dev := d }

/-- What the outcome of the loop body is for the clients. -/
theorem hostOf_outcome (h : Inv frames s q) {io' : Frames.Sys} {debug : Int}
    (houtcome : Outcome s.io io' (s.packetAt mfa).message debug) :
    (debug = 7 ∨ (s.packetAt mfa).answers = none) ∧
        (∃ n, { s.host with dev := io'.rch, oopsed := io'.oopsed }
          = { s.host with dev := s.host.dev.recount n }) ∨
      debug ≠ 7 ∧ ∃ p, (s.packetAt mfa).answers = some p ∧ ∃ start nsamples,
        { s.host with dev := io'.rch, oopsed := io'.oopsed }
          = s.host.orOops (s.host.dev.processCommandMessageReturn p.id start nsamples)
            fun d => { s.host with dev := d } := by
  have hcoherent := (s.packetAt mfa).coherent
  cases houtcome with
  | skipped hdebug hrch hio =>
    refine Or.inl ⟨Or.inl hdebug, s.host.dev.i2oPacketsDiscarded, ?_⟩
    rw [hrch, hio, h.dev, h.oopsed]
    rfl
  | discarded hdebug htype hrch hio =>
    obtain ⟨n, hn⟩ := hrch
    refine Or.inl ⟨Or.inr ?_, n, ?_⟩
    · cases hanswers : (s.packetAt mfa).answers with
      | none => rfl
      | some p =>
        rw [hanswers] at hcoherent
        exact absurd hcoherent.1 htype
    · rw [hn, hio, h.dev, h.oopsed]
  | crashed hdebug htype hnone hrch hio =>
    cases hanswers : (s.packetAt mfa).answers with
    | none =>
      rw [hanswers] at hcoherent
      exact absurd htype hcoherent
    | some p =>
      rw [hanswers] at hcoherent
      rw [h.dev, hcoherent.2] at hnone
      refine Or.inr ⟨hdebug, p, rfl, (s.packetAt mfa).message.start,
        (s.packetAt mfa).message.nsamples, ?_⟩
      rw [hnone, hrch, hio, h.dev]
      rfl
  | handled hdebug htype hsome hio =>
    cases hanswers : (s.packetAt mfa).answers with
    | none =>
      rw [hanswers] at hcoherent
      exact absurd htype hcoherent
    | some p =>
      rw [hanswers] at hcoherent
      rw [h.dev, hcoherent.2] at hsome
      refine Or.inr ⟨hdebug, p, rfl, (s.packetAt mfa).message.start,
        (s.packetAt mfa).message.nsamples, ?_⟩
      rw [hsome, hio, h.oopsed]
      rfl

/-- The loop body looks at the message of its frame, and the frame stays. -/
theorem Inv.process (h : Inv frames s q) (hoops : s.host.oopsed = false) {debug : Int}
    (hbh : s.io.bh = .process mfa) (hs : s.process mfa debug = some s') :
    (∃ q', Inv frames s' q') ∧ Processed s s' mfa debug := by
  obtain ⟨io', hstep, rfl⟩ := Option.map_eq_some_iff.mp hs
  have hio : Frames.step (.process (s.packetAt mfa).message debug) s.io = some io' := hstep
  obtain ⟨q', hinv⟩ := Frames.inv_step _ _ _ ⟨q, h.io⟩ hio
  obtain ⟨hlooked, houtcome⟩ := looked_process hbh h.io.aux (s.packetAt mfa).message debug
  rw [← step_process hbh hio] at hlooked houtcome
  have hqueue := queue_of_order h.io hinv []
    (hlooked.arrived.trans (List.append_nil _).symm) hlooked.served hlooked.inProcess
  rw [List.append_nil] at hqueue
  have hioops : s.io.oopsed = false := h.oopsed.trans hoops
  have htransit : s.inTransit
      = mfa :: (unread io' ++ Frames.queued io'.streambuf ++ s.outbound) := by
    rw [Sys.inTransit, unread_process hbh hioops, hlooked.unread, Frames.queued_eq h.io.rep,
      Frames.queued_eq hinv.rep, hqueue]
    rfl
  refine ⟨⟨q', hinv, rfl, rfl, ?_⟩, htransit, ?_, rfl, rfl, hostOf_outcome h houtcome⟩
  · have hheld := h.held
    rw [← hlooked.inProcess] at hheld
    show (s.free ++ io'.written.drop s.io.written.length ++ s.outbound ++ q'.queue
      ++ io'.bh.inProcess).Perm frames
    rw [hlooked.written, List.drop_length, List.append_nil, hqueue]
    exact hheld
  · show s.pending = _ ++ s.answersIn (unread io' ++ Frames.queued io'.streambuf ++ s.outbound)
    rw [Sys.pending, htransit, Sys.answersIn, List.filterMap_cons]
    cases (s.packetAt mfa).answers <;> rfl

end Held

/-! ## The simulation -/

/-- The replies that a step of `Rch.Sys` hands to the handlers. -/
def dispatches : Rch.Label → Rch.Sys → List Rch.Posted
  | .dispatch n _ _, t => t.replies[n]?.toList
  | _, _ => []

/-- What the clients see of the whole system is the state `t` of `Rch.Sys`.
Every answer on its way is among the replies of `t`, in order.  The replies
of `t` that are on their way no more have been dropped by the driver. -/
structure Agrees (s : Sys) (t : Rch.Sys) : Prop where
  eq : ∃ n, t = s.host.rebase t.replies n
  pending : s.pending.Sublist t.replies

section Simulation

variable {frames : List UInt32} {s s' : Sys} {t : Rch.Sys} {q : PutBackQueue UInt32}

theorem agrees_start (lastId : BitVec 16) (oimr : BitVec 32) (frames : List UInt32) :
    Agrees (initial lastId oimr frames) (Rch.initial lastId) :=
  ⟨⟨0, rfl⟩, List.Sublist.refl _⟩

/-- The same replies with the same host but for the count. -/
theorem Agrees.quiet (h : Agrees s t) (hquiet : Quiet s s') : Agrees s' t := by
  obtain ⟨n, hn⟩ := h.eq
  obtain ⟨m, hm⟩ := hquiet.host
  refine ⟨⟨n, ?_⟩, hquiet.pending.trans h.pending⟩
  rw [hm]
  exact hn

/-- A step of a client is the same step for both. -/
theorem Agrees.client (h : Agrees s t) (hoops : s.host.oopsed = false) {l : Rch.Label}
    (hl : l.client.isSome = true) {host : Rch.Sys} (hs : Rch.Sys.step l s.host = some host)
    {io : Frames.Sys} (hpending : { s with host := host, io := io }.pending.Sublist s.pending) :
    ∃ t', Rch.Sys.step l t = some t' ∧ dispatches l t = [] ∧
      Agrees { s with host := host, io := io } t' := by
  obtain ⟨n, hn⟩ := h.eq
  obtain ⟨c, hc⟩ := Option.isSome_iff_exists.mp hl
  have htoops : t.oopsed = false := by
    rw [hn]
    exact hoops
  rw [Rch.Sys.step_client hc hoops] at hs
  refine ⟨host.rebase t.replies n, ?_, ?_, ⟨n, rfl⟩, hpending.trans h.pending⟩
  · rw [Rch.Sys.step_client hc htoops]
    rw [hn, Rch.Sys.clientStep_rebase, hs]
    rfl
  · cases l with
    | dispatch m start nsamples => cases hc
    | _ => rfl

/-- The card answers a request. -/
theorem Agrees.reply (h : Agrees s t) (hoops : s.host.oopsed = false) {n : Nat} {p : Rch.Posted}
    (hp : s.host.unanswered[n]? = some p) {mfa : UInt32} {packet : Packet}
    (hpending : (s.reply n p mfa packet).pending = s.pending ++ [p]) :
    ∃ t', Rch.Sys.step (.answer n) t = some t' ∧ Agrees (s.reply n p mfa packet) t' := by
  obtain ⟨m, hm⟩ := h.eq
  have hstep : Rch.Sys.step (.answer n) t = some { t with
      unanswered := t.unanswered.eraseIdx n, replies := t.replies ++ [p] } := by
    have hfind : t.unanswered[n]? = some p := by
      rw [hm]
      exact hp
    have htoops : t.oopsed = false := by
      rw [hm]
      exact hoops
    rw [Rch.Sys.step, htoops, if_neg Bool.false_ne_true, hfind]
    rfl
  refine ⟨_, hstep, ⟨m, ?_⟩, ?_⟩
  · rw [hm]
    rfl
  · rw [hpending]
    exact h.pending.append (List.Sublist.refl [p])

/-- An item of a sublist, taken out of both lists. -/
theorem exists_eraseIdx_of_cons_sublist {α : Type} {a : α} {as bs : List α}
    (h : (a :: as).Sublist bs) : ∃ i, bs[i]? = some a ∧ as.Sublist (bs.eraseIdx i) := by
  induction bs with
  | nil => cases h
  | cons b bs ih =>
    cases h with
    | cons _ hrest =>
      obtain ⟨i, hi, hsub⟩ := ih hrest
      exact ⟨i + 1, hi, hsub.cons b⟩
    | cons_cons _ hrest => exact ⟨0, rfl, hrest⟩

/-- The bottom half dispatches the answer to `p`. -/
theorem Agrees.dispatch (h : Agrees s t) (hoops : s.host.oopsed = false) {p : Rch.Posted}
    {start nsamples : BitVec 32} (hpending : s.pending = p :: s'.pending)
    (hhost : s'.host = s.host.orOops
      (s.host.dev.processCommandMessageReturn p.id start nsamples)
      fun d => { s.host with dev := d }) :
    ∃ l t', Rch.Sys.step l t = some t' ∧ dispatches l t = [p] ∧ Agrees s' t' := by
  obtain ⟨n, hn⟩ := h.eq
  have hsub := h.pending
  rw [hpending] at hsub
  obtain ⟨i, hi, herase⟩ := exists_eraseIdx_of_cons_sublist hsub
  obtain ⟨m, hm⟩ := Rch.Device.processCommandMessageReturn_recount s.host.dev n p.id start nsamples
  have hstep : Rch.Sys.step (.dispatch i start nsamples) t
      = some (t.orOops (t.dev.processCommandMessageReturn p.id start nsamples) fun d =>
        { t with dev := d, replies := t.replies.eraseIdx i }) := by
    have htoops : t.oopsed = false := by
      rw [hn]
      exact hoops
    rw [Rch.Sys.step, htoops, if_neg Bool.false_ne_true, hi]
    rfl
  have htdev : t.dev = s.host.dev.recount n := by rw [hn, Rch.Sys.rebase_dev]
  rw [htdev, hm] at hstep
  refine ⟨.dispatch i start nsamples, _, hstep, ?_, ?_⟩
  · rw [dispatches, hi]
    rfl
  · cases hreturn : s.host.dev.processCommandMessageReturn p.id start nsamples with
    | none =>
      rw [hreturn] at hhost
      refine ⟨⟨n, ?_⟩, ?_⟩
      · rw [hhost]
        show { t with oopsed := true } = _
        rw [hn]
        rfl
      · exact herase.trans (t.replies.eraseIdx_sublist i)
    | some d =>
      rw [hreturn] at hhost
      refine ⟨⟨m, ?_⟩, herase⟩
      rw [hhost]
      show { t with dev := d.recount m, replies := t.replies.eraseIdx i } = _
      rw [hn]
      rfl

/-- A step of a client moves no frame. -/
theorem Inv.client (h : Inv frames s q) (host : Rch.Sys) :
    Inv frames { s with
      host := host, io := { s.io with rch := host.dev, oopsed := host.oopsed } } q where
  io := h.io.keepFrame rfl host.dev host.oopsed
  dev := rfl
  oopsed := rfl
  held := h.held

/-- After a crash nothing is read any more. -/
theorem pending_client (host : Rch.Sys) (hoops : s.io.oopsed = false) :
    { s with
      host := host
      io := { s.io with rch := host.dev, oopsed := host.oopsed } }.pending.Sublist s.pending := by
  have hunread : (unread { s.io with rch := host.dev, oopsed := host.oopsed }).Sublist
      (unread s.io) := by
    unfold unread
    rw [hoops]
    cases host.oopsed with
    | false => exact List.Sublist.refl _
    | true => cases s.io.bh <;> exact List.nil_sublist _
  refine List.Sublist.filterMap _ ?_
  exact (hunread.append (List.Sublist.refl _)).append (List.Sublist.refl _)

/-- A packet that answers nothing. -/
theorem Inv.quiet_notify (h : Inv frames s q) (hok : FramesOk frames) {mfa : UInt32}
    (hfree : mfa ∈ s.free) {packet : Packet} (hanswers : packet.answers = none) :
    (∃ q', Inv frames (s.post mfa packet) q') ∧ Quiet s (s.post mfa packet) := by
  refine ⟨⟨q, h.post hfree packet⟩, ⟨s.host.dev.i2oPacketsDiscarded, rfl⟩, ?_, rfl, rfl⟩
  rw [h.pending_post hok hfree, hanswers, Option.toList_none, List.append_nil]

/-- What the bottom half does with a packet is at most one dispatch. -/
theorem Agrees.process (h : Agrees s t) (hoops : s.host.oopsed = false) {mfa : UInt32}
    {debug : Int} (hp : Processed s s' mfa debug) :
    ∃ ls t', runFrom Rch.Sys.step ls t = some t' ∧ Agrees s' t' ∧
      s'.dispatched = s.dispatched ++ traceOf Rch.Sys.step dispatches ls t := by
  rcases hp.host with ⟨hnone, hhost⟩ | ⟨hdebug, p, hanswers, start, nsamples, hhost⟩
  · have hsub : s'.pending.Sublist s.pending := by
      rw [hp.pending]
      exact List.sublist_append_right _ _
    have hdispatched : s'.dispatched = s.dispatched := by
      rw [hp.dispatched]
      rcases hnone with hdebug | hanswers
      · rw [if_pos hdebug]
      · rw [hanswers]
        split
        · rfl
        · exact List.append_nil _
    refine ⟨[], t, rfl, h.quiet ⟨hhost, hsub, hp.answered, hdispatched⟩, ?_⟩
    rw [hdispatched]
    exact (List.append_nil _).symm
  · have hpending := hp.pending
    rw [hanswers] at hpending
    obtain ⟨l, t', hstep, hshow, hagrees⟩ := h.dispatch hoops hpending hhost
    refine ⟨[l], t', runFrom_single hstep, hagrees, ?_⟩
    rw [hp.dispatched, if_neg hdebug, hanswers, traceOf_single hstep, hshow]
    rfl

/-- One step of the whole system is answered by at most one of `Rch.Sys`. -/
theorem simulates_step (hok : FramesOk frames) (l : Label)
    (h : (∃ q, Inv frames s q) ∧ Agrees s t) (hs : step l s = some s') :
    ∃ ls t', runFrom Rch.Sys.step ls t = some t' ∧ ((∃ q, Inv frames s' q) ∧ Agrees s' t') ∧
      s'.dispatched = s.dispatched ++ traceOf Rch.Sys.step dispatches ls t := by
  obtain ⟨⟨q, hinv⟩, hagrees⟩ := h
  have hquiet : (∃ q, Inv frames s' q) ∧ Quiet s s' →
      ∃ ls t', runFrom Rch.Sys.step ls t = some t' ∧ ((∃ q, Inv frames s' q) ∧ Agrees s' t') ∧
        s'.dispatched = s.dispatched ++ traceOf Rch.Sys.step dispatches ls t := by
    rintro ⟨hinv', hq⟩
    refine ⟨[], t, rfl, ⟨hinv', hagrees.quiet hq⟩, ?_⟩
    rw [hq.dispatched]
    exact (List.append_nil _).symm
  unfold step at hs
  split at hs
  · cases hs
  · rename_i hno
    have hoops : s.host.oopsed = false := Bool.eq_false_iff.mpr hno
    cases l with
    | client l =>
      simp only at hs
      split at hs
      · rename_i hl
        obtain ⟨host, hhost, rfl⟩ := Option.map_eq_some_iff.mp hs
        obtain ⟨t', hstep, hshow, hagrees'⟩ := hagrees.client hoops hl hhost
          (pending_client host (hinv.oopsed.trans hoops))
        refine ⟨[l], t', runFrom_single hstep, ⟨⟨q, hinv.client host⟩, hagrees'⟩, ?_⟩
        rw [traceOf_single hstep, hshow]
        exact (List.append_nil _).symm
      · cases hs
    | reply n mfa message =>
      simp only at hs
      split at hs
      · cases hs
      · rename_i p hp
        split at hs
        · split at hs
          · rename_i hmessage hfree
            obtain rfl := Option.some.inj hs
            obtain ⟨t', hstep, hagrees'⟩ := hagrees.reply hoops hp
              (hinv.pending_post hok hfree ⟨message, some p, hmessage⟩)
            have hpost := hinv.post hfree ⟨message, some p, hmessage⟩
            refine ⟨[.answer n], t', runFrom_single hstep,
              ⟨⟨q, hpost.io, hpost.dev, hpost.oopsed, hpost.held⟩, hagrees'⟩, ?_⟩
            rw [traceOf_single hstep]
            exact (List.append_nil _).symm
          · cases hs
        · cases hs
    | notify mfa message =>
      simp only at hs
      split at hs
      · split at hs
        · rename_i hmessage hfree
          obtain rfl := Option.some.inj hs
          exact hquiet (hinv.quiet_notify hok hfree rfl)
        · cases hs
      · cases hs
    | interrupt debug => exact hquiet ((hinv.quiet_fetch hok (Or.inl rfl) hs))
    | poll debug => exact hquiet ((hinv.quiet_fetch hok (Or.inr rfl) hs))
    | start => exact hquiet ⟨(hinv.still_start hs).1, (hinv.still_start hs).2.quiet⟩
    | loop => exact hquiet ⟨(hinv.still_loop hs).1, (hinv.still_loop hs).2.quiet⟩
    | process debug =>
      simp only at hs
      split at hs
      · rename_i mfa hbh
        obtain ⟨hinv', hprocessed⟩ := hinv.process hoops hbh hs
        obtain ⟨ls, t', hrun, hagrees', htrace⟩ := hagrees.process hoops hprocessed
        exact ⟨ls, t', hrun, ⟨hinv', hagrees'⟩, htrace⟩
      · cases hs
    | giveBack => exact hquiet ⟨(hinv.still_giveBack hs).1, (hinv.still_giveBack hs).2.quiet⟩

end Simulation

/-- A read whose answer comes in behind a packet that answers nothing. -/
def oneRead : List Label :=
  [.client (.openFile 0 .bridge), .client (.call 0 .read), .client (.go 0), .client (.go 0),
    .client (.check 0 false), .client (.go 0), .client (.go 0), .client (.send 0 true),
    .notify 0x2000 ⟨0, 0, 0, 0⟩, .reply 0 0x1000 ⟨0x1dc, 0x7a000000, 0, 8⟩, .interrupt 0, .start,
    .loop, .poll 0, .process 0, .giveBack, .loop, .process 0]

end Acq200.Transport
