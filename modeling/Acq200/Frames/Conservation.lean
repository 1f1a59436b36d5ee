import Mathlib.Algebra.Order.Group.Multiset
import Acq200.Frames.Basic
import Acq200.StreamBuf.Queue

/-!
# No frame is lost and none is given back twice

A frame that was popped leaves the driver by one of six ways: two debug
levels give it back at once, a full ring refuses it, a command packet goes
to its handler or to none, and any other message is discarded.  `Inv` says
where the frames are after each step, with the ring taken as the abstract
queue that it represents, and `frames_conserved` reads off it the books of
the driver: the counters, the frames as a multiset, and the order in which
the bottom half gives them back.
-/

namespace Acq200.Frames

open Acq200.Lib Acq200.StreamBuf

/-! ## What is in the ring -/

/-- The slots from `iget` to `iput` are the queue that the ring represents. -/
theorem queued_eq {buf : GenericIntBuf} {q : PutBackQueue UInt32}
    (h : Rep 7 buf q) : queued buf = q.queue := by
  have hsplit := h.slots
  rw [PutBackQueue.held, List.length_append, window_append] at hsplit
  have hqueue := (List.append_inj hsplit (length_window _ _ _ _)).2
  rw [queued, NSTREAMBUF, h.numEntries (Nat.le_refl _), Option.getD_some, h.iget_eq,
    window_mod]
  exact hqueue

/-! ## The contract -/

structure Conserved (s : Sys) : Prop where
  /-- The ring knows how many frames it holds. -/
  entries : genericIntBufNumEntries s.streambuf NSTREAMBUF
    = some (queued s.streambuf).length
  counters : s.i2oPacketsIncoming = s.i2oPacketsReturned
    + BitVec.ofNat 32 ((queued s.streambuf).length + s.bh.inProcess.length)
  frames : (s.popped : Multiset UInt32)
    = s.written + queued s.streambuf + s.bh.inProcess
  /-- The bottom half gives the frames back in the order of their arrival. -/
  order : s.arrived = s.served ++ s.bh.inProcess ++ queued s.streambuf
  served : s.served.Sublist s.written
  drained : ∀ atGet ∈ s.atEnd, atGet = []

/-! ## The invariant -/

structure Inv (s : Sys) (q : PutBackQueue UInt32) : Prop where
  rep : Rep 7 s.streambuf q
  valid : ∀ mfa ∈ s.popped, mfa ≠ STREAM_MFA_INVALID
  aux : s.auxTaskWaiting = false
  counters : s.i2oPacketsIncoming = s.i2oPacketsReturned
    + BitVec.ofNat 32 (q.queue.length + s.bh.inProcess.length)
  frames : (s.popped : Multiset UInt32) = s.written + q.queue + s.bh.inProcess
  order : s.arrived = s.served ++ s.bh.inProcess ++ q.queue
  served : s.served.Sublist s.written
  drained : ∀ atGet ∈ s.atEnd, atGet = []

theorem inv_initial (rch : Rch.Device) (oimr : BitVec 32) :
    Inv (initial rch oimr) PutBackQueue.empty where
  rep := rep_init zeroed
  valid := fun _ h => by cases h
  aux := rfl
  counters := rfl
  frames := rfl
  order := rfl
  served := List.Sublist.refl []
  drained := fun _ h => by cases h

section Steps

variable {s : Sys} {q : PutBackQueue UInt32}

theorem Inv.conserved (h : Inv s q) : Conserved s := by
  have hq := queued_eq h.rep
  refine ⟨?_, ?_, ?_, ?_, h.served, h.drained⟩
  · rw [hq]
    exact h.rep.numEntries (Nat.le_refl _)
  · rw [hq]
    exact h.counters
  · rw [hq]
    exact h.frames
  · rw [hq]
    exact h.order

theorem Inv.valid_append (h : Inv s q) {mfa : UInt32} (hmfa : mfa ≠ STREAM_MFA_INVALID) :
    ∀ other ∈ s.popped ++ [mfa], other ≠ STREAM_MFA_INVALID := by
  intro other hother
  rw [List.mem_append, List.mem_singleton] at hother
  rcases hother with hold | rfl
  · exact h.valid other hold
  · exact hmfa

/-- A frame that goes straight back to the card. -/
theorem Inv.bounce (h : Inv s q) {mfa : UInt32} (hmfa : mfa ≠ STREAM_MFA_INVALID)
    (count : BitVec 32) :
    Inv ({ s with
      badMfaCount := count
      popped := s.popped ++ [mfa]
      i2oPacketsIncoming := s.i2oPacketsIncoming + 1 }.i2oReturnMessage mfa) q where
  rep := h.rep
  valid := h.valid_append hmfa
  aux := h.aux
  counters := by
    show s.i2oPacketsIncoming + 1 = s.i2oPacketsReturned + 1 + _
    rw [h.counters]
    ac_rfl
  frames := by
    show ((s.popped ++ [mfa] : List UInt32) : Multiset UInt32)
      = (s.written ++ [mfa] : List UInt32) + q.queue + s.bh.inProcess
    rw [← Multiset.coe_add, ← Multiset.coe_add, h.frames]
    ac_rfl
  order := h.order
  served := h.served.trans (List.sublist_append_left _ _)
  drained := h.drained

theorem Inv.discard (h : Inv s q) : Inv s.discard q :=
  ⟨h.rep, h.valid, h.aux, h.counters, h.frames, h.order, h.served, h.drained⟩

/-- A frame that the ring takes. -/
theorem Inv.arrive (h : Inv s q) {mfa : UInt32} (hmfa : mfa ≠ STREAM_MFA_INVALID)
    (hfull : genericIntBufIsFull s.streambuf = false) (count : BitVec 32) :
    Inv { s with
      badMfaCount := count
      popped := s.popped ++ [mfa]
      i2oPacketsIncoming := s.i2oPacketsIncoming + 1
      streambuf := (streamPut s.streambuf mfa).1
      i2oLastIn := mfa
      scheduled := true
      arrived := s.arrived ++ [mfa] } (q.put mfa) where
  rep := h.rep.put hfull mfa
  valid := h.valid_append hmfa
  aux := h.aux
  counters := by
    have hlen : (q.put mfa).queue.length + s.bh.inProcess.length
        = q.queue.length + s.bh.inProcess.length + 1 := by
      rw [show (q.put mfa).queue = q.queue ++ [mfa] from rfl, List.length_append,
        List.length_singleton]
      omega
    show s.i2oPacketsIncoming + 1 = s.i2oPacketsReturned + _
    rw [hlen, h.counters, BitVec.ofNat_add _ 1, BitVec.add_assoc]
    rfl
  frames := by
    show ((s.popped ++ [mfa] : List UInt32) : Multiset UInt32)
      = s.written + (q.queue ++ [mfa] : List UInt32) + s.bh.inProcess
    rw [← Multiset.coe_add, ← Multiset.coe_add, h.frames]
    ac_rfl
  order := by
    show s.arrived ++ [mfa] = s.served ++ s.bh.inProcess ++ (q.queue ++ [mfa])
    rw [h.order, List.append_assoc _ q.queue]
  served := h.served
  drained := h.drained

/-- `acq200_consume_i2o` on a frame that was just popped. -/
theorem Inv.consume (h : Inv s q) {mfa : UInt32} (hmfa : Sys.validMfa mfa = true)
    (debug : Int) (count : BitVec 32) :
    ∃ q', Inv ({ s with
      badMfaCount := count, popped := s.popped ++ [mfa] }.consumeI2o mfa debug) q' := by
  have hne : mfa ≠ STREAM_MFA_INVALID := by
    rintro rfl
    revert hmfa
    decide
  rw [Sys.consumeI2o]
  split
  · exact ⟨q, h.bounce hne count⟩
  · cases hfull : genericIntBufIsFull s.streambuf with
    | true =>
      have hput : streamPut s.streambuf mfa = (s.streambuf, -1) :=
        genericIntBufPut_of_full hfull mfa
      simp only [hput]
      exact ⟨q, (h.bounce hne count).discard⟩
    | false =>
      have hput : (streamPut s.streambuf mfa).2 = 0 :=
        congrArg Prod.snd (genericIntBufPut_of_not_full hfull mfa)
      simp only [hput]
      exact ⟨q.put mfa, h.arrive hne hfull count⟩

/-- The bottom half takes the next frame, or finds the ring empty and
ends. -/
theorem Inv.bhLoop (h : Inv s q) (hbh : s.bh = .loop) : Inv s.bhLoop q.get.1 := by
  have hcontents := queued_eq h.rep
  have hcounters := h.counters
  have hframes := h.frames
  have horder := h.order
  rw [hbh] at hcounters hframes horder
  cases hq : q.queue with
  | nil =>
    have hget : streamGet s.streambuf = (s.streambuf, STREAM_MFA_INVALID) :=
      h.rep.get_empty hq
    rw [PutBackQueue.get_nil hq, Sys.bhLoop, hget, if_pos rfl]
    refine ⟨h.rep, h.valid, h.aux, hcounters, hframes, horder, h.served, ?_⟩
    intro atGet hmem
    rcases List.mem_append.mp hmem with hold | hnew
    · exact h.drained atGet hold
    · rw [List.mem_singleton.mp hnew]
      exact hcontents.trans hq
  | cons mfa rest =>
    obtain ⟨hget, hrep⟩ := h.rep.get hq
    have hmem : mfa ∈ s.popped := by
      rw [← Multiset.mem_coe, h.frames, hq]
      simp
    have hgot : (streamGet s.streambuf).2 = mfa := congrArg Prod.snd hget
    rw [Sys.bhLoop, hgot, if_neg (h.valid mfa hmem)]
    rw [PutBackQueue.get_cons hq] at hrep ⊢
    rw [hq] at hcounters hframes horder
    refine ⟨hrep, h.valid, h.aux, ?_, ?_, ?_, h.served, h.drained⟩
    · rw [show s.i2oPacketsIncoming = _ from hcounters]
      rfl
    · show (s.popped : Multiset UInt32) = s.written + rest + ([mfa] : List UInt32)
      rw [hframes, ← Multiset.cons_coe, ← Multiset.singleton_add, ← Multiset.coe_singleton]
      show (s.written : Multiset UInt32) + (([mfa] : List UInt32) + rest) + 0 = _
      rw [add_zero]
      ac_rfl
    · show s.arrived = s.served ++ [mfa] ++ rest
      rw [horder]
      simp [Bh.inProcess]

/-- A step of the bottom half that keeps its frame. -/
theorem Inv.keepFrame (h : Inv s q) {bh : Bh}
    (hbh : bh.inProcess = s.bh.inProcess) (rch : Rch.Device) (oopsed : Bool) :
    Inv { s with rch := rch, bh := bh, oopsed := oopsed } q where
  rep := h.rep
  valid := h.valid
  aux := h.aux
  counters := by
    show s.i2oPacketsIncoming = s.i2oPacketsReturned + BitVec.ofNat 32 (_ + bh.inProcess.length)
    rw [hbh]
    exact h.counters
  frames := by
    show (s.popped : Multiset UInt32) = s.written + q.queue + bh.inProcess
    rw [hbh]
    exact h.frames
  order := by
    show s.arrived = s.served ++ bh.inProcess ++ q.queue
    rw [hbh]
    exact h.order
  served := h.served
  drained := h.drained

theorem Inv.bhProcess (h : Inv s q) {mfa : UInt32} (hbh : s.bh = .process mfa)
    (message : Message) (debug : Int) : Inv (s.bhProcess mfa message debug) q := by
  have hkeep : (Bh.giveBack mfa).inProcess = s.bh.inProcess := by
    rw [hbh]
    rfl
  rw [Sys.bhProcess]
  split
  · exact h.keepFrame hkeep s.rch s.oopsed
  · split
    · split
      · exact h.keepFrame rfl s.rch true
      · exact h.keepFrame hkeep _ s.oopsed
    · rw [h.aux, if_neg Bool.false_ne_true]
      exact h.keepFrame hkeep _ s.oopsed

theorem Inv.bhGiveBack (h : Inv s q) {mfa : UInt32} (hbh : s.bh = .giveBack mfa) :
    Inv (s.bhGiveBack mfa) q := by
  have hcounters := h.counters
  have hframes := h.frames
  have horder := h.order
  rw [hbh] at hcounters hframes horder
  refine ⟨h.rep, h.valid, h.aux, ?_, ?_, ?_, h.served.append (List.Sublist.refl _),
    h.drained⟩
  · show s.i2oPacketsIncoming = s.i2oPacketsReturned + 1 + BitVec.ofNat 32 q.queue.length
    rw [hcounters, show (Bh.giveBack mfa).inProcess.length = 1 from rfl,
      BitVec.ofNat_add]
    ac_rfl
  · show (s.popped : Multiset UInt32)
      = (s.written ++ [mfa] : List UInt32) + q.queue + (0 : Multiset UInt32)
    rw [hframes, ← Multiset.coe_add, add_zero]
    show (s.written : Multiset UInt32) + q.queue + ([mfa] : List UInt32) = _
    ac_rfl
  · show s.arrived = s.served ++ [mfa] ++ [] ++ q.queue
    rw [horder, List.append_nil]
    rfl

/-- Every step keeps the books. -/
theorem inv_step (l : Label) (s s' : Sys) (h : ∃ q, Inv s q) (hs : step l s = some s') :
    ∃ q, Inv s' q := by
  obtain ⟨q, h⟩ := h
  unfold step at hs
  split at hs
  · cases hs
  · split at hs
    · obtain rfl := Option.some.inj hs
      rw [Sys.incomingMessageIsr]
      split
      · rename_i hvalid
        exact h.consume hvalid _ 0
      · exact ⟨q, h.rep, h.valid, h.aux, h.counters, h.frames, h.order, h.served,
          h.drained⟩
    · obtain rfl := Option.some.inj hs
      rw [Sys.handleIncomingMessage]
      split
      · rename_i hvalid
        exact h.consume hvalid _ 0
      · exact ⟨q, h⟩
    · rename_i hbh
      obtain rfl := Option.some.inj hs
      have hkeep : Bh.loop.inProcess = s.bh.inProcess := by
        rw [hbh]
        rfl
      have hkept := h.keepFrame hkeep s.rch s.oopsed
      exact ⟨q, hkept.rep, hkept.valid, hkept.aux, hkept.counters, hkept.frames,
        hkept.order, hkept.served, hkept.drained⟩
    · rename_i hbh
      obtain rfl := Option.some.inj hs
      exact ⟨q.get.1, h.bhLoop hbh⟩
    · rename_i hbh
      obtain rfl := Option.some.inj hs
      exact ⟨q, h.bhProcess hbh _ _⟩
    · rename_i hbh
      obtain rfl := Option.some.inj hs
      exact ⟨q, h.bhGiveBack hbh⟩
    · obtain rfl := Option.some.inj hs
      exact ⟨q, h.keepFrame rfl _ s.oopsed⟩
    · cases hs

end Steps

/-- After every run of interrupts, polls and bottom halves, each frame that
was popped has been given back once, or waits in the ring, or is with the
bottom half. -/
theorem frames_conserved {rch : Rch.Device} {oimr : BitVec 32} {labels : List Label}
    {s : Sys} (hrun : runFrom step labels (initial rch oimr) = some s) :
    Conserved s := by
  obtain ⟨q, h⟩ := runFrom_inv₂ inv_step ⟨_, inv_initial rch oimr⟩ hrun
  exact h.conserved

/-- Two interrupts, and a bottom half that a third one interrupts. -/
def interruptedBh : List Label :=
  [.interrupt 16 0, .interrupt 32 0, .start, .loop, .interrupt 48 8,
    .process ⟨0, 0, 0, 0⟩ 0, .giveBack, .loop]

theorem frames_conserved_interruptedBh :
    ∃ s, runFrom step interruptedBh (initial (Rch.poolCreate 0) 0) = some s ∧
      s.written = [48, 16] ∧ s.bh = .process 32 ∧ Conserved s :=
  ⟨_, rfl, by decide, by decide,
    @frames_conserved (Rch.poolCreate 0) 0 interruptedBh _ rfl⟩

end Acq200.Frames
