import Acq200.BufferAB.Htstream
import Acq200.BufferAB.Order
import Acq200.Lib.Splice

/-!
# The card's side of the two buffers

The request of `acq200_bufferAB_queue` names a buffer.  The card moves data
into it, in one piece and as often as it likes, at any time before its reply.
The reply says how many bytes are there.

The same two buffers are filled again and again, and nothing but the handlers
in `rchAB` keeps the card from a buffer that the client reads.  `CardInv` says
where the data of each request are.  Every event of the driver keeps it if the
buffers that it recycles are full.

The fields `target`, `transferred` and `answered` of `Card` are ghost.
-/

namespace Acq200.Recorder

open Acq200.Lib Acq200.Htstream
open Acq200.Rch (Buffer)
open Acq200.Rch.Device (saidBytes)
open Acq200.BufferAB (Driver Handler Event flagged)

/-! ## The card -/

/-- `BUFLEN`, the length of a buffer as the client maps it. -/
def BUFLEN : Nat := 0x400000

/-- The two buffers, and what the card has done about each request. -/
structure Card where
  memory : Buffer → Nat → UInt8
  /-- The buffer that a request names. -/
  target : Nat → Buffer
  /-- What the card has moved for a request. -/
  transferred : Nat → List UInt8
  /-- What the reply has said to be there. -/
  answered : Nat → List UInt8

/-- The part of the card in an event of the driver.  A reply says no more than
what the card has moved. -/
def Card.note (c : Card) (d : Driver) : Event → Option Card
  | .post _ _ =>
    match d.pc with
    | .queue buffer => some { c with target := Function.update c.target d.requests buffer }
    | _ => some c
  | .reply n _ nsamples =>
    d.unanswered[n]?.bind fun k =>
      if saidBytes nsamples ≤ (c.transferred k).length then
        some { c with
          answered := Function.update c.answered k
            ((c.transferred k).take (saidBytes nsamples)) }
      else none
  | .go | .wake | .timeout | .signal => some c

def Card.noteLabel (c : Card) (d : Driver) : Htstream.Label → Option Card
  | .driver event => c.note d event
  | _ => some c

/-- The card moves data for request `k`. -/
def Card.move (c : Card) (k : Nat) (data : List UInt8) : Card :=
  { c with
    memory := Function.update c.memory (c.target k) (splice (c.memory (c.target k)) 0 data)
    transferred := Function.update c.transferred k data }

/-- A card that has done nothing. -/
def idleCard (memory : Buffer → Nat → UInt8) : Card :=
  { memory := memory, target := fun _ => .bufferA, transferred := fun _ => []
    answered := fun _ => [] }

/-! ## The requests and the buffers -/

/-- Where the data of the requests are.  A request that the card still has is
the one that its buffer waits for, so nothing is moved into a buffer that is
full. -/
structure CardInv (d : Driver) (c : Card) : Prop where
  nodup : d.unanswered.Nodup
  waits : ∀ k ∈ d.unanswered,
    ∃ h, d.rchAB (c.target k) = some h ∧ h.block = k ∧ h.rchReturn.valid = 0 ∧
      h.rchReturn.nbytes = 0
  slots : ∀ buffer h, d.rchAB buffer = some h →
    h.block < d.requests ∧ c.target h.block = buffer
  full : ∀ buffer h, d.rchAB buffer = some h → h.rchReturn.valid ≠ 0 →
    slice (c.memory buffer) 0 h.rchReturn.nbytes.toNat = c.answered h.block
  moved : ∀ k ∈ d.unanswered,
    slice (c.memory (c.target k)) 0 (c.transferred k).length = c.transferred k
  unmoved : ∀ k, d.requests ≤ k → c.transferred k = []
  fits : ∀ k, (c.transferred k).length ≤ BUFLEN ∧ (c.answered k).length ≤ BUFLEN
  gone : ∀ k ∈ d.reported, k < d.requests ∧ k ∉ d.unanswered

theorem cardInv_initial (memory : Buffer → Nat → UInt8) :
    CardInv BufferAB.opened (idleCard memory) where
  nodup := List.nodup_nil
  waits := fun _ h => by cases h
  slots := fun _ _ h => by cases h
  full := fun _ _ h => by cases h
  moved := fun _ h => by cases h
  unmoved := fun _ _ => rfl
  fits := fun _ => ⟨Nat.zero_le _, Nat.zero_le _⟩
  gone := fun _ h => by cases h

section Card

variable {d : Driver} {c c' : Card} {buffer : Buffer} {handler : Handler} {k n : Nat}

/-- What the call does to its own variables does not matter. -/
theorem CardInv.during (h : CardInv d c) (ops : BufferAB.Ops) (pc : BufferAB.Pc) :
    CardInv { d with ops := ops, pc := pc } c :=
  ⟨h.nodup, h.waits, h.slots, h.full, h.moved, h.unmoved, h.fits, h.gone⟩

/-- No request waits for a handler that is valid. -/
theorem CardInv.not_waiting (h : CardInv d c) (hslot : d.rchAB buffer = some handler)
    (hvalid : handler.rchReturn.valid ≠ 0) : handler.block ∉ d.unanswered := by
  intro hmem
  obtain ⟨waiting, hwaiting, _, hzero, _⟩ := h.waits _ hmem
  rw [(h.slots buffer handler hslot).2, hslot] at hwaiting
  obtain rfl := Option.some.inj hwaiting
  exact hvalid hzero

theorem CardInv.lt_requests (h : CardInv d c) (hk : k ∈ d.unanswered) : k < d.requests := by
  obtain ⟨waiting, hwaiting, hblock, _, _⟩ := h.waits k hk
  exact hblock ▸ (h.slots _ waiting hwaiting).1

/-- Two requests that the card has name different buffers. -/
theorem CardInv.target_inj (h : CardInv d c) {other : Nat} (hk : k ∈ d.unanswered)
    (hother : other ∈ d.unanswered) (heq : c.target other = c.target k) : other = k := by
  obtain ⟨first, hfirst, hblock, _, _⟩ := h.waits k hk
  obtain ⟨second, hsecond, hblock', _, _⟩ := h.waits other hother
  rw [heq, hfirst] at hsecond
  obtain rfl := Option.some.inj hsecond
  exact hblock'.symm.trans hblock

theorem CardInv.move (h : CardInv d c) {data : List UInt8} (hk : k ∈ d.unanswered)
    (hlen : data.length ≤ BUFLEN) : CardInv d (c.move k data) where
  nodup := h.nodup
  waits := h.waits
  slots := h.slots
  full := by
    intro buffer handler hslot hvalid
    have hne : buffer ≠ c.target k := by
      rintro rfl
      obtain ⟨waiting, hwaiting, _, hzero, _⟩ := h.waits k hk
      obtain rfl := Option.some.inj (hwaiting.symm.trans hslot)
      exact hvalid hzero
    show slice (Function.update c.memory _ _ buffer) 0 _ = _
    rw [Function.update_of_ne hne]
    exact h.full buffer handler hslot hvalid
  moved := by
    intro other hother
    show slice (Function.update c.memory _ _ (c.target other)) 0
      (Function.update c.transferred k data other).length
        = Function.update c.transferred k data other
    by_cases heq : other = k
    · rw [heq, Function.update_self, Function.update_self]
      exact slice_splice _ 0 data
    · rw [Function.update_of_ne heq,
        Function.update_of_ne fun htarget => heq (h.target_inj hk hother htarget)]
      exact h.moved other hother
  unmoved := by
    intro other hother
    have hlt := h.lt_requests hk
    have hne : other ≠ k := by omega
    exact (Function.update_of_ne hne _ _).trans (h.unmoved other hother)
  fits := by
    intro other
    refine ⟨?_, (h.fits other).2⟩
    show (Function.update c.transferred k data other).length ≤ BUFLEN
    by_cases heq : other = k
    · rw [heq, Function.update_self]
      exact hlen
    · rw [Function.update_of_ne heq]
      exact (h.fits other).1
  gone := h.gone

/-- A buffer whose data have come is recycled. -/
theorem CardInv.recycle (h : CardInv d c)
    (hvalid : ∀ handler ∈ d.rchAB buffer, handler.rchReturn.valid ≠ 0) :
    CardInv (d.recycle buffer) c := by
  have hslots : ∀ other handler, (d.recycle buffer).rchAB other = some handler →
      d.rchAB other = some handler := by
    intro other handler hslot
    have hslot : Function.update d.rchAB buffer none other = some handler := hslot
    by_cases heq : other = buffer
    · rw [heq, Function.update_self] at hslot
      cases hslot
    · rwa [Function.update_of_ne heq] at hslot
  refine ⟨h.nodup, ?_, fun other handler hslot => h.slots other handler (hslots _ _ hslot),
    fun other handler hslot => h.full other handler (hslots _ _ hslot), h.moved, h.unmoved,
    h.fits, h.gone⟩
  intro k hk
  obtain ⟨waiting, hwaiting, hblock, hzero, hnone⟩ := h.waits k hk
  have hne : c.target k ≠ buffer := by
    intro heq
    exact hvalid waiting (heq ▸ hwaiting) hzero
  exact ⟨waiting, (Function.update_of_ne hne _ _).trans hwaiting, hblock, hzero, hnone⟩

/-- The buffer is reported, and stays as it is. -/
theorem CardInv.report (h : CardInv d c) (hslot : d.rchAB buffer = some handler)
    (hvalid : handler.rchReturn.valid ≠ 0) : CardInv (d.report buffer handler) c := by
  refine ⟨h.nodup, h.waits, h.slots, h.full, h.moved, h.unmoved, h.fits, ?_⟩
  intro k hk
  rcases List.mem_append.mp hk with hold | hnew
  · exact h.gone k hold
  · rw [List.mem_singleton.mp hnew]
    exact ⟨(h.slots buffer handler hslot).1, h.not_waiting hslot hvalid⟩

/-- A buffer with no handler is queued. -/
theorem CardInv.queue (h : CardInv d c) (hnone : d.rchAB buffer = none) (mfa : Bool)
    (stale : BitVec 32) :
    CardInv (d.bufferABQueue buffer mfa stale)
      { c with target := Function.update c.target d.requests buffer } := by
  have hold : ∀ {k}, k < d.requests →
      Function.update c.target d.requests buffer k = c.target k :=
    fun hlt => Function.update_of_ne (Nat.ne_of_lt hlt) _ _
  have hmem : ∀ k ∈ (d.bufferABQueue buffer mfa stale).unanswered,
      k ∈ d.unanswered ∨ k = d.requests := by
    intro k hk
    rw [Driver.bufferABQueue] at hk
    dsimp only at hk
    split at hk
    · exact (List.mem_append.mp hk).imp_right List.mem_singleton.mp
    · exact Or.inl hk
  have hfresh : d.requests ∉ d.unanswered :=
    fun hin => absurd (h.lt_requests hin) (Nat.lt_irrefl _)
  have hslots : ∀ other handler, (d.bufferABQueue buffer mfa stale).rchAB other = some handler →
      other = buffer ∧ handler = ⟨Driver.builtReturn stale, d.requests⟩ ∨
        d.rchAB other = some handler := by
    intro other handler hslot
    have hslot : Function.update d.rchAB buffer (some ⟨Driver.builtReturn stale, d.requests⟩)
      other = some handler := hslot
    by_cases heq : other = buffer
    · rw [heq, Function.update_self] at hslot
      exact Or.inl ⟨heq, (Option.some.inj hslot).symm⟩
    · exact Or.inr (by rwa [Function.update_of_ne heq] at hslot)
  constructor
  · rw [Driver.bufferABQueue]
    dsimp only
    split
    · exact List.nodup_append.mpr ⟨h.nodup, List.nodup_singleton _, fun k hk other hother =>
        fun heq => hfresh (List.mem_singleton.mp hother ▸ heq ▸ hk)⟩
    · exact h.nodup
  · intro k hk
    show ∃ handler, Function.update d.rchAB buffer _
      (Function.update c.target d.requests buffer k) = some handler ∧ _
    rcases hmem k hk with hin | heq
    · obtain ⟨waiting, hwaiting, hrest⟩ := h.waits k hin
      have hne : c.target k ≠ buffer := by
        intro heq
        rw [heq, hnone] at hwaiting
        cases hwaiting
      rw [hold (h.lt_requests hin), Function.update_of_ne hne]
      exact ⟨waiting, hwaiting, hrest⟩
    · rw [heq, Function.update_self, Function.update_self]
      exact ⟨_, rfl, rfl, rfl, rfl⟩
  · intro other handler hslot
    show handler.block < d.requests + 1 ∧ Function.update c.target d.requests buffer _ = other
    rcases hslots other handler hslot with ⟨heq, hnew⟩ | hin
    · rw [heq, hnew, Function.update_self]
      exact ⟨Nat.lt_succ_self _, rfl⟩
    · obtain ⟨hlt, htarget⟩ := h.slots other handler hin
      rw [hold hlt]
      exact ⟨Nat.lt_succ_of_lt hlt, htarget⟩
  · intro other handler hslot hvalid
    rcases hslots other handler hslot with ⟨_, hnew⟩ | hin
    · rw [hnew] at hvalid
      exact absurd rfl hvalid
    · exact h.full other handler hin hvalid
  · intro k hk
    show slice (c.memory (Function.update c.target d.requests buffer k)) 0 _ = _
    rcases hmem k hk with hin | heq
    · rw [hold (h.lt_requests hin)]
      exact h.moved k hin
    · rw [heq, h.unmoved _ (Nat.le_refl _)]
      rfl
  · exact fun k hk => h.unmoved k (Nat.le_of_succ_le hk)
  · exact h.fits
  · intro k hk
    obtain ⟨hlt, hnot⟩ := h.gone k hk
    refine ⟨Nat.lt_succ_of_lt hlt, fun hin => ?_⟩
    rcases hmem k hin with hold' | heq
    · exact hnot hold'
    · exact absurd (heq ▸ hlt) (Nat.lt_irrefl _)

/-- The length that a reply leaves in a handler that has waited for it. -/
theorem nbytes_setSamples {r : Rch.RchReturn} {start nsamples : BitVec 32} (hr : r.nbytes = 0) :
    (Rch.Device.setSamples r start nsamples).nbytes.toNat = saidBytes nsamples := by
  rw [Rch.Device.setSamples, saidBytes]
  split
  · rw [hr]
    rfl
  · rfl

/-- The reply to request `k`. -/
theorem CardInv.reply (h : CardInv d c) {start nsamples : BitVec 32}
    (hn : d.unanswered[n]? = some k)
    (hsaid : saidBytes nsamples ≤ (c.transferred k).length) :
    CardInv { d with
        rchAB := fun buffer => Driver.deliver (d.rchAB buffer) k start nsamples
        unanswered := d.unanswered.eraseIdx n }
      { c with
        answered := Function.update c.answered k
          ((c.transferred k).take (saidBytes nsamples)) } := by
  have hk : k ∈ d.unanswered := List.mem_of_getElem? hn
  have hmem : ∀ other ∈ d.unanswered.eraseIdx n, other ∈ d.unanswered ∧ other ≠ k := by
    intro other hother
    refine ⟨List.mem_of_mem_eraseIdx hother, ?_⟩
    rintro rfl
    obtain ⟨i, hne, hi⟩ := List.mem_eraseIdx_iff_getElem?.mp hother
    have hlt := (List.getElem?_eq_some_iff.mp hi).1
    exact hne ((List.getElem?_inj hlt h.nodup).mp (hi.trans hn.symm))
  have hsame : ∀ {other}, other ≠ k → Function.update c.answered k
      ((c.transferred k).take (saidBytes nsamples)) other = c.answered other :=
    fun hne => Function.update_of_ne hne _ _
  have hlen : (Function.update c.answered k
      ((c.transferred k).take (saidBytes nsamples)) k).length ≤ BUFLEN := by
    rw [Function.update_self, List.length_take]
    exact Nat.le_trans (Nat.min_le_right _ _) (h.fits k).1
  constructor
  · exact h.nodup.eraseIdx n
  · intro other hother
    obtain ⟨hin, hne⟩ := hmem other hother
    obtain ⟨waiting, hwaiting, hblock, hrest⟩ := h.waits other hin
    refine ⟨waiting, ?_, hblock, hrest⟩
    show Driver.deliver (d.rchAB (c.target other)) k start nsamples = some waiting
    rw [Driver.deliver, hwaiting, Option.map_some, if_neg (hblock ▸ hne)]
  · intro buffer handler hslot
    obtain ⟨old, hold, hblock, _⟩ := BufferAB.deliver_eq_some hslot
    rw [hblock]
    exact h.slots buffer old hold
  · intro buffer handler hslot hvalid
    obtain ⟨old, hold, hnew⟩ := Option.map_eq_some_iff.mp hslot
    by_cases hblock : old.block = k
    · rw [if_pos hblock] at hnew
      obtain ⟨waiting, hwaiting, _, _, hnone⟩ := h.waits k hk
      have htarget : c.target k = buffer := hblock ▸ (h.slots buffer old hold).2
      have hnbytes : old.rchReturn.nbytes = 0 := by
        rw [htarget, hold] at hwaiting
        rw [Option.some.inj hwaiting]
        exact hnone
      rw [← hnew]
      show slice (c.memory buffer) 0 (Rch.Device.setSamples _ _ _).nbytes.toNat
        = Function.update c.answered k _ old.block
      rw [hblock, Function.update_self, nbytes_setSamples hnbytes, ← h.moved k hk, htarget,
        take_slice _ 0 hsaid]
    · rw [if_neg hblock] at hnew
      rw [← hnew] at hvalid ⊢
      show _ = Function.update c.answered k _ old.block
      rw [hsame hblock]
      exact h.full buffer old hold hvalid
  · exact fun other hother => h.moved other (hmem other hother).1
  · exact h.unmoved
  · intro other
    refine ⟨(h.fits other).1, ?_⟩
    by_cases heq : other = k
    · rw [heq]
      exact hlen
    · show (Function.update c.answered k _ other).length ≤ BUFLEN
      rw [hsame heq]
      exact (h.fits other).2
  · intro other hother
    obtain ⟨hlt, hnot⟩ := h.gone other hother
    exact ⟨hlt, fun hin => hnot (hmem other hin).1⟩

/-- An event of the driver, where a recycled buffer has its data. -/
theorem CardInv.event (h : CardInv d c) {d' : Driver} {event : Event}
    (hrecycle : ∀ buffer, d.pc = .recycle buffer → flagged d.ops.recycle buffer = true →
      ∀ handler ∈ d.rchAB buffer, handler.rchReturn.valid ≠ 0)
    (hd : d.step event = some d') (hc : c.note d event = some c') : CardInv d' c' := by
  cases event with
  | go =>
    obtain rfl := Option.some.inj hc
    simp only [Driver.step, Driver.go] at hd
    split at hd
    · rename_i buffer hpc
      obtain rfl := Option.some.inj hd
      split
      · rename_i hflag
        exact (h.recycle (hrecycle buffer hpc hflag)).during _ _
      · exact h.during _ _
    · split at hd
      · obtain rfl := Option.some.inj hd
        exact h.during _ _
      · cases hd
    · split at hd
      · cases hd
      · rename_i handler hslot
        split at hd
        · rename_i hvalid
          obtain rfl := Option.some.inj hd
          exact (h.report hslot hvalid).during _ _
        · obtain rfl := Option.some.inj hd
          exact h.during _ _
    all_goals cases hd
  | post mfa stale =>
    simp only [Driver.step, Driver.post] at hd
    split at hd
    · rename_i buffer hpc
      simp only [Card.note, hpc] at hc
      obtain rfl := Option.some.inj hc
      split at hd
      · rename_i hnone
        obtain rfl := Option.some.inj hd
        exact (h.queue (Option.isNone_iff_eq_none.mp hnone) mfa stale).during _ _
      · cases hd
    · cases hd
  | wake =>
    obtain rfl := Option.some.inj hc
    simp only [Driver.step, Driver.wake] at hd
    split at hd
    · obtain rfl := Option.some.inj hd
      exact h.during _ _
    · cases hd
  | timeout | signal =>
    obtain rfl := Option.some.inj hc
    simp only [Driver.step, Driver.endWait] at hd
    split at hd
    · obtain rfl := Option.some.inj hd
      exact h.during _ _
    · cases hd
  | reply n start nsamples =>
    obtain ⟨k, hn, rfl⟩ := Option.map_eq_some_iff.mp hd
    obtain ⟨k', hn', hc⟩ := Option.bind_eq_some_iff.mp hc
    obtain rfl := Option.some.inj (hn.symm.trans hn')
    split at hc
    · rename_i hsaid
      obtain rfl := Option.some.inj hc
      exact h.reply hn hsaid
    · cases hc

/-- What a request was for, and what its reply has said, is settled once the
block is reported. -/
theorem CardInv.note_keeps (h : CardInv d c) {event : Event} (hc : c.note d event = some c')
    (hk : k ∈ d.reported) : c'.target k = c.target k ∧ c'.answered k = c.answered k := by
  obtain ⟨hlt, hnot⟩ := h.gone k hk
  cases event with
  | post mfa stale =>
    simp only [Card.note] at hc
    split at hc
    · obtain rfl := Option.some.inj hc
      exact ⟨Function.update_of_ne (Nat.ne_of_lt hlt) _ _, rfl⟩
    · obtain rfl := Option.some.inj hc
      exact ⟨rfl, rfl⟩
  | reply n start nsamples =>
    obtain ⟨other, hn, hc⟩ := Option.bind_eq_some_iff.mp hc
    split at hc
    · obtain rfl := Option.some.inj hc
      have hne : k ≠ other := by
        rintro rfl
        exact hnot (List.mem_of_getElem? hn)
      exact ⟨rfl, Function.update_of_ne hne _ _⟩
    · cases hc
  | go | wake | timeout | signal =>
    obtain rfl := Option.some.inj hc
    exact ⟨rfl, rfl⟩

end Card

section Stream

variable {sys sys' : Htstream.Sys} {c c' : Card} {l : Htstream.Label}

theorem leave_driver (rc : BufferAB.Rc) (copied : Bool) :
    (sys.leave rc copied).driver = { sys.driver with pc := .idle } := by
  rw [Sys.leave]
  dsimp only
  split <;> rfl

theorem cardInv_stream (h : CardInv sys.driver c) (hstream : StreamInv sys)
    (hs : Htstream.step l sys = some sys') (hc : c.noteLabel sys.driver l = some c') :
    CardInv sys'.driver c' := by
  cases l with
  | enter =>
    obtain rfl := Option.some.inj hc
    rw [Htstream.step] at hs
    split at hs
    · obtain rfl := Option.some.inj hs
      exact h.during _ _
    · cases hs
  | interrupted =>
    obtain rfl := Option.some.inj hc
    rw [Htstream.step] at hs
    split at hs
    · obtain rfl := Option.some.inj hs
      exact h
    · cases hs
  | copyInFault =>
    obtain rfl := Option.some.inj hc
    rw [Htstream.step] at hs
    split at hs
    · obtain rfl := Option.some.inj hs
      exact h
    · cases hs
  | driver event =>
    obtain ⟨d, hd, rfl⟩ := Option.map_eq_some_iff.mp hs
    refine h.event (fun buffer hpc hflag handler hslot => ?_) hd hc
    exact (hstream.nothingThrownAway.recycles buffer hpc hflag handler hslot).1
  | leave copied =>
    obtain rfl := Option.some.inj hc
    rw [Htstream.step] at hs
    split at hs
    · obtain rfl := Option.some.inj hs
      rw [leave_driver]
      exact h.during _ _
    · cases hs

end Stream

end Acq200.Recorder
