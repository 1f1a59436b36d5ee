import Acq200.Bridge.Tiling

/-!
# A file written and read back

A program that copies a file to the card passes on, call by call, what the
calls before have not accepted.  A program that copies it back calls read until
a call returns 0.  The device before each call is any device, and calls may
fail in between.

`file_round_trip` proves for calls that all fit that what is read back is never
anything but the first bytes of the file, and that it is the whole file once
everything was accepted and a read has returned 0.
-/

namespace Acq200.Bridge

open Acq200.Buffers
open Acq200.Rch
open Acq200.Lib

section RoundTrip

variable {α : Type} {file : File} {total : Nat}

/-! ## The writer -/

/-- Each call passes on what the calls before have not accepted. -/
def PassesRest (file : File) : List (WriteCall α) → BitVec 64 → List α → Prop
  | [], _, _ => True
  | c :: cs, posp, src =>
    c.src = src ∧
      PassesRest file cs (c.run file posp).posp
        (src.drop (acceptedBytes (c.run file posp) c.src).length)

theorem acceptedBytes_isPrefix (o : Outcome) (src : List α) : acceptedBytes o src <+: src := by
  rw [acceptedBytes]
  split
  · exact List.take_prefix _ _
  · exact List.nil_prefix

/-- The bytes that are accepted are the first ones. -/
theorem PassesRest.isPrefix {cs : List (WriteCall α)} {posp : BitVec 64} {src : List α}
    (h : PassesRest file cs posp src) : acceptedBy file cs posp <+: src := by
  induction cs generalizing posp src with
  | nil => exact List.nil_prefix
  | cons c cs ih =>
    obtain ⟨hsrc, hrest⟩ := h
    have hfirst := acceptedBytes_isPrefix (c.run file posp) c.src
    have hsplit := List.prefix_iff_eq_append.mp hfirst
    have hmore := (List.prefix_append_right_inj (acceptedBytes (c.run file posp) c.src)).mpr
      (ih hrest)
    rw [← hsrc, hsplit] at hmore
    rw [acceptedBy, ← hsrc]
    exact hmore

/-! ## The reader -/

/-- A read has returned 0. -/
def EndSeen (file : File) : List ReadCall → BitVec 64 → Prop
  | [], _ => False
  | c :: cs, posp => (c.run file posp).rc = some 0 ∨ EndSeen file cs (c.run file posp).posp

/-- No read gets anything from beyond the end of the data. -/
theorem rc_le_total {c : ReadCall} {posp : BitVec 64} {rc : Int}
    (hserves : CardServes total (c.run file posp) c.env)
    (htiles : ReadTiles total posp (c.run file posp)) (hle : posp.toNat ≤ 2 * total)
    (hrc : (c.run file posp).rc = some rc) : posp.toNat + rc.toNat ≤ 2 * total := by
  rcases htiles rc hrc with ⟨hneg, _⟩ | ⟨r, hr, hfirst, hnonneg, hbytes, _, _, _⟩
  · omega
  · rw [ReadCall.run, bridgeRead] at hrc hr hserves
    rcases read_cases HRD_CHAN_IS_FILE c.count posp c.env file c.device with
      ⟨-, hstays⟩ | ⟨e, m, start, nsamples, hget⟩
    · have hneg := hstays.1 rc hrc
      omega
    · have hdata := hget.readData HRD_CHAN_IS_FILE c.count posp
      have hn := hserves r start nsamples hr hget.reply
      rw [hdata.rc] at hrc
      obtain rfl := Option.some.inj hrc
      rw [hdata.request] at hr
      obtain rfl := Option.some.inj hr
      have hnsamples : 2 * (BitVec.ofNat 32 ((file.kbuf m).clip c.count) / 2).toNat
          = 2 * ((file.kbuf m).clip c.count / 2) := bytes_eq (clip_lt file m c.count)
      have hclip := clip_lt file m c.count
      have hsaid : nsamples.toNat = min (BitVec.ofNat 32 ((file.kbuf m).clip c.count) / 2).toNat
        (total - (posp.setWidth 32 / 2).toNat) := hn
      have hstart : 2 * (posp.setWidth 32 / 2).toNat = posp.toNat := hfirst
      rw [toInt_samples (by omega), Int.toNat_natCast]
      omega

/-- A read leaves the position inside the data. -/
theorem posp_le_total {c : ReadCall} {posp : BitVec 64}
    (hserves : CardServes total (c.run file posp) c.env)
    (htiles : ReadTiles total posp (c.run file posp)) (hle : posp.toNat ≤ 2 * total) :
    (c.run file posp).posp.toNat ≤ 2 * total := by
  cases hrc : (c.run file posp).rc with
  | none =>
    rw [read_fault file c posp hrc]
    exact hle
  | some rc =>
    have hbound := rc_le_total hserves htiles hle hrc
    rcases htiles rc hrc with ⟨_, hposp⟩ | ⟨r, _, _, _, _, hposp, _, _⟩
    · rw [hposp]
      exact hle
    · omega

/-- The reads stop at the end of the data, and only there do they get to it. -/
theorem ReadsTile.length_le (content : Nat → α) {cs : List ReadCall} {posp : BitVec 64}
    (htiles : ReadsTile file total cs posp) (hserved : ReadsServed file total cs posp)
    (hle : posp.toNat ≤ 2 * total) :
    posp.toNat + (gotBy file content cs posp).length ≤ 2 * total ∧
      (EndSeen file cs posp → posp.toNat + (gotBy file content cs posp).length = 2 * total) := by
  induction cs generalizing posp with
  | nil => exact ⟨hle, fun h => absurd h id⟩
  | cons c cs ih =>
    obtain ⟨_, hmoved⟩ := htiles.1.gotBytes file total content
    have hnext := posp_le_total hserved.1 htiles.1 hle
    obtain ⟨hrest, hend⟩ := ih htiles.2 hserved.2 hnext
    rw [gotBy, List.length_append]
    refine ⟨by omega, ?_⟩
    rintro (hzero | hseen)
    · rcases htiles.1 0 hzero with ⟨hneg, _⟩ | ⟨r, _, _, _, _, _, _, hdone⟩
      · exact absurd hneg (Int.lt_irrefl 0)
      · have hover := hdone rfl
        omega
    · have hall := hend hseen
      omega

/-! ## The copy and the copy back -/

/-- A file that is copied to the card and read back from the same position.
The data of the card end where the last write has ended. -/
theorem file_round_trip {posp : BitVec 64} {content : Nat → α} {src : List α}
    {writes : List (WriteCall α)} {reads : List ReadCall}
    (hpasses : PassesRest file writes posp src) (hwrites : WritesFit file writes posp)
    (hserved : ReadsServed file total reads posp) (hreads : ReadsFit file total reads posp)
    (htotal : 2 * total = posp.toNat + (acceptedBy file writes posp).length) :
    gotBy file (writtenBy file writes posp content) reads posp <+: src ∧
      ((acceptedBy file writes posp).length = src.length → EndSeen file reads posp →
        gotBy file (writtenBy file writes posp content) reads posp = src) := by
  have hwritten := ((writesTile_iff file writes posp).mpr hwrites).written file content
  have htiles := (readsTile_iff file total hserved).mpr hreads
  have haccepted := hpasses.isPrefix
  rw [hwritten]
  have hgot := htiles.got file total (splice content posp.toNat (acceptedBy file writes posp))
  obtain ⟨hlen, hend⟩ := htiles.length_le
    (splice content posp.toNat (acceptedBy file writes posp)) hserved (by omega)
  -- What is read back are the first bytes of what was accepted.
  rw [← take_slice _ _ (show _ ≤ (acceptedBy file writes posp).length by omega),
    slice_splice] at hgot
  refine ⟨?_, ?_⟩
  · rw [hgot]
    exact (List.take_prefix _ _).trans haccepted
  · intro hall hseen
    have hwhole := hend hseen
    rw [hgot, List.take_of_length_le (by omega), haccepted.eq_of_length hall]

end RoundTrip

/-- Two samples in one write. -/
def twoSamples : List (WriteCall Nat) := [⟨poolCreate 0#16, [1, 2, 3, 4], ⟨true, none⟩⟩]

/-- A read of one sample at a time, up to the read that returns 0. -/
def readToEnd : List ReadCall :=
  [⟨poolCreate 0#16, 2, ⟨true, some (0, 1)⟩⟩, ⟨poolCreate 5#16, 2, ⟨true, some (1, 1)⟩⟩,
    ⟨poolCreate 9#16, 2, ⟨true, some (2, 0)⟩⟩]

theorem file_round_trip_twoSamples :
    gotBy onePage (writtenBy onePage twoSamples 0 fun _ => 0) readToEnd 0 = [1, 2, 3, 4] := by
  have hpasses : PassesRest onePage twoSamples 0 [1, 2, 3, 4] := ⟨rfl, trivial⟩
  have hwrites : WritesFit onePage twoSamples 0 := by
    have hclip : ∀ m, (onePage.kbuf m).clip 4 = 4 := fun _ => rfl
    refine ⟨?_, trivial⟩
    intro e m _ _ _ _
    exact ⟨by decide, by decide, congrArg (· % 2) (hclip m), rfl⟩
  have hserved : ReadsServed onePage 2 readToEnd 0 := by
    refine ⟨?_, ?_, ?_, trivial⟩ <;>
    · rintro r start nsamples ⟨⟩ ⟨⟩
      decide
  have hreads : ReadsFit onePage 2 readToEnd 0 := by
    refine ⟨?_, ?_, ?_, trivial⟩ <;>
    · intro e m start nsamples _
      exact ⟨by decide, by decide, Or.inl (Nat.le_refl 2)⟩
  exact (file_round_trip hpasses hwrites hserved hreads (by decide)).2 (by decide)
    (Or.inr (Or.inr (Or.inl (by decide))))

end Acq200.Bridge
