import Acq200.Bridge.Basic
import Acq200.Lib.Splice
import Mathlib.Data.Int.ModEq

/-!
# Transfers tile the file

The position of a file counts bytes, and a request record counts samples of
two bytes in 32 bits.  This module follows the position through any
sequence of writes, or of reads, on one file.  The device before each call
is any device, so other files may be used in between.

`WriteTiles` and `ReadTiles` say that the record of a call names the bytes
by which the call moves the position.  A sequence whose calls all tile has
the effect of one transfer, which is in `Lib.splice` and `Lib.slice`: what is
left on the card, or what the reader gets, does not depend on the cuts.
`transfers_tile_iff` says for which sequences this holds.
-/

namespace Acq200.Bridge

open Acq200.Buffers
open Acq200.Rch
open Acq200.Lib

/-- The first byte of a request record. -/
def HostRequest.first (r : HostRequest) : Nat := 2 * r.start.toNat

/-- The number of bytes of a request record. -/
def HostRequest.bytes (r : HostRequest) : Nat := 2 * r.nsamples.toNat

/-! ## One write -/

/-- A write that returns an error has sent nothing and not moved.  Any other
write has posted a record of exactly the bytes by which it moved, which are
the bytes that it accepted. -/
def WriteTiles (posp : BitVec 64) (o : Outcome) : Prop :=
  ∀ rc, o.rc = some rc →
    (rc < 0 ∧ o.posp = posp ∧ o.sendRc = none) ∨
    ∃ r, o.request = some r ∧ o.sendRc = some 0 ∧ r.first = posp.toNat ∧
      (r.bytes : Int) = rc ∧ o.posp.toNat = posp.toNat + r.bytes

/-- What a write that transfers anything needs: an even position below 4 GiB,
an even number of bytes and a free frame. -/
def WriteFits (file : File) (d : Device) (count : Nat) (posp : BitVec 64) (env : Env) : Prop :=
  ∀ e m, allocAlone d.handlers = some e → allocAlone d.mappings = some m → e ∉ d.list →
    (file.kbuf m).clip count ≠ 0 →
    posp.toNat % 2 = 0 ∧ posp.toNat < 2 ^ 32 ∧ (file.kbuf m).clip count % 2 = 0 ∧
      env.mfa = true

/-- The first byte of a record is the position, rounded down to a sample and
taken modulo 4 GiB. -/
theorem first_eq (posp : BitVec 64) :
    2 * (posp.setWidth 32 / 2).toNat = 2 * (posp.toNat % 2 ^ 32 / 2) := by
  rw [BitVec.toNat_udiv, BitVec.toNat_setWidth]
  rfl

/-- It is the position itself exactly for even positions below 4 GiB. -/
theorem first_eq_posp {posp : BitVec 64} :
    2 * (posp.setWidth 32 / 2).toNat = posp.toNat ↔
      posp.toNat % 2 = 0 ∧ posp.toNat < 2 ^ 32 := by
  rw [first_eq]
  omega

theorem bytes_eq {n : Nat} (hn : n < 2 ^ 31) :
    2 * (BitVec.ofNat 32 n / 2).toNat = 2 * (n / 2) := by
  rw [BitVec.toNat_udiv, BitVec.toNat_ofNat, Nat.mod_eq_of_lt (by omega)]
  rfl

/-- An early error return tiles. -/
theorem writeTiles_early {posp : BitVec 64} {rc : Int} {d : Device} (hneg : rc < 0) :
    WriteTiles posp (Outcome.early (some rc) d posp) := by
  intro rc' hrc'
  cases hrc'
  exact Or.inl ⟨hneg, rfl, rfl⟩

theorem writeTiles_of_none {posp : BitVec 64} {o : Outcome} (h : o.rc = none) :
    WriteTiles posp o := by
  intro rc hrc
  rw [h] at hrc
  cases hrc

/-- A write that sends `n` bytes tiles exactly when `n` and the position fit
in a record that was posted. -/
theorem writeTiles_sent {posp : BitVec 64} {o : Outcome} {r : HostRequest} {n : Nat}
    {mfa : Bool} (hn : n < 2 ^ 31) (hrc : o.rc = some (n : Int))
    (hposp : o.posp = posp + BitVec.ofNat 64 n) (hrequest : o.request = some r)
    (hsend : o.sendRc = some (if mfa then 0 else -EACQ32_NO_INCOMING_I2O))
    (hstart : r.start = posp.setWidth 32 / 2) (hsamples : r.nsamples = BitVec.ofNat 32 n / 2) :
    WriteTiles posp o ↔
      posp.toNat % 2 = 0 ∧ posp.toNat < 2 ^ 32 ∧ n % 2 = 0 ∧ mfa = true := by
  have hfirst : r.first = posp.toNat ↔ posp.toNat % 2 = 0 ∧ posp.toNat < 2 ^ 32 := by
    rw [HostRequest.first, hstart]
    exact first_eq_posp
  have hbytes : r.bytes = 2 * (n / 2) := by
    rw [HostRequest.bytes, hsamples, bytes_eq hn]
  constructor
  · intro h
    rcases h _ hrc with ⟨hneg, -⟩ | ⟨r', hr', hsent, hr'first, hr'bytes, -⟩
    · omega
    · rw [hrequest] at hr'
      cases hr'
      obtain ⟨heven, hlt⟩ := hfirst.mp hr'first
      refine ⟨heven, hlt, by omega, ?_⟩
      cases mfa with
      | true => rfl
      | false =>
        rw [hsend] at hsent
        exact absurd (Option.some.inj hsent) (by decide)
  · rintro ⟨heven, hlt, hn2, hmfa⟩ rc hrc'
    rw [hrc] at hrc'
    cases hrc'
    refine Or.inr ⟨r, hrequest, ?_, hfirst.mpr ⟨heven, hlt⟩, by omega, ?_⟩
    · rw [hsend, hmfa]
      rfl
    · rw [hposp, BitVec.toNat_add, BitVec.toNat_ofNat,
        Nat.mod_eq_of_lt (b := 2 ^ 64) (by omega), Nat.mod_eq_of_lt (by omega)]
      omega

theorem writeTiles_iff (file : File) (d : Device) (count : Nat) (posp : BitVec 64)
    (env : Env) :
    WriteTiles posp (bridgeWrite file d count posp env) ↔
      WriteFits file d count posp env := by
  rw [bridgeWrite]
  rcases write_cases HRD_CHAN_IS_FILE count posp env file d with
    ⟨hstop, hout⟩ | ⟨e, m, he, hm, hfresh, hn⟩
  · refine iff_of_true ?_ fun e m he hm hfresh hn => absurd (hstop e m he hm hfresh) hn
    rcases hout with ⟨rc, d', hneg, heq⟩ | ⟨hnone, -, -⟩
    · rw [heq]
      exact writeTiles_early hneg
    · exact writeTiles_of_none hnone
  · obtain ⟨d', rc, hpost, heq⟩ :=
      write_sent HRD_CHAN_IS_FILE count posp env he hm hn hfresh
    rw [heq, writeTiles_sent (clip_lt file m count) rfl rfl rfl
      (congrArg some (requested hpost).rc) rfl rfl]
    constructor
    · intro h e' m' _ hm' _ _
      cases hm.symm.trans hm'
      exact h
    · intro h
      exact h e m he hm hfresh hn

/-! ## Runs of writes -/

section Writes

variable {α : Type} (file : File)

/-- One call of `acq200_bridge_write` in a run: the device that it meets, the
user's bytes and what happens outside. -/
structure WriteCall (α : Type) where
  device : Device
  src : List α
  env : Env

def WriteCall.run (c : WriteCall α) (posp : BitVec 64) : Outcome :=
  bridgeWrite file c.device c.src.length posp c.env

/-- What the card has after a write.  It moves exactly the samples that a
posted record names, from the mapping with the user's bytes. -/
def cardWrite (content : Nat → α) (o : Outcome) (src : List α) : Nat → α :=
  match o.request, o.sendRc with
  | some r, some 0 => splice content r.first (src.take r.bytes)
  | _, _ => content

/-- The bytes that a write has accepted. -/
def acceptedBytes (o : Outcome) (src : List α) : List α :=
  match o.rc with
  | some rc => src.take rc.toNat
  | none => []

/-- Every call of the run tiles. -/
def WritesTile : List (WriteCall α) → BitVec 64 → Prop
  | [], _ => True
  | c :: cs, posp => WriteTiles posp (c.run file posp) ∧ WritesTile cs (c.run file posp).posp

/-- Every call of the run fits. -/
def WritesFit : List (WriteCall α) → BitVec 64 → Prop
  | [], _ => True
  | c :: cs, posp =>
    WriteFits file c.device c.src.length posp c.env ∧ WritesFit cs (c.run file posp).posp

/-- What the card has after the run, and all the bytes that were accepted. -/
def writtenBy : List (WriteCall α) → BitVec 64 → (Nat → α) → (Nat → α)
  | [], _, content => content
  | c :: cs, posp, content =>
    writtenBy cs (c.run file posp).posp (cardWrite content (c.run file posp) c.src)

def acceptedBy : List (WriteCall α) → BitVec 64 → List α
  | [], _ => []
  | c :: cs, posp =>
    acceptedBytes (c.run file posp) c.src ++ acceptedBy cs (c.run file posp).posp

/-- No call accepts more than the user has. -/
theorem write_rc_le (c : WriteCall α) (posp : BitVec 64) {rc : Int}
    (h : (c.run file posp).rc = some rc) : rc ≤ c.src.length := by
  rw [WriteCall.run, bridgeWrite] at h
  rcases write_cases HRD_CHAN_IS_FILE c.src.length posp c.env file c.device with
    ⟨-, ⟨rc', d', hneg, heq⟩ | ⟨hnone, -⟩⟩ | ⟨e, m, he, hm, hfresh, hn⟩
  · rw [heq] at h
    cases h
    omega
  · rw [hnone] at h
    cases h
  · obtain ⟨d', rc', -, heq⟩ :=
      write_sent HRD_CHAN_IS_FILE c.src.length posp c.env he hm hn hfresh
    rw [heq] at h
    cases h
    exact Int.ofNat_le.mpr (clip_le _ _)

/-- A call that faults has posted nothing and not moved. -/
theorem write_fault (c : WriteCall α) (posp : BitVec 64)
    (h : (c.run file posp).rc = none) :
    (c.run file posp).posp = posp ∧ (c.run file posp).sendRc = none := by
  rw [WriteCall.run, bridgeWrite] at h ⊢
  rcases write_cases HRD_CHAN_IS_FILE c.src.length posp c.env file c.device with
    ⟨-, ⟨rc, d', -, heq⟩ | ⟨-, hsend, hposp⟩⟩ | ⟨e, m, he, hm, hfresh, hn⟩
  · rw [heq] at h
    cases h
  · exact ⟨hposp, hsend⟩
  · obtain ⟨d', rc, -, heq⟩ :=
      write_sent HRD_CHAN_IS_FILE c.src.length posp c.env he hm hn hfresh
    rw [heq] at h
    cases h

/-- A call that tiles writes what it accepts, where the position was. -/
theorem WriteTiles.cardWrite {c : WriteCall α} {posp : BitVec 64}
    (h : WriteTiles posp (c.run file posp)) (content : Nat → α) :
    cardWrite content (c.run file posp) c.src
        = splice content posp.toNat (acceptedBytes (c.run file posp) c.src) ∧
      (c.run file posp).posp.toNat
        = posp.toNat + (acceptedBytes (c.run file posp) c.src).length := by
  cases hrc : (c.run file posp).rc with
  | none =>
    obtain ⟨hposp, hsend⟩ := write_fault file c posp hrc
    simp [Bridge.cardWrite, acceptedBytes, hrc, hsend, hposp, splice_nil]
  | some rc =>
    rcases h rc hrc with ⟨hneg, hposp, hsend⟩ | ⟨r, hr, hsend, hfirst, hbytes, hposp⟩
    · have hzero : rc.toNat = 0 := by omega
      simp [Bridge.cardWrite, acceptedBytes, hrc, hsend, hposp, hzero, splice_nil]
    · have hnat : rc.toNat = r.bytes := by omega
      have hle := write_rc_le file c posp hrc
      simp only [Bridge.cardWrite, acceptedBytes, hr, hsend, hrc, hfirst, hnat, true_and]
      rw [hposp, List.length_take]
      omega

/-- A run whose calls tile has the effect of one write. -/
theorem WritesTile.written {cs : List (WriteCall α)} {posp : BitVec 64}
    (h : WritesTile file cs posp) (content : Nat → α) :
    writtenBy file cs posp content
      = splice content posp.toNat (acceptedBy file cs posp) := by
  induction cs generalizing posp content with
  | nil => exact (splice_nil content posp.toNat).symm
  | cons c cs ih =>
    obtain ⟨hcard, hposp⟩ := h.1.cardWrite file content
    rw [writtenBy, acceptedBy, ih h.2, hcard, hposp, splice_append]

theorem writesTile_iff (cs : List (WriteCall α)) (posp : BitVec 64) :
    WritesTile file cs posp ↔ WritesFit file cs posp := by
  induction cs generalizing posp with
  | nil => exact Iff.rfl
  | cons c cs ih =>
    rw [WritesTile, WritesFit, ih]
    exact and_congr_left fun _ => writeTiles_iff file c.device c.src.length posp c.env

end Writes

/-! ## One read -/

/-- The card moves exactly the samples that a record names, or fewer where
its `total` samples end. -/
def CardServes (total : Nat) (o : Outcome) (env : Env) : Prop :=
  ∀ r start nsamples, o.request = some r → env.reply = some (start, nsamples) →
    nsamples.toNat = min r.nsamples.toNat (total - r.start.toNat)

/-- A read that returns an error has not moved.  Any other read has named the
position and moved by what it returns, which is less than the record only
at the end of the data. -/
def ReadTiles (total : Nat) (posp : BitVec 64) (o : Outcome) : Prop :=
  ∀ rc, o.rc = some rc →
    (rc < 0 ∧ o.posp = posp) ∨
    ∃ r, o.request = some r ∧ r.first = posp.toNat ∧ 0 ≤ rc ∧ rc ≤ r.bytes ∧
      o.posp.toNat = posp.toNat + rc.toNat ∧
      (rc < r.bytes → 2 * total ≤ posp.toNat + rc.toNat) ∧
      (rc = 0 → 2 * total ≤ posp.toNat)

/-- What a read that gets data needs: an even position below 4 GiB, and at
least one sample to ask for unless the data are at their end. -/
def ReadFits (file : File) (d : Device) (count : Nat) (posp : BitVec 64) (env : Env)
    (total : Nat) : Prop :=
  ∀ e m start nsamples, GetsData file d env e m start nsamples →
    posp.toNat % 2 = 0 ∧ posp.toNat < 2 ^ 32 ∧
      (2 ≤ (file.kbuf m).clip count ∨ 2 * total ≤ posp.toNat)

theorem toNat_add_bytes {posp : BitVec 64} {n : Nat} (h : posp.toNat + n < 2 ^ 64) :
    (posp + BitVec.ofInt 64 n).toNat = posp.toNat + n := by
  rw [BitVec.ofInt_natCast, BitVec.toNat_add, BitVec.toNat_ofNat,
    Nat.mod_eq_of_lt (show n < 2 ^ 64 by omega), Nat.mod_eq_of_lt h]

/-- A read of `k` bytes, of which the card has moved what it has, tiles exactly
when the position fits in a record and the record asks for something. -/
theorem readTiles_data {posp : BitVec 64} {o : Outcome} {r : HostRequest}
    {n : BitVec 32} {k total : Nat} (hk : k < 2 ^ 31) (hrc : o.rc = some (n * 2).toInt)
    (hposp : o.posp = posp + BitVec.ofInt 64 (n * 2).toInt) (hrequest : o.request = some r)
    (hstart : r.start = posp.setWidth 32 / 2) (hsamples : r.nsamples = BitVec.ofNat 32 k / 2)
    (hn : n.toNat = min r.nsamples.toNat (total - r.start.toNat)) :
    ReadTiles total posp o ↔
      posp.toNat % 2 = 0 ∧ posp.toNat < 2 ^ 32 ∧ (2 ≤ k ∨ 2 * total ≤ posp.toNat) := by
  have hfirst : r.first = posp.toNat ↔ posp.toNat % 2 = 0 ∧ posp.toNat < 2 ^ 32 := by
    rw [HostRequest.first, hstart]
    exact first_eq_posp
  have hbytes : 2 * r.nsamples.toNat = 2 * (k / 2) := by
    rw [hsamples, bytes_eq hk]
  have hint : (n * 2).toInt = (2 * n.toNat : Nat) := toInt_samples (by omega)
  rw [hint] at hrc hposp
  constructor
  · intro h
    rcases h _ hrc with ⟨hneg, -⟩ | ⟨r', hr', hr'first, -, -, -, -, hzero⟩
    · omega
    · rw [hrequest] at hr'
      cases hr'
      obtain ⟨heven, hlt⟩ := hfirst.mp hr'first
      refine ⟨heven, hlt, ?_⟩
      by_cases hk2 : 2 ≤ k
      · exact Or.inl hk2
      · exact Or.inr (hzero (by omega))
  · rintro ⟨heven, hlt, hask⟩ rc hrc'
    rw [hrc] at hrc'
    cases hrc'
    have hpos := hfirst.mpr ⟨heven, hlt⟩
    have hmoved : (posp + BitVec.ofInt 64 (2 * n.toNat : Nat)).toNat
        = posp.toNat + 2 * n.toNat := toNat_add_bytes (by omega)
    refine Or.inr ⟨r, hrequest, hpos, by omega, ?_, ?_, ?_, ?_⟩
    · rw [HostRequest.bytes]
      omega
    · rw [hposp, hmoved, Int.toNat_natCast]
    · rw [HostRequest.bytes]
      rw [HostRequest.first] at hpos
      omega
    · rw [HostRequest.first] at hpos
      omega

theorem readTiles_iff (file : File) (d : Device) (count : Nat) (posp : BitVec 64)
    (env : Env) (total : Nat)
    (hserves : CardServes total (bridgeRead file d count posp env) env) :
    ReadTiles total posp (bridgeRead file d count posp env) ↔
      ReadFits file d count posp env total := by
  rw [bridgeRead] at hserves ⊢
  rcases read_cases HRD_CHAN_IS_FILE count posp env file d with
    ⟨hnone, hstays⟩ | ⟨e, m, start, nsamples, hget⟩
  · refine iff_of_true ?_ fun e m start nsamples h => absurd h (hnone e m start nsamples)
    intro rc hrc
    exact Or.inl ⟨hstays.1 rc hrc, hstays.2⟩
  · have hdata := hget.readData HRD_CHAN_IS_FILE count posp
    rw [readTiles_data (clip_lt file m count) hdata.rc hdata.posp hdata.request rfl rfl
      (hserves _ _ _ hdata.request hget.reply)]
    constructor
    · intro h e' m' _ _ hget'
      cases hget.mapping.symm.trans hget'.mapping
      exact h
    · intro h
      exact h e m start nsamples hget

/-! ## Runs of reads -/

section Reads

variable {α : Type} (file : File) (total : Nat) (content : Nat → α)

/-- One call of `acq200_bridge_read` in a run. -/
structure ReadCall where
  device : Device
  count : Nat
  env : Env

def ReadCall.run (c : ReadCall) (posp : BitVec 64) : Outcome :=
  bridgeRead file c.device c.count posp c.env

/-- The bytes that a read has got.  The card moves them from where the record
says. -/
def gotBytes (o : Outcome) : List α :=
  match o.request, o.rc with
  | some r, some rc => slice content r.first rc.toNat
  | _, _ => []

/-- The card serves every call of the run. -/
def ReadsServed : List ReadCall → BitVec 64 → Prop
  | [], _ => True
  | c :: cs, posp =>
    CardServes total (c.run file posp) c.env ∧ ReadsServed cs (c.run file posp).posp

/-- Every call of the run tiles. -/
def ReadsTile : List ReadCall → BitVec 64 → Prop
  | [], _ => True
  | c :: cs, posp =>
    ReadTiles total posp (c.run file posp) ∧ ReadsTile cs (c.run file posp).posp

/-- Every call of the run fits. -/
def ReadsFit : List ReadCall → BitVec 64 → Prop
  | [], _ => True
  | c :: cs, posp =>
    ReadFits file c.device c.count posp c.env total ∧ ReadsFit cs (c.run file posp).posp

/-- All the bytes that the run has got. -/
def gotBy : List ReadCall → BitVec 64 → List α
  | [], _ => []
  | c :: cs, posp => gotBytes content (c.run file posp) ++ gotBy cs (c.run file posp).posp

/-- A call that faults has not moved. -/
theorem read_fault (c : ReadCall) (posp : BitVec 64) (h : (c.run file posp).rc = none) :
    (c.run file posp).posp = posp := by
  rw [ReadCall.run, bridgeRead] at h ⊢
  rcases read_cases HRD_CHAN_IS_FILE c.count posp c.env file c.device with
    ⟨-, hstays⟩ | ⟨e, m, start, nsamples, hget⟩
  · exact hstays.2
  · rw [(hget.readData HRD_CHAN_IS_FILE c.count posp).rc] at h
    cases h

/-- A call that tiles gets what follows the position. -/
theorem ReadTiles.gotBytes {c : ReadCall} {posp : BitVec 64}
    (h : ReadTiles total posp (c.run file posp)) :
    gotBytes content (c.run file posp)
        = slice content posp.toNat (gotBytes content (c.run file posp)).length ∧
      (c.run file posp).posp.toNat
        = posp.toNat + (gotBytes content (c.run file posp)).length := by
  cases hrc : (c.run file posp).rc with
  | none =>
    have hposp := read_fault file c posp hrc
    cases hr : (c.run file posp).request <;> simp [Bridge.gotBytes, hrc, hr, hposp]
  | some rc =>
    rcases h rc hrc with ⟨hneg, hposp⟩ | ⟨r, hr, hfirst, -, -, hposp, -, -⟩
    · have hzero : rc.toNat = 0 := by omega
      cases hr : (c.run file posp).request <;> simp [Bridge.gotBytes, hrc, hr, hposp, hzero]
    · simp [Bridge.gotBytes, hrc, hr, hfirst, hposp]

/-- A run whose calls tile gets what one read would get. -/
theorem ReadsTile.got {cs : List ReadCall} {posp : BitVec 64}
    (h : ReadsTile file total cs posp) :
    gotBy file content cs posp
      = slice content posp.toNat (gotBy file content cs posp).length := by
  induction cs generalizing posp with
  | nil => rfl
  | cons c cs ih =>
    obtain ⟨hgot, hposp⟩ := h.1.gotBytes file total content
    rw [gotBy, List.length_append, ← slice_append, ← hgot, ← hposp, ← ih h.2]

theorem readsTile_iff {cs : List ReadCall} {posp : BitVec 64}
    (h : ReadsServed file total cs posp) :
    ReadsTile file total cs posp ↔ ReadsFit file total cs posp := by
  induction cs generalizing posp with
  | nil => exact Iff.rfl
  | cons c cs ih =>
    rw [ReadsTile, ReadsFit, ih h.2]
    exact and_congr_left fun _ =>
      readTiles_iff file c.device c.count posp c.env total h.1

end Reads

/-! ## Both directions -/

/-- Every run of writes on a file tiles it, and so leaves what one write of all
the accepted bytes would leave, exactly when every call fits.  The same for
runs of reads from a card that serves them. -/
theorem transfers_tile_iff {α : Type} (file : File) (posp : BitVec 64) (content : Nat → α)
    (total : Nat) (writes : List (WriteCall α)) (reads : List ReadCall)
    (hserved : ReadsServed file total reads posp) :
    ((WritesTile file writes posp ∧
        writtenBy file writes posp content
          = splice content posp.toNat (acceptedBy file writes posp)) ↔
      WritesFit file writes posp) ∧
    ((ReadsTile file total reads posp ∧
        gotBy file content reads posp
          = slice content posp.toNat (gotBy file content reads posp).length) ↔
      ReadsFit file total reads posp) := by
  rw [← writesTile_iff, ← readsTile_iff file total hserved]
  exact ⟨and_iff_left_of_imp fun h => h.written file content,
    and_iff_left_of_imp fun h => h.got file total content⟩

/-- A write of two samples and a read of two samples from the start of a file
of ten. -/
theorem two_samples_tile :
    (WritesTile onePage [⟨poolCreate 0#16, [1, 2, 3, 4], ⟨true, none⟩⟩] 0 ∧
      writtenBy onePage [⟨poolCreate 0#16, [1, 2, 3, 4], ⟨true, none⟩⟩] 0 (fun _ => 0)
        = splice (fun _ => 0) 0
          (acceptedBy onePage [⟨poolCreate 0#16, [1, 2, 3, 4], ⟨true, none⟩⟩] 0)) ∧
    ReadsTile onePage 10 [⟨poolCreate 0#16, 4, ⟨true, some (0, 2)⟩⟩] 0 := by
  have hserved : ReadsServed onePage 10 [⟨poolCreate 0#16, 4, ⟨true, some (0, 2)⟩⟩] 0 := by
    refine ⟨?_, trivial⟩
    rintro r start nsamples ⟨⟩ ⟨⟩
    decide
  have h := transfers_tile_iff onePage 0 (fun _ => 0) 10
    [⟨poolCreate 0#16, [1, 2, 3, 4], ⟨true, none⟩⟩]
    [⟨poolCreate 0#16, 4, ⟨true, some (0, 2)⟩⟩] hserved
  have hclip : ∀ m, (onePage.kbuf m).clip 4 = 4 := fun _ => rfl
  refine ⟨h.1.mpr ⟨?_, trivial⟩, (h.2.mpr ⟨?_, trivial⟩).1⟩
  · intro e m _ _ _ _
    refine ⟨by decide, by decide, ?_, rfl⟩
    exact congrArg (· % 2) (hclip m)
  · intro e m start nsamples _
    exact ⟨by decide, by decide, Or.inl (by rw [hclip]; decide)⟩

/-- A write of three bytes names two of them, and a read at 4 GiB names the
start of the file. -/
theorem odd_write_and_far_read :
    ¬ WritesTile onePage [⟨poolCreate 0#16, [1, 2, 3], ⟨true, none⟩⟩] 0 ∧
      ReadsServed onePage 0x100000000 [⟨poolCreate 0#16, 4, ⟨true, some (0, 2)⟩⟩]
        0x100000000#64 ∧
      ¬ ReadsTile onePage 0x100000000 [⟨poolCreate 0#16, 4, ⟨true, some (0, 2)⟩⟩]
        0x100000000#64 := by
  refine ⟨?_, ⟨?_, trivial⟩, ?_⟩
  · rintro ⟨h, -⟩
    rcases h 3 (by decide) with ⟨hneg, -⟩ | ⟨r, hr, -, -, hbytes, -⟩
    · omega
    · cases hr
      exact absurd hbytes (by decide)
  · rintro r start nsamples ⟨⟩ ⟨⟩
    decide
  · rintro ⟨h, -⟩
    rcases h 4 (by decide) with ⟨hneg, -⟩ | ⟨r, hr, hfirst, -⟩
    · omega
    · cases hr
      exact absurd hfirst (by decide)

end Acq200.Bridge
