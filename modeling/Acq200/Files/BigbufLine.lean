import Mathlib.Data.Nat.Digits.Defs
import Mathlib.Tactic.NormNum.Pow
import Acq200.Buffers.Mmap

/-!
# Reading the description of the buffer

A read of the plain device node gives one line of text with the address and
the length of the DMA buffer.  `acq200_read` writes the line anew on its stack
for each call and copies the part of it from the file position on.

The position is a `loff_t` and the function works with an `int` of it.
`bigbuf_read_iff` says for which positions this makes no difference, and that
a program that starts at the beginning of the file never gets to another one.
-/

namespace Acq200.Files

open Acq200.Buffers

/-! ## The line -/

/-- `%08x` and `%08lx`. -/
def hex08 (n : Nat) : List Char :=
  List.replicate (8 - (Nat.toDigits 16 n).length) '0' ++ Nat.toDigits 16 n

/-- `ORDER2LEN`, a product of an `int` and an `unsigned long`. -/
def order2len (order : Nat) : BitVec 64 := (1#32 <<< order).signExtend 64 * 4096#64

/-- What `sprintf` writes to `myline`. -/
def bigbufLine (buf : DmaBuf) : List Char :=
  "BIGBUF: pa=0x".toList ++ hex08 buf.pa.toNat ++ " len=0x".toList
    ++ hex08 (order2len buf.order).toNat ++ ['\n']

theorem hex08_length (n : Nat) (h : n < 2 ^ 64) : (hex08 n).length ≤ 16 := by
  have hpow : (2 : Nat) ^ 64 = 16 ^ 16 := by norm_num
  have hdigits := Nat.toDigits_length 16 n 16 (Nat.succ_pos 15) (lt_of_lt_of_eq h hpow)
  rw [hex08, List.length_append, List.length_replicate]
  omega

theorem line_length (pa len : List Char) :
    ("BIGBUF: pa=0x".toList ++ pa ++ " len=0x".toList ++ len ++ ['\n']).length
      = 21 + (pa.length + len.length) := by
  simp
  omega

/-- The line and its terminator fit into `char myline[80]`. -/
theorem bigbufLine_length (buf : DmaBuf) : (bigbufLine buf).length < 80 := by
  have hpow : (2 : Nat) ^ 32 ≤ 2 ^ 64 := by norm_num
  have hpa := hex08_length buf.pa.toNat (lt_of_lt_of_le buf.pa.isLt hpow)
  have hlen := hex08_length (order2len buf.order).toNat (order2len buf.order).isLt
  have hline : (bigbufLine buf).length
      = 21 + ((hex08 buf.pa.toNat).length + (hex08 (order2len buf.order).toNat).length) :=
    line_length _ _
  have hsum := Nat.add_le_add hpa hlen
  exact lt_of_le_of_lt (hline.trans_le (Nat.add_le_add_left hsum 21)) (by decide)

/-! ## acq200_read -/

def EFAULT : Int := 14

/-- A call of `read` with a buffer of `count` bytes.  `copyToUser` is
`copy_to_user`, which answers how many bytes it could not copy. -/
structure ReadCall where
  count : Nat
  copyToUser : Nat → Nat
  count_lt : count < 2 ^ 31
  /-- The user's buffer has `count` bytes. -/
  accessible : ∀ n ≤ count, copyToUser n = 0

/-- The byte of the stack at this offset from `myline`, if it is one of the
line. -/
def byteAt (line : List Char) (offset : Int) : Option Char :=
  if 0 ≤ offset then (line)[offset.toNat]? else none

structure ReadOutcome where
  rc : Int
  /-- What went to the user, with `none` for a byte that is not of the line. -/
  copied : List (Option Char)
  posp : BitVec 64

/-- `min`, of two values of type `int`. -/
def minInt (a b : BitVec 32) : BitVec 32 := if a.slt b then a else b

/-- `acq200_read` of `line`. -/
def readLine (line : List Char) (call : ReadCall) (posp : BitVec 64) : ReadOutcome :=
  let pos := posp.setWidth 32
  let len := BitVec.ofNat 32 line.length
  if pos.slt len then
    let len := minInt (BitVec.ofNat 32 call.count) (len - pos)
    let size := (len.signExtend 64).toNat
    let left := call.copyToUser size
    let copied := (List.range (size - left)).map fun (i : Nat) =>
      byteAt line (pos.toInt + i)
    if left ≠ 0 then { rc := -EFAULT, copied := copied, posp := posp }
    else { rc := len.toInt, copied := copied, posp := posp + len.signExtend 64 }
  else { rc := 0, copied := [], posp := posp }

def acq200Read (buf : DmaBuf) (call : ReadCall) (posp : BitVec 64) : ReadOutcome :=
  readLine (bigbufLine buf) call posp

/-! ## What a call should do -/

/-- The call has read the bytes from the position on that there are. -/
structure ReadsLine (line : List Char) (count : Nat) (posp : BitVec 64) (o : ReadOutcome) :
    Prop where
  copied : o.copied = ((line.drop posp.toNat).take count).map some
  rc : o.rc = ((line.drop posp.toNat).take count).length
  posp : o.posp = posp + BitVec.ofNat 64 ((line.drop posp.toNat).take count).length

/-- The position means the same to the function as to its caller: it is an
`int`, or the `int` of it is beyond the line too, or there is nothing to copy
and the difference to the end of the line is an `int`. -/
def PositionRead (line : List Char) (count : Nat) (posp : BitVec 64) : Prop :=
  posp.toNat < 2 ^ 31 ∨ (line.length : Int) ≤ (posp.setWidth 32).toInt ∨
    count = 0 ∧ (line.length : Int) - (posp.setWidth 32).toInt < 2 ^ 31

instance (line : List Char) (count : Nat) (posp : BitVec 64) :
    Decidable (PositionRead line count posp) :=
  inferInstanceAs (Decidable (_ ∨ _ ∨ _ ∧ _))

section Calls

variable {line : List Char} {call : ReadCall} {posp : BitVec 64}

theorem toInt_of_small {x : BitVec 32} (h : x.toNat < 2 ^ 31) : x.toInt = x.toNat :=
  BitVec.toInt_eq_toNat_of_lt (by omega)

theorem toInt_ofNat_small {n : Nat} (h : n < 2 ^ 31) : (BitVec.ofNat 32 n).toInt = n := by
  have hnat : (BitVec.ofNat 32 n).toNat = n := by
    rw [BitVec.toNat_ofNat, Nat.mod_eq_of_lt (by omega)]
  rw [toInt_of_small (by omega), hnat]

theorem toInt_minInt (a b : BitVec 32) : (minInt a b).toInt = min a.toInt b.toInt := by
  rw [minInt]
  by_cases h : a.slt b
  · rw [if_pos h]
    rw [BitVec.slt_iff_toInt_lt] at h
    omega
  · rw [if_neg h]
    rw [BitVec.slt_iff_toInt_lt] at h
    omega

/-- The bytes of the line from an offset in it. -/
theorem byteAt_range {pos k : Nat} (h : pos + k ≤ line.length) :
    (List.range k).map (fun (i : Nat) => byteAt line ((pos : Int) + i))
      = ((line.drop pos).take k).map some := by
  apply List.ext_getElem
  · simp only [List.length_map, List.length_range, List.length_take, List.length_drop]
    omega
  · intro i h₁ h₂
    have hi : i < k := by simpa using h₁
    have hnonneg : (0 : Int) ≤ (pos : Int) + i := by omega
    have hnat : ((pos : Int) + i).toNat = pos + i := by omega
    simp only [List.getElem_map, List.getElem_range, List.getElem_take, List.getElem_drop]
    rw [byteAt, if_pos hnonneg, hnat, List.getElem?_eq_getElem]

theorem signExtend_of_toInt {x : BitVec 32} {k : Nat} (h : x.toInt = k) :
    x.signExtend 64 = BitVec.ofNat 64 k := by
  have hlt := BitVec.toInt_lt (x := x)
  have hnat : x.toNat = k := by
    rw [BitVec.toInt_eq_toNat_cond] at h
    split at h <;> omega
  apply BitVec.eq_of_toNat_eq
  rw [toNat_signExtend_of_lt (by decide) (by omega), BitVec.toNat_ofNat, hnat,
    Nat.mod_eq_of_lt (by omega)]

/-- What the call does when the bytes that it wants are `k`, and no more than
the user has room for. -/
theorem readLine_copies {k : Nat}
    (hslt : (posp.setWidth 32).slt (BitVec.ofNat 32 line.length) = true)
    (hlen : (minInt (BitVec.ofNat 32 call.count)
      (BitVec.ofNat 32 line.length - posp.setWidth 32)).toInt = k)
    (hk : k ≤ call.count) :
    readLine line call posp =
      { rc := k
        copied := (List.range k).map fun (i : Nat) =>
          byteAt line ((posp.setWidth 32).toInt + i)
        posp := posp + BitVec.ofNat 64 k } := by
  have hsize : (BitVec.ofNat 64 k).toNat = k := by
    have hlt := call.count_lt
    rw [BitVec.toNat_ofNat, Nat.mod_eq_of_lt (by omega)]
  simp only [readLine, hslt, if_true, signExtend_of_toInt hlen, hsize,
    call.accessible k hk, hlen, Nat.sub_zero, ne_eq, not_true_eq_false, if_false]

theorem readLine_beyond
    (hslt : (posp.setWidth 32).slt (BitVec.ofNat 32 line.length) = false) :
    readLine line call posp = { rc := 0, copied := [], posp := posp } := by
  simp only [readLine, hslt, Bool.false_eq_true, if_false]

/-- Beyond the line there is nothing to read. -/
theorem readsLine_beyond {count : Nat} {o : ReadOutcome} (h : line.length ≤ posp.toNat) :
    ReadsLine line count posp o ↔ o = { rc := 0, copied := [], posp := posp } := by
  have hnone : (line.drop posp.toNat).take count = [] := by
    rw [List.drop_eq_nil_of_le h, List.take_nil]
  constructor
  · rintro ⟨hcopied, hrc, hposp⟩
    rw [hnone] at hcopied hrc hposp
    obtain ⟨rc, copied, posp'⟩ := o
    simp only [List.map_nil, List.length_nil] at hcopied hrc hposp
    rw [hcopied, hrc, hposp]
    congr
    exact BitVec.add_zero posp
  · rintro rfl
    refine ⟨?_, ?_, ?_⟩ <;> rw [hnone]
    · rfl
    · rfl
    · exact (BitVec.add_zero posp).symm

/-- A call at a position that is an `int`. -/
theorem readLine_small (call : ReadCall) (hline : line.length < 80) (hpos : posp.toNat < 2 ^ 31) :
    ReadsLine line call.count posp (readLine line call posp) := by
  have hp : (posp.setWidth 32).toNat = posp.toNat := by
    rw [BitVec.toNat_setWidth, Nat.mod_eq_of_lt (by omega)]
  have hpint : (posp.setWidth 32).toInt = posp.toNat := by
    rw [toInt_of_small (by omega), hp]
  have hnint : (BitVec.ofNat 32 line.length).toInt = line.length :=
    toInt_ofNat_small (by omega)
  by_cases hin : posp.toNat < line.length
  · have hslt : (posp.setWidth 32).slt (BitVec.ofNat 32 line.length) = true := by
      rw [BitVec.slt_iff_toInt_lt, hpint, hnint]
      omega
    have hsub : (BitVec.ofNat 32 line.length - posp.setWidth 32).toInt
        = (line.length - posp.toNat : Nat) := by
      have hn : (BitVec.ofNat 32 line.length).toNat = line.length := by
        rw [BitVec.toNat_ofNat, Nat.mod_eq_of_lt (by omega)]
      have hnat : (BitVec.ofNat 32 line.length - posp.setWidth 32).toNat
          = line.length - posp.toNat := by
        rw [BitVec.toNat_sub_of_le (by rw [BitVec.le_def]; omega), hn, hp]
      rw [toInt_of_small (by omega), hnat]
    have hlen : (minInt (BitVec.ofNat 32 call.count)
        (BitVec.ofNat 32 line.length - posp.setWidth 32)).toInt
          = (min call.count (line.length - posp.toNat) : Nat) := by
      rw [toInt_minInt, toInt_ofNat_small call.count_lt, hsub]
      omega
    have htake : (line.drop posp.toNat).take call.count
        = (line.drop posp.toNat).take (min call.count (line.length - posp.toNat)) := by
      rw [← List.length_drop]
      exact List.take_eq_take_min
    have hlength : ((line.drop posp.toNat).take call.count).length
        = min call.count (line.length - posp.toNat) := by
      rw [List.length_take, List.length_drop]
    rw [readLine_copies hslt hlen (Nat.min_le_left _ _)]
    refine ⟨?_, ?_, ?_⟩
    · rw [htake, hpint]
      exact byteAt_range (by omega)
    · rw [hlength]
    · rw [hlength]
  · have hslt : (posp.setWidth 32).slt (BitVec.ofNat 32 line.length) = false := by
      rw [Bool.eq_false_iff, ne_eq, BitVec.slt_iff_toInt_lt, hpint, hnint]
      omega
    rw [readLine_beyond hslt]
    exact (readsLine_beyond (by omega)).mpr rfl

/-- The distance from a position to the end of the line, as an `int`. -/
theorem toInt_distance {n : Nat} (hn : n < 80) {p : BitVec 32} (hp : p.toInt < n) :
    (BitVec.ofNat 32 n - p).toInt =
      if (n : Int) - p.toInt < 2 ^ 31 then n - p.toInt else n - p.toInt - 2 ^ 32 := by
  have hge := BitVec.le_toInt (x := p)
  rw [BitVec.toInt_sub, toInt_ofNat_small (by omega), Int.bmod_def]
  split <;> split <;> omega

/-- A call at any other position.  The user is to get nothing. -/
theorem readLine_large_iff (call : ReadCall) (hline : line.length < 80)
    (hpos : 2 ^ 31 ≤ posp.toNat) :
    ReadsLine line call.count posp (readLine line call posp) ↔
      (line.length : Int) ≤ (posp.setWidth 32).toInt ∨
        call.count = 0 ∧ (line.length : Int) - (posp.setWidth 32).toInt < 2 ^ 31 := by
  have hnint : (BitVec.ofNat 32 line.length).toInt = line.length :=
    toInt_ofNat_small (by omega)
  rw [readsLine_beyond (by omega)]
  cases hslt : (posp.setWidth 32).slt (BitVec.ofNat 32 line.length) with
  | false =>
    rw [readLine_beyond hslt]
    refine iff_of_true rfl (Or.inl ?_)
    rw [Bool.eq_false_iff, ne_eq, BitVec.slt_iff_toInt_lt, hnint] at hslt
    omega
  | true =>
    have hlt := hslt
    rw [BitVec.slt_iff_toInt_lt, hnint] at hlt
    have hdistance := toInt_distance hline hlt
    by_cases hsmall : (line.length : Int) - (posp.setWidth 32).toInt < 2 ^ 31
    · rw [if_pos hsmall] at hdistance
      have hlen : (minInt (BitVec.ofNat 32 call.count)
          (BitVec.ofNat 32 line.length - posp.setWidth 32)).toInt
            = (min call.count (line.length - (posp.setWidth 32).toInt).toNat : Nat) := by
        rw [toInt_minInt, toInt_ofNat_small call.count_lt, hdistance]
        omega
      rw [readLine_copies hslt hlen (Nat.min_le_left _ _)]
      constructor
      · intro h
        have hrc : ((min call.count (line.length - (posp.setWidth 32).toInt).toNat : Nat)
            : Int) = 0 := congrArg ReadOutcome.rc h
        exact Or.inr ⟨by omega, hsmall⟩
      · rintro (h | ⟨hzero, -⟩)
        · omega
        · rw [hzero, Nat.zero_min]
          congr
          exact BitVec.add_zero posp
    · -- The distance is not an `int`, and what wraps around is negative.
      rw [if_neg hsmall] at hdistance
      refine iff_of_false ?_ (by omega)
      have hneg : (minInt (BitVec.ofNat 32 call.count)
          (BitVec.ofNat 32 line.length - posp.setWidth 32)).toInt < 0 := by
        have hge := BitVec.le_toInt (x := posp.setWidth 32)
        rw [toInt_minInt, hdistance]
        omega
      intro h
      have hrc := congrArg ReadOutcome.rc h
      simp only [readLine, hslt, if_true] at hrc
      split at hrc
      · have herror : -EFAULT = 0 := hrc
        exact absurd herror (by decide)
      · simp only at hrc
        omega

theorem readLine_iff (hline : line.length < 80) :
    ReadsLine line call.count posp (readLine line call posp) ↔
      PositionRead line call.count posp := by
  by_cases hpos : posp.toNat < 2 ^ 31
  · exact iff_of_true (readLine_small call hline hpos) (Or.inl hpos)
  · rw [readLine_large_iff call hline (by omega), PositionRead]
    exact (or_iff_right hpos).symm

end Calls

/-! ## Runs of calls -/

/-- Calls one after another on one file: what went to the user, and the
position at the end. -/
def readLines (line : List Char) : List ReadCall → BitVec 64 → List (Option Char) × BitVec 64
  | [], posp => ([], posp)
  | call :: calls, posp =>
    let o := readLine line call posp
    let rest := readLines line calls o.posp
    (o.copied ++ rest.1, rest.2)

/-- The bytes that the calls ask for. -/
def asked (calls : List ReadCall) : Nat := (calls.map ReadCall.count).sum

section Runs

variable {line : List Char} {posp : BitVec 64}

/-- A call in the line moves on in the line. -/
theorem readLine_posp (hline : line.length < 80) (call : ReadCall)
    (hpos : posp.toNat ≤ line.length) :
    (readLine line call posp).posp.toNat = min (posp.toNat + call.count) line.length := by
  have hread := readLine_small call hline (show posp.toNat < 2 ^ 31 by omega)
  have hlength : ((line.drop posp.toNat).take call.count).length
      = min call.count (line.length - posp.toNat) := by
    rw [List.length_take, List.length_drop]
  have hcount := call.count_lt
  rw [hread.posp, hlength, BitVec.toNat_add, BitVec.toNat_ofNat]
  omega

/-- The run lemma, from any position in the line. -/
theorem readLines_eq (hline : line.length < 80) (calls : List ReadCall)
    (hpos : posp.toNat ≤ line.length) :
    (readLines line calls posp).1 = ((line.drop posp.toNat).take (asked calls)).map some ∧
      (readLines line calls posp).2.toNat = min (posp.toNat + asked calls) line.length := by
  induction calls generalizing posp with
  | nil =>
    refine ⟨?_, ?_⟩
    · simp [readLines, asked]
    · simp only [readLines, asked, List.map_nil, List.sum_nil]
      omega
  | cons call calls ih =>
    have hread := readLine_small call hline (show posp.toNat < 2 ^ 31 by omega)
    have hnext := readLine_posp hline call hpos
    obtain ⟨hcopied, hend⟩ := ih (show (readLine line call posp).posp.toNat ≤ line.length by omega)
    have hasked : asked (call :: calls) = call.count + asked calls := by simp [asked]
    rw [readLines, hasked]
    refine ⟨?_, ?_⟩
    · show (readLine line call posp).copied ++ _ = _
      rw [hcopied, hread.copied, hnext, ← List.map_append]
      congr 1
      rw [List.take_add, List.drop_drop]
      congr 2
      rcases Nat.le_total (posp.toNat + call.count) line.length with hle | hle
      · rw [Nat.min_eq_left hle]
      · rw [Nat.min_eq_right hle, List.drop_eq_nil_of_le (Nat.le_refl _),
          List.drop_eq_nil_of_le hle]
    · show (readLines line calls (readLine line call posp).posp).2.toNat = _
      rw [hend, hnext]
      omega

theorem length_le_asked {calls : List ReadCall} (h : ∀ call ∈ calls, 0 < call.count) :
    calls.length ≤ asked calls := by
  induction calls with
  | nil => exact Nat.le_refl 0
  | cons call calls ih =>
    have hcall := h call List.mem_cons_self
    have hrest := ih fun other hmem => h other (List.mem_cons_of_mem call hmem)
    simp only [asked, List.length_cons, List.map_cons, List.sum_cons] at hrest ⊢
    omega

/-- What a program gets that reads from the beginning on.  It gets the bytes
of the line in order, and nothing else, and the end of the file after them. -/
structure ReadsThrough (line : List Char) (calls : List ReadCall) : Prop where
  copied : (readLines line calls 0).1 = (line.take (asked calls)).map some
  enough : line.length ≤ calls.length → (readLines line calls 0).1 = line.map some
  eof : ∀ call : ReadCall, 0 < call.count →
    ((readLine line call (readLines line calls 0).2).rc = 0 ↔
      (readLines line calls 0).1 = line.map some)

theorem readsThrough_of_pos (hline : line.length < 80) {calls : List ReadCall}
    (h : ∀ call ∈ calls, 0 < call.count) : ReadsThrough line calls := by
  have hzero : (0 : BitVec 64).toNat = 0 := rfl
  obtain ⟨hcopied, hend⟩ := readLines_eq hline calls (hzero ▸ Nat.zero_le line.length)
  rw [hzero, List.drop_zero] at hcopied
  rw [hzero, Nat.zero_add] at hend
  refine ⟨hcopied, fun henough => ?_, fun call hcall => ?_⟩
  · have hlen := length_le_asked h
    rw [hcopied, List.take_of_length_le (by omega)]
  · have hread := readLine_small call hline
      (show (readLines line calls 0).2.toNat < 2 ^ 31 by omega)
    rw [hread.rc, List.length_take, List.length_drop, hend, hcopied]
    constructor
    · intro hrc
      rw [List.take_of_length_le (by omega)]
    · intro hall
      have hlength := congrArg List.length hall
      simp only [List.length_map, List.length_take] at hlength
      omega

end Runs

/-- A read of the description does what its position says exactly when the
position is read right, and reads from the beginning on yield the line. -/
theorem bigbuf_read_iff (buf : DmaBuf) :
    (∀ (call : ReadCall) (posp : BitVec 64),
      ReadsLine (bigbufLine buf) call.count posp (acq200Read buf call posp) ↔
        PositionRead (bigbufLine buf) call.count posp) ∧
    ∀ calls : List ReadCall, (∀ call ∈ calls, 0 < call.count) →
      ReadsThrough (bigbufLine buf) calls :=
  ⟨fun _ _ => readLine_iff (bigbufLine_length buf),
    fun _ h => readsThrough_of_pos (bigbufLine_length buf) h⟩

/-- A call with a buffer that the program may write to. -/
def ReadCall.plain (count : Nat) (h : count < 2 ^ 31) : ReadCall where
  count := count
  copyToUser := fun n => n - count
  count_lt := h
  accessible := fun _ hn => Nat.sub_eq_zero_of_le hn

/-- Three reads of the description of a buffer of 4 MB. -/
theorem bigbuf_read_description :
    ReadsThrough (bigbufLine ⟨10, some 0xc0000000, 0x37c00000#32⟩)
      [.plain 10 (by decide), .plain 20 (by decide), .plain 30 (by decide)] := by
  refine (bigbuf_read_iff ⟨10, some 0xc0000000, 0x37c00000#32⟩).2 _ ?_
  intro call hcall
  simp only [List.mem_cons, List.not_mem_nil, or_false] at hcall
  rcases hcall with rfl | rfl | rfl <;> exact Nat.succ_pos _

/-- A read of one byte at position `2 ^ 32 - 5` returns a byte that is not of the line: it
is five places below it.  At `2 ^ 31` the distance to the end of the line wraps around too,
and the call fails with `EFAULT`. -/
theorem read_below_line :
    (acq200Read ⟨10, some 0xc0000000, 0x37c00000#32⟩ (.plain 1 (by decide))
        0xfffffffb#64).rc = 1 ∧
      (acq200Read ⟨10, some 0xc0000000, 0x37c00000#32⟩ (.plain 1 (by decide))
        0xfffffffb#64).copied = [none] ∧
      ¬ ReadsLine (bigbufLine ⟨10, some 0xc0000000, 0x37c00000#32⟩) 1 0xfffffffb#64
        (acq200Read ⟨10, some 0xc0000000, 0x37c00000#32⟩ (.plain 1 (by decide))
          0xfffffffb#64) := by
  obtain ⟨buf, hbuf⟩ : ∃ buf : DmaBuf, buf = ⟨10, some 0xc0000000, 0x37c00000#32⟩ := ⟨_, rfl⟩
  rw [← hbuf]
  have hlength := bigbufLine_length buf
  have hpos : ((0xfffffffb#64).setWidth 32).toInt = -5 := by decide
  have hnint : (BitVec.ofNat 32 (bigbufLine buf).length).toInt = (bigbufLine buf).length :=
    toInt_ofNat_small (by omega)
  have hslt : ((0xfffffffb#64).setWidth 32).slt (BitVec.ofNat 32 (bigbufLine buf).length)
      = true := by
    rw [BitVec.slt_iff_toInt_lt, hnint, hpos]
    omega
  have hdistance := toInt_distance hlength
    (show ((0xfffffffb#64).setWidth 32).toInt < ((bigbufLine buf).length : Int) by
      rw [hpos]
      omega)
  have hlen : (minInt (BitVec.ofNat 32 1)
      (BitVec.ofNat 32 (bigbufLine buf).length - (0xfffffffb#64).setWidth 32)).toInt
        = (1 : Nat) := by
    rw [toInt_minInt, toInt_ofNat_small (by decide), hdistance, hpos]
    split <;> omega
  have hread : acq200Read buf (.plain 1 (by decide)) 0xfffffffb#64 =
      { rc := 1, copied := [none], posp := 0xfffffffb#64 + BitVec.ofNat 64 1 } := by
    have hcopies := @readLine_copies _ (.plain 1 (by decide)) _ 1 hslt hlen (Nat.le_refl 1)
    rw [hpos] at hcopies
    exact hcopies
  rw [hread]
  refine ⟨rfl, rfl, fun h => ?_⟩
  have hbeyond : (bigbufLine buf).length ≤ (0xfffffffb#64).toNat := by
    have hnat : (0xfffffffb#64).toNat = 4294967291 := rfl
    omega
  cases (readsLine_beyond hbeyond).mp h

end Acq200.Files
