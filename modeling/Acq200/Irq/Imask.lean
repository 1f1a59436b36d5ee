import Mathlib.Data.Int.ModEq
import Mathlib.Data.List.Chain
import Mathlib.Data.List.GetD
import Mathlib.Data.List.TakeWhile
import Mathlib.Logic.Function.Basic

/-!
# Masking interrupts through the imask attribute

A string of hex digits written to `imask` names interrupt lines, the last
digit the lines 0 to 3.  `storeImask` copies the string to the device and
`intsMask` disables every line the string names and enables every line that
an earlier string had disabled and this one does not name.  The driver
remembers one bit for a line in `imaskA`, and the kernel counts the calls.

`storeImask_depth` says what one store does to the count of a line.
`masking_balanced_iff` is the result for every sequence of strings: the
counts agree with the bits after every store exactly when no line is named
by two strings in a row.
-/

namespace Acq200.Irq

/-! ## The device -/

/-- A call to the kernel that `acq200_intsMask` makes for one line. -/
inductive IrqCall
  | disableIrqNosync (irq : Nat)
  | enableIrq (irq : Nat)
  deriving Repr, DecidableEq

/-- The fields of `struct Acq200Device` that the attribute uses, and the
calls made so far.  `imask` has `NR_IRQS/4` characters, and `imask_a` as many
entries that are used. -/
structure Device where
  imask : List Char
  imaskA : Nat → BitVec 8
  isLocked : Bool
  calls : List IrqCall

/-- The device as `kzalloc` leaves it. -/
def Device.fresh (nrIrqs : Nat) : Device where
  imask := List.replicate (nrIrqs / 4) '\x00'
  imaskA := fun _ => 0
  isLocked := false
  calls := []

/-! ## Strings -/

/-- The character does not end a string. -/
def notNul (c : Char) : Bool := c ≠ '\x00'

def strlen (s : List Char) : Nat := (s.takeWhile notNul).length

/-- The `n` characters that `strncpy` writes: those of the string, then
NULs. -/
def strncpy (src : List Char) (n : Nat) : List Char :=
  let s := (src.takeWhile notNul).take n
  s ++ List.replicate (n - s.length) '\x00'

/-- `strncmp(buf, word, strlen(word)) == 0`. -/
def startsWith (buf word : List Char) : Bool := word.isPrefixOf buf

def isxdigit (c : Char) : Bool :=
  ('0' ≤ c ∧ c ≤ '9') ∨ ('a' ≤ c ∧ c ≤ 'f') ∨ ('A' ≤ c ∧ c ≤ 'F')

/-- `get_mask`: `simple_strtoul` in base 16 of a string of one character. -/
def getMask (mdef : Char) : BitVec 32 :=
  if '0' ≤ mdef ∧ mdef ≤ '9' then BitVec.ofNat 32 (mdef.toNat - '0'.toNat)
  else if 'a' ≤ mdef ∧ mdef ≤ 'f' then
    BitVec.ofNat 32 (mdef.toNat - 'a'.toNat + 10)
  else if 'A' ≤ mdef ∧ mdef ≤ 'F' then
    BitVec.ofNat 32 (mdef.toNat - 'A'.toNat + 10)
  else 0

/-! ## acq200_intsMask -/

/-- The body of the inner loop of `acq200_intsMask`, with the mask that is
active and the calls made so far. -/
def maskBit (debug : Nat) (newMask : BitVec 32) (irq : Nat)
    (acc : BitVec 32 × List IrqCall) (b : Nat) : BitVec 32 × List IrqCall :=
  let bit := 1#32 <<< b
  if debug > 2 then acc
  else if newMask &&& bit ≠ 0 then
    (acc.1 ||| bit, acc.2 ++ [.disableIrqNosync (irq + b)])
  else if acc.1 &&& bit ≠ 0 then
    (acc.1 &&& ~~~bit, acc.2 ++ [.enableIrq (irq + b)])
  else acc

/-- The digit of the new mask that the outer loop reads at index `inew`. -/
def newNibble (imask : List Char) (inew : Int) : BitVec 32 :=
  if inew ≥ 0 then getMask (imask.getD inew.toNat '\x00') else 0

/-- The body of the outer loop of `acq200_intsMask`.  `irq` is the line of
the first bit of the nibble. -/
def intsMaskTurn (debug ia : Nat) (inew : Int) (irq : Nat) (dev : Device) :
    Device :=
  let r := [0, 1, 2, 3].foldl (maskBit debug (newNibble dev.imask inew) irq)
    ((dev.imaskA ia).setWidth 32, dev.calls)
  { dev with
    imaskA := Function.update dev.imaskA ia (r.1.setWidth 8)
    calls := r.2 }

/-- The outer loop of `acq200_intsMask`.  The counter is `ia + 1`. -/
def intsMaskLoop (debug : Nat) : Nat → Int → Nat → Device → Device
  | 0, _, _, dev => dev
  | ia + 1, inew, irq, dev =>
    intsMaskLoop debug ia (inew - 1) (irq + 4)
      (intsMaskTurn debug ia inew irq dev)

def intsMask (nrIrqs debug : Nat) (dev : Device) : Device :=
  intsMaskLoop debug (nrIrqs / 4) ((strlen dev.imask : Int) - 1) 0 dev

/-! ## store_imask -/

/-- The loop of `store_imask` that ends the mask at a character that is not
a hex digit. -/
def clearNonHex (s : List Char) : List Char :=
  (s.take (strlen s)).map (fun c => if isxdigit c then c else '\x00') ++
    s.drop (strlen s)

/-- The command for the local APIC, which leaves the mask alone. -/
def isLapic (buf : List Char) : Bool := startsWith buf "LAPIC".toList

/-- The command that takes the lock. -/
def isLoc (buf : List Char) : Bool := startsWith buf "LOC".toList

/-- `store_imask` on a device that the lookup found, with the count it
returns.  `disable_local_APIC` leaves the fields of the device alone. -/
def storeImask (nrIrqs debug : Nat) (dev : Device) (buf : List Char) :
    Device × Nat :=
  let dev' :=
    if isLapic buf then dev
    else if isLoc buf then { dev with isLocked := true }
    else if startsWith buf "000".toList ∧ dev.isLocked then
      { dev with isLocked := false }
    else
      intsMask nrIrqs debug
        { dev with imask := clearNonHex (strncpy buf (nrIrqs / 4)) }
  (dev', strlen buf)

/-- The device after the strings are stored one after another. -/
def stores (nrIrqs debug : Nat) (bufs : List (List Char)) (dev : Device) :
    Device :=
  bufs.foldl (fun dev buf => (storeImask nrIrqs debug dev buf).1) dev

/-! ## What the attribute is for -/

/-- The calls that disable a line less those that enable it. -/
def depth (calls : List IrqCall) (irq : Nat) : Int :=
  (calls.count (.disableIrqNosync irq) : Int) - calls.count (.enableIrq irq)

/-- The bit of a line in `imask_a`. -/
def activeBit (nrIrqs : Nat) (imaskA : Nat → BitVec 8) (irq : Nat) : Bool :=
  irq / 4 < nrIrqs / 4 &&
    (imaskA (nrIrqs / 4 - 1 - irq / 4)).getLsbD (irq % 4)

/-- The hex digits that a string gives to the mask. -/
def hexDigits (nrIrqs : Nat) (buf : List Char) : List Char :=
  (buf.take (nrIrqs / 4)).takeWhile isxdigit

/-- The string names the line: the bit is set in the digit that stands as
many places from the end as the line has nibbles below it. -/
def names (nrIrqs : Nat) (buf : List Char) (irq : Nat) : Bool :=
  match (hexDigits nrIrqs buf).reverse[irq / 4]? with
  | some c => (getMask c).getLsbD (irq % 4)
  | none => false

/-- The strings that reach `acq200_intsMask`. -/
def masks (bufs : List (List Char)) : List (List Char) :=
  bufs.filter (fun buf => !isLapic buf)

/-- No line is in both sets. -/
def Apart (nrIrqs : Nat) (p q : Nat → Bool) : Prop :=
  ∀ irq < nrIrqs, ¬ (p irq ∧ q irq)

instance (nrIrqs : Nat) (p q : Nat → Bool) : Decidable (Apart nrIrqs p q) :=
  inferInstanceAs (Decidable (∀ irq < nrIrqs, ¬ (p irq ∧ q irq)))

/-- Every line is disabled once if its bit is set and not at all if not. -/
def Balanced (nrIrqs : Nat) (dev : Device) : Prop :=
  ∀ irq < nrIrqs, depth dev.calls irq =
    if activeBit nrIrqs dev.imaskA irq then 1 else 0

/-- What one store does to the count of a line, from the line's bit in the
new mask and its bit before. -/
def change (new active : Bool) : Int :=
  if new then 1 else if active then -1 else 0

/-! ## One nibble -/

theorem depth_disable (calls : List IrqCall) (irq i : Nat) :
    depth (calls ++ [.disableIrqNosync irq]) i =
      depth calls i + if i = irq then 1 else 0 := by
  unfold depth
  by_cases h : i = irq
  · simp [h]
    omega
  · have h' : irq ≠ i := fun he => h he.symm
    simp [h, h']

theorem depth_enable (calls : List IrqCall) (irq i : Nat) :
    depth (calls ++ [.enableIrq irq]) i =
      depth calls i + if i = irq then -1 else 0 := by
  unfold depth
  by_cases h : i = irq
  · simp [h]
    omega
  · have h' : irq ≠ i := fun he => h he.symm
    simp [h, h']

theorem and_bit_ne_zero {b : Nat} (x : BitVec 32) (hb : b < 32) :
    x &&& 1#32 <<< b ≠ 0 ↔ x.getLsbD b = true := by
  rw [← BitVec.twoPow_eq, BitVec.and_twoPow]
  have hne : BitVec.twoPow 32 b ≠ 0#32 := by
    intro h
    have := congrArg (fun y => y.getLsbD b) h
    simp [hb] at this
  by_cases h : x.getLsbD b <;> simp [h, hne]

section Nibble

variable {debug irq b : Nat} {newMask : BitVec 32}

/-- The bit of the line becomes the bit of the new mask. -/
theorem maskBit_active (hdebug : debug ≤ 2) (hb : b < 32)
    (acc : BitVec 32 × List IrqCall) (j : Nat) :
    (maskBit debug newMask irq acc b).1.getLsbD j =
      if j = b then newMask.getLsbD b else acc.1.getLsbD j := by
  have hd : ¬ debug > 2 := by omega
  unfold maskBit
  simp only [hd, and_bit_ne_zero _ hb, if_false]
  split
  · rename_i hnew
    rw [BitVec.getLsbD_or, ← BitVec.twoPow_eq, BitVec.getLsbD_twoPow]
    by_cases hj : j = b
    · simp [hj, hb, hnew]
    · simp [hj, Ne.symm hj]
  · rename_i hnew
    split
    · rename_i hact
      rw [BitVec.getLsbD_and, ← BitVec.twoPow_eq, BitVec.getLsbD_not,
        BitVec.getLsbD_twoPow]
      by_cases hj : j = b
      · rw [if_pos hj, Bool.eq_false_of_not_eq_true hnew]
        simp [hj, hb]
      · have : j < 32 ∨ acc.1.getLsbD j = false := by
          by_cases h32 : j < 32
          · exact .inl h32
          · exact .inr (BitVec.getLsbD_of_ge _ _ (by omega))
        rcases this with h | h <;> simp [hj, Ne.symm hj, h]
    · rename_i hact
      by_cases hj : j = b
      · simp [hj, hnew, hact]
      · simp [hj]

theorem maskBit_depth (hdebug : debug ≤ 2) (hb : b < 32)
    (acc : BitVec 32 × List IrqCall) (i : Nat) :
    depth (maskBit debug newMask irq acc b).2 i = depth acc.2 i +
      if i = irq + b then change (newMask.getLsbD b) (acc.1.getLsbD b) else 0 := by
  have hd : ¬ debug > 2 := by omega
  unfold maskBit change
  simp only [hd, and_bit_ne_zero _ hb, if_false]
  split
  · rename_i hnew
    rw [depth_disable]
  · rename_i hnew
    split
    · rw [depth_enable]
    · simp

/-- The inner loop over any bits of the nibble, each taken once. -/
theorem nibble_active (hdebug : debug ≤ 2) {bs : List Nat}
    (hbs : ∀ b ∈ bs, b < 32) (acc : BitVec 32 × List IrqCall) (j : Nat) :
    (bs.foldl (maskBit debug newMask irq) acc).1.getLsbD j =
      if j ∈ bs then newMask.getLsbD j else acc.1.getLsbD j := by
  induction bs generalizing acc with
  | nil => simp
  | cons b bs ih =>
    rw [List.foldl_cons, ih (fun c hc => hbs c (List.mem_cons_of_mem b hc)),
      maskBit_active hdebug (hbs b List.mem_cons_self)]
    by_cases hj : j = b
    · subst hj
      simp
    · simp [hj]

theorem nibble_depth (hdebug : debug ≤ 2) {bs : List Nat}
    (hbs : ∀ b ∈ bs, b < 32) (hnd : bs.Nodup)
    (acc : BitVec 32 × List IrqCall) (i : Nat) :
    depth (bs.foldl (maskBit debug newMask irq) acc).2 i = depth acc.2 i +
      if irq ≤ i ∧ i - irq ∈ bs then
        change (newMask.getLsbD (i - irq)) (acc.1.getLsbD (i - irq))
      else 0 := by
  induction bs generalizing acc with
  | nil => simp
  | cons b bs ih =>
    obtain ⟨hb, hnd'⟩ := List.nodup_cons.mp hnd
    have hlt : b < 32 := hbs b List.mem_cons_self
    rw [List.foldl_cons, ih (fun c hc => hbs c (List.mem_cons_of_mem b hc)) hnd',
      maskBit_depth hdebug hlt]
    by_cases hi : i = irq + b
    · have hsub : i - irq = b := by omega
      simp [hi, hb]
    · have hsub : irq ≤ i → i - irq ≠ b := by omega
      by_cases hle : irq ≤ i
      · simp [hi, hle, hsub hle, maskBit_active hdebug hlt]
      · simp [hi, hle]

end Nibble

/-! ## The loop over the nibbles -/

section Loop

variable {debug : Nat}

theorem intsMaskTurn_active (hdebug : debug ≤ 2) (ia : Nat) (inew : Int)
    (irq : Nat) (dev : Device) {b : Nat} (hb : b < 4) :
    ((intsMaskTurn debug ia inew irq dev).imaskA ia).getLsbD b =
      (newNibble dev.imask inew).getLsbD b := by
  have hmem : b ∈ [0, 1, 2, 3] := by
    simp only [List.mem_cons, List.not_mem_nil, or_false]
    omega
  unfold intsMaskTurn
  simp only [Function.update_self]
  rw [BitVec.getLsbD_setWidth, nibble_active hdebug (by decide), if_pos hmem]
  have h8 : b < 8 := by omega
  simp [h8]

theorem intsMaskTurn_depth (hdebug : debug ≤ 2) (ia : Nat) (inew : Int)
    (irq : Nat) (dev : Device) {b : Nat} (hb : b < 4) :
    depth (intsMaskTurn debug ia inew irq dev).calls (irq + b) =
      depth dev.calls (irq + b) +
        change ((newNibble dev.imask inew).getLsbD b)
          ((dev.imaskA ia).getLsbD b) := by
  have hmem : b ∈ [0, 1, 2, 3] := by
    simp only [List.mem_cons, List.not_mem_nil, or_false]
    omega
  have hle : irq ≤ irq + b := by omega
  have hsub : irq + b - irq = b := by omega
  have h32 : b < 32 := by omega
  unfold intsMaskTurn
  rw [nibble_depth hdebug (by decide) (by decide), hsub, if_pos ⟨hle, hmem⟩,
    BitVec.getLsbD_setWidth]
  simp [h32]

/-- A line of another nibble is left alone. -/
theorem intsMaskTurn_depth_other (hdebug : debug ≤ 2) (ia : Nat) (inew : Int)
    (irq : Nat) (dev : Device) {i : Nat} (hi : i < irq ∨ irq + 4 ≤ i) :
    depth (intsMaskTurn debug ia inew irq dev).calls i = depth dev.calls i := by
  have hmem : ¬ (irq ≤ i ∧ i - irq ∈ [0, 1, 2, 3]) := by
    simp only [List.mem_cons, List.not_mem_nil, or_false]
    omega
  unfold intsMaskTurn
  rw [nibble_depth hdebug (by decide) (by decide), if_neg hmem, add_zero]

/-- What the loop leaves alone: the strings, the entries from `m` on, and the
lines outside its range. -/
theorem intsMaskLoop_frame (hdebug : debug ≤ 2) (m : Nat) (inew : Int)
    (irq : Nat) (dev : Device) :
    (intsMaskLoop debug m inew irq dev).imask = dev.imask ∧
    (intsMaskLoop debug m inew irq dev).isLocked = dev.isLocked ∧
    (∀ ia ≥ m, (intsMaskLoop debug m inew irq dev).imaskA ia = dev.imaskA ia) ∧
    (∀ i, i < irq ∨ irq + 4 * m ≤ i →
      depth (intsMaskLoop debug m inew irq dev).calls i = depth dev.calls i) := by
  induction m generalizing inew irq dev with
  | zero => exact ⟨rfl, rfl, fun _ _ => rfl, fun _ _ => rfl⟩
  | succ m ih =>
    rw [intsMaskLoop]
    obtain ⟨h1, h2, h3, h4⟩ :=
      ih (inew - 1) (irq + 4) (intsMaskTurn debug m inew irq dev)
    refine ⟨h1, h2, fun ia hia => ?_, fun i hi => ?_⟩
    · rw [h3 ia (by omega)]
      exact Function.update_of_ne (by omega) _ _
    · rw [h4 i (by omega)]
      exact intsMaskTurn_depth_other hdebug m inew irq dev (by omega)

/-- What the loop does to the line that is bit `b` of nibble `k`. -/
theorem intsMaskLoop_line (hdebug : debug ≤ 2) {m : Nat} (inew : Int)
    (irq : Nat) (dev : Device) {k b : Nat} (hk : k < m) (hb : b < 4) :
    ((intsMaskLoop debug m inew irq dev).imaskA (m - 1 - k)).getLsbD b =
      (newNibble dev.imask (inew - k)).getLsbD b ∧
    depth (intsMaskLoop debug m inew irq dev).calls (irq + 4 * k + b) =
      depth dev.calls (irq + 4 * k + b) +
        change ((newNibble dev.imask (inew - k)).getLsbD b)
          ((dev.imaskA (m - 1 - k)).getLsbD b) := by
  -- the first turn handles nibble 0, the rest of the loop the others
  induction m generalizing inew irq dev k with
  | zero => omega
  | succ m ih =>
    rw [intsMaskLoop]
    cases k with
    | zero =>
      obtain ⟨-, -, hA, hD⟩ := intsMaskLoop_frame hdebug m (inew - 1) (irq + 4)
        (intsMaskTurn debug m inew irq dev)
      have hm : m + 1 - 1 - 0 = m := by omega
      have hirq : irq + 4 * 0 + b = irq + b := by omega
      have hinew : inew - ((0 : Nat) : Int) = inew := by simp
      rw [hm, hirq, hinew, hA m (le_refl m), hD (irq + b) (by omega)]
      exact ⟨intsMaskTurn_active hdebug m inew irq dev hb,
        intsMaskTurn_depth hdebug m inew irq dev hb⟩
    | succ k =>
      have hm : m + 1 - 1 - (k + 1) = m - 1 - k := by omega
      have hne : m - 1 - k ≠ m := by omega
      have hirq : irq + 4 * (k + 1) + b = irq + 4 + 4 * k + b := by omega
      have hinew : inew - ((k + 1 : Nat) : Int) = inew - 1 - k := by omega
      obtain ⟨h1, h2⟩ := ih (inew - 1) (irq + 4)
        (intsMaskTurn debug m inew irq dev) (by omega : k < m)
      have hother : (intsMaskTurn debug m inew irq dev).imaskA (m - 1 - k) =
          dev.imaskA (m - 1 - k) := Function.update_of_ne hne _ _
      rw [intsMaskTurn_depth_other hdebug m inew irq dev (by omega), hother] at h2
      rw [hm, hirq, hinew]
      exact ⟨h1, h2⟩

end Loop

/-! ## The digits of a string -/

theorem notNul_of_isxdigit {c : Char} (h : isxdigit c = true) :
    notNul c = true := by
  unfold notNul
  have hc : c ≠ '\x00' := by
    intro h0
    rw [h0] at h
    exact absurd h (by decide)
  simpa using hc

/-- Cutting at a NUL first does not change the leading hex digits. -/
theorem takeWhile_isxdigit_cstring (buf : List Char) (n : Nat) :
    ((buf.takeWhile notNul).take n).takeWhile isxdigit =
      (buf.take n).takeWhile isxdigit := by
  induction buf generalizing n with
  | nil => simp
  | cons c cs ih =>
    cases n with
    | zero => simp
    | succ n =>
      by_cases hx : isxdigit c
      · simp [notNul_of_isxdigit hx, hx, ih n]
      · by_cases h0 : notNul c <;> simp [h0, hx]

/-- The characters before the first NUL are the leading hex digits once the
others are cleared. -/
theorem takeWhile_cleared (w : List Char) (m : Nat) :
    (w.map (fun c => if isxdigit c then c else '\x00') ++
      List.replicate m '\x00').takeWhile notNul =
      w.takeWhile isxdigit := by
  induction w with
  | nil => cases m <;> simp [List.replicate_succ, notNul]
  | cons c cs ih =>
    by_cases hx : isxdigit c
    · simp [hx, notNul_of_isxdigit hx, ih]
    · simp [hx, notNul]

theorem strlen_append_nul {w : List Char} (hw : ∀ c ∈ w, notNul c = true) (m : Nat) :
    strlen (w ++ List.replicate m '\x00') = w.length := by
  unfold strlen
  induction w with
  | nil => cases m <;> simp [List.replicate_succ, notNul]
  | cons c cs ih =>
    have hc : notNul c = true := hw c List.mem_cons_self
    have hcs := ih (fun d hd => hw d (List.mem_cons_of_mem c hd))
    simp [hc, hcs]

/-- The mask that a store leaves in the device: the digits that the string
gives, up to its first NUL. -/
theorem imask_digits (nrIrqs : Nat) (buf : List Char) :
    (clearNonHex (strncpy buf (nrIrqs / 4))).takeWhile notNul =
      hexDigits nrIrqs buf := by
  have hw : ∀ c ∈ (buf.takeWhile notNul).take (nrIrqs / 4),
      notNul c = true := by
    intro c hc
    exact List.mem_takeWhile_imp (List.mem_of_mem_take hc)
  unfold clearNonHex strncpy hexDigits
  rw [strlen_append_nul hw, List.take_left, List.drop_left, takeWhile_cleared,
    takeWhile_isxdigit_cstring]

/-- The digit that the loop reads for nibble `k` gives the bits that the
string names. -/
theorem newNibble_names (nrIrqs : Nat) (buf : List Char) {k b : Nat}
    (hb : b < 4) :
    (newNibble (clearNonHex (strncpy buf (nrIrqs / 4)))
      ((strlen (clearNonHex (strncpy buf (nrIrqs / 4))) : Int) - 1 - k)).getLsbD b =
      names nrIrqs buf (4 * k + b) := by
  have hdig := imask_digits nrIrqs buf
  generalize clearNonHex (strncpy buf (nrIrqs / 4)) = s at hdig ⊢
  have hdiv : (4 * k + b) / 4 = k := by omega
  have hmod : (4 * k + b) % 4 = b := by omega
  have hlen : strlen s = (hexDigits nrIrqs buf).length := by
    rw [strlen, hdig]
  unfold names newNibble
  rw [hdiv, hmod, hlen]
  by_cases hk : k < (hexDigits nrIrqs buf).length
  · have hge : ((hexDigits nrIrqs buf).length : Int) - 1 - k ≥ 0 := by omega
    have hto : (((hexDigits nrIrqs buf).length : Int) - 1 - k).toNat =
        (hexDigits nrIrqs buf).length - 1 - k := by omega
    have hlt : (hexDigits nrIrqs buf).length - 1 - k <
        (hexDigits nrIrqs buf).length := by omega
    have hs : s.getD ((hexDigits nrIrqs buf).length - 1 - k) '\x00' =
        (hexDigits nrIrqs buf).getD
          ((hexDigits nrIrqs buf).length - 1 - k) '\x00' := by
      rw [← List.takeWhile_append_dropWhile (p := notNul) (l := s), hdig,
        List.getD_append _ _ _ _ hlt]
    rw [if_pos hge, hto, hs, List.getElem?_reverse hk, List.getD_eq_getElem?_getD,
      List.getElem?_eq_getElem hlt]
    rfl
  · have hge : ¬ ((hexDigits nrIrqs buf).length : Int) - 1 - k ≥ 0 := by omega
    rw [if_neg hge, List.getElem?_eq_none (by simpa using hk)]
    simp

/-- A line above those of the mask is never named. -/
theorem names_of_ge {nrIrqs irq : Nat} (buf : List Char)
    (h : nrIrqs / 4 ≤ irq / 4) : names nrIrqs buf irq = false := by
  have hlen : (hexDigits nrIrqs buf).length ≤ nrIrqs / 4 := by
    unfold hexDigits
    have h1 := (List.takeWhile_sublist isxdigit
      (l := buf.take (nrIrqs / 4))).length_le
    have h2 := List.length_take_le (nrIrqs / 4) buf
    omega
  unfold names
  rw [List.getElem?_eq_none (by rw [List.length_reverse]; omega)]

/-! ## One store -/

section Store

variable {nrIrqs debug : Nat} {dev : Device} {buf : List Char}

theorem storeImask_lapic (h : isLapic buf = true) :
    (storeImask nrIrqs debug dev buf).1 = dev := by
  unfold storeImask
  simp [h]

/-- A string that is no command goes to `acq200_intsMask`. -/
theorem storeImask_mask (hl : isLapic buf = false)
    (hloc : isLoc buf = false) (hk : dev.isLocked = false) :
    (storeImask nrIrqs debug dev buf).1 =
      intsMask nrIrqs debug
        { dev with imask := clearNonHex (strncpy buf (nrIrqs / 4)) } := by
  unfold storeImask
  simp [hl, hloc, hk]

theorem storeImask_isLocked (hdebug : debug ≤ 2)
    (hloc : isLoc buf = false) (hk : dev.isLocked = false) :
    (storeImask nrIrqs debug dev buf).1.isLocked = false := by
  cases hl : isLapic buf with
  | true => rw [storeImask_lapic hl, hk]
  | false =>
    rw [storeImask_mask hl hloc hk, intsMask,
      (intsMaskLoop_frame hdebug _ _ _ _).2.1]
    exact hk

/-- After a store the bits of the device are those that the string names. -/
theorem storeImask_active (hdebug : debug ≤ 2) (hl : isLapic buf = false)
    (hloc : isLoc buf = false) (hk : dev.isLocked = false)
    (irq : Nat) :
    activeBit nrIrqs (storeImask nrIrqs debug dev buf).1.imaskA irq =
      names nrIrqs buf irq := by
  unfold activeBit
  by_cases hirq : irq / 4 < nrIrqs / 4
  · have hb : irq % 4 < 4 := by omega
    have hsplit : 4 * (irq / 4) + irq % 4 = irq := by omega
    rw [storeImask_mask hl hloc hk, intsMask,
      (intsMaskLoop_line hdebug _ 0 _ hirq hb).1, newNibble_names nrIrqs buf hb,
      hsplit]
    simp [hirq]
  · rw [names_of_ge buf (by omega)]
    simp [hirq]

/-- What one store does to the count of every line. -/
theorem storeImask_depth (hdebug : debug ≤ 2) (hl : isLapic buf = false)
    (hloc : isLoc buf = false) (hk : dev.isLocked = false)
    (irq : Nat) :
    depth (storeImask nrIrqs debug dev buf).1.calls irq =
      depth dev.calls irq +
        change (names nrIrqs buf irq) (activeBit nrIrqs dev.imaskA irq) := by
  rw [storeImask_mask hl hloc hk, intsMask]
  by_cases hirq : irq / 4 < nrIrqs / 4
  · have hb : irq % 4 < 4 := by omega
    have hsplit : 4 * (irq / 4) + irq % 4 = irq := by omega
    have hline := (intsMaskLoop_line hdebug
      ((strlen (clearNonHex (strncpy buf (nrIrqs / 4))) : Int) - 1) 0
      { dev with imask := clearNonHex (strncpy buf (nrIrqs / 4)) } hirq hb).2
    rw [newNibble_names nrIrqs buf hb, hsplit, Nat.zero_add, hsplit] at hline
    rw [hline]
    simp [activeBit, hirq]
  · rw [(intsMaskLoop_frame hdebug _ _ _ _).2.2.2 irq (by omega),
      names_of_ge buf (by omega)]
    simp [activeBit, hirq, change]

/-- A store keeps the balance exactly when it names no line that is already
disabled. -/
theorem storeImask_balanced_iff (hdebug : debug ≤ 2) (hl : isLapic buf = false)
    (hloc : isLoc buf = false) (hk : dev.isLocked = false)
    (hbal : Balanced nrIrqs dev) :
    Balanced nrIrqs (storeImask nrIrqs debug dev buf).1 ↔
      Apart nrIrqs (activeBit nrIrqs dev.imaskA) (names nrIrqs buf) := by
  have hline : ∀ irq < nrIrqs,
      (depth (storeImask nrIrqs debug dev buf).1.calls irq =
        if activeBit nrIrqs (storeImask nrIrqs debug dev buf).1.imaskA irq
        then 1 else 0) ↔
      ¬ (activeBit nrIrqs dev.imaskA irq ∧ names nrIrqs buf irq) := by
    intro irq hirq
    rw [storeImask_depth hdebug hl hloc hk, storeImask_active hdebug hl hloc hk,
      hbal irq hirq]
    unfold change
    cases activeBit nrIrqs dev.imaskA irq <;> cases names nrIrqs buf irq <;> simp
  unfold Balanced Apart
  exact forall_congr' fun irq => forall_congr' fun hirq => hline irq hirq

end Store

/-! ## Every sequence of stores -/

/-- The run lemma, from any device that is in balance. -/
theorem stores_balanced_iff {nrIrqs debug : Nat} (hdebug : debug ≤ 2)
    {bufs : List (List Char)} {dev : Device} (hbal : Balanced nrIrqs dev)
    (hk : dev.isLocked = false)
    (hloc : ∀ buf ∈ bufs, isLoc buf = false) :
    (∀ p, p <+: bufs → Balanced nrIrqs (stores nrIrqs debug p dev)) ↔
      List.IsChain (Apart nrIrqs)
        (activeBit nrIrqs dev.imaskA :: (masks bufs).map (names nrIrqs)) := by
  induction bufs generalizing dev with
  | nil => simpa [masks, stores] using hbal
  | cons buf bufs ih =>
    have hloc' := hloc buf List.mem_cons_self
    have hrest : ∀ b ∈ bufs, isLoc b = false :=
      fun b hb => hloc b (List.mem_cons_of_mem buf hb)
    have hk' : (storeImask nrIrqs debug dev buf).1.isLocked = false :=
      storeImask_isLocked hdebug hloc' hk
    have hsplit : (∀ p, p <+: buf :: bufs →
        Balanced nrIrqs (stores nrIrqs debug p dev)) ↔
        ∀ p, p <+: bufs → Balanced nrIrqs
          (stores nrIrqs debug p (storeImask nrIrqs debug dev buf).1) := by
      constructor
      · intro h p hp
        exact h (buf :: p) (List.cons_prefix_cons.mpr ⟨rfl, hp⟩)
      · intro h p hp
        cases p with
        | nil => exact hbal
        | cons b p =>
          obtain ⟨rfl, hp'⟩ := List.cons_prefix_cons.mp hp
          exact h p hp'
    rw [hsplit]
    cases hl : isLapic buf with
    | true =>
      have hm : masks (buf :: bufs) = masks bufs := by simp [masks, hl]
      rw [storeImask_lapic hl, hm]
      exact ih hbal hk hrest
    | false =>
      have hm : masks (buf :: bufs) = buf :: masks bufs := by simp [masks, hl]
      have hact : activeBit nrIrqs (storeImask nrIrqs debug dev buf).1.imaskA =
          names nrIrqs buf := funext (storeImask_active hdebug hl hloc' hk)
      have hstep : Balanced nrIrqs (storeImask nrIrqs debug dev buf).1 ↔
          Apart nrIrqs (activeBit nrIrqs dev.imaskA) (names nrIrqs buf) :=
        storeImask_balanced_iff hdebug hl hloc' hk hbal
      rw [hm, List.map_cons, List.isChain_cons_cons, ← hstep, ← hact]
      constructor
      · intro h
        have hbal' := h [] (List.nil_prefix)
        exact ⟨hbal', (ih hbal' hk' hrest).mp h⟩
      · rintro ⟨hbal', hchain⟩
        exact (ih hbal' hk' hrest).mpr hchain

theorem fresh_balanced (nrIrqs : Nat) : Balanced nrIrqs (Device.fresh nrIrqs) := by
  intro irq _
  simp [Device.fresh, depth, activeBit]

/-- For every sequence of strings the counts agree with the bits after each
store exactly when no line is named by two masks in a row. -/
theorem masking_balanced_iff (nrIrqs debug : Nat) (hdebug : debug ≤ 2)
    (bufs : List (List Char))
    (hloc : ∀ buf ∈ bufs, isLoc buf = false) :
    (∀ p, p <+: bufs →
      Balanced nrIrqs (stores nrIrqs debug p (Device.fresh nrIrqs))) ↔
    (masks bufs).IsChain
      (fun a b => Apart nrIrqs (names nrIrqs a) (names nrIrqs b)) := by
  rw [stores_balanced_iff hdebug (fresh_balanced nrIrqs) rfl hloc,
    ← List.isChain_map (R := Apart nrIrqs) (names nrIrqs)]
  have hfirst : ∀ q, Apart nrIrqs
      (activeBit nrIrqs (Device.fresh nrIrqs).imaskA) q := by
    intro q irq _
    simp [Device.fresh, activeBit]
  cases (masks bufs).map (names nrIrqs) with
  | nil => simp
  | cons q qs => simp [List.isChain_cons_cons, hfirst q]

/-- Line 0, then line 1, then no line, on a machine with 16 lines. -/
theorem masking_balanced_iff_distinct :
    (∀ buf ∈ [['1'], ['2'], ['0']], isLoc buf = false) ∧
    ∀ p, p <+: [['1'], ['2'], ['0']] →
      Balanced 16 (stores 16 0 p (Device.fresh 16)) := by
  refine ⟨by decide, ?_⟩
  exact (masking_balanced_iff 16 0 (by decide) [['1'], ['2'], ['0']]
    (by decide)).mpr (by decide)

/-- Line 0 is named twice in a row and then not.  It is disabled twice and
enabled once, so the mask 0 leaves it disabled. -/
theorem masked_twice_stays_disabled :
    (∀ buf ∈ [['1'], ['1'], ['0']], isLoc buf = false) ∧
    ¬ Balanced 16 (stores 16 0 [['1'], ['1'], ['0']] (Device.fresh 16)) := by
  refine ⟨by decide, fun h => ?_⟩
  have h0 := h 0 (by decide)
  exact absurd h0 (by decide)

end Acq200.Irq
