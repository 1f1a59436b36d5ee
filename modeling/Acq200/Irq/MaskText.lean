import Mathlib.Tactic.IntervalCases
import Acq200.Irq.Imask

/-!
# The number that the imask text writes

`storeImask` cuts the text at the first character that is no hex digit and
`acq200_intsMask` reads the digits from the last to the first, while the line
number counts up and the index into `imask_a` counts down.  The text is a
number in base 16, and this file shows that all of this comes to the bits of
the number: bit `irq` of it is the bit of line `irq`, in `imask_a` and in the
lines that one store disables.
-/

namespace Acq200.Irq

/-! ## The number -/

/-- What a hex digit stands for. -/
def digitValue : Char → Nat
  | '0' => 0 | '1' => 1 | '2' => 2 | '3' => 3 | '4' => 4
  | '5' => 5 | '6' => 6 | '7' => 7 | '8' => 8 | '9' => 9
  | 'a' | 'A' => 10
  | 'b' | 'B' => 11
  | 'c' | 'C' => 12
  | 'd' | 'D' => 13
  | 'e' | 'E' => 14
  | 'f' | 'F' => 15
  | _ => 0

/-- The number that the hex digits write, the first digit the highest. -/
def hexValue (ds : List Char) : Nat :=
  ds.foldl (fun n c => 2 ^ 4 * n + digitValue c) 0

theorem hexValue_concat (ds : List Char) (c : Char) :
    hexValue (ds ++ [c]) = 2 ^ 4 * hexValue ds + digitValue c := by
  unfold hexValue
  rw [List.foldl_append]
  rfl

theorem digitValue_lt (c : Char) : digitValue c < 2 ^ 4 := by
  unfold digitValue
  split <;> decide

theorem eq_ofNat {c : Char} {n : Nat} (h : c.toNat = n) : c = Char.ofNat n := by
  rw [← h, Char.ofNat_toNat]

/-- `get_mask` gives every hex digit its value. -/
theorem getMask_digit {c : Char} (h : isxdigit c = true) : (getMask c).toNat = digitValue c := by
  unfold isxdigit at h
  rcases of_decide_eq_true h with ⟨hlo, hhi⟩ | ⟨hlo, hhi⟩ | ⟨hlo, hhi⟩
  · have hlo : 48 ≤ c.toNat := hlo
    have hhi : c.toNat ≤ 57 := hhi
    interval_cases hc : c.toNat <;> rw [eq_ofNat hc] <;> rfl
  · have hlo : 97 ≤ c.toNat := hlo
    have hhi : c.toNat ≤ 102 := hhi
    interval_cases hc : c.toNat <;> rw [eq_ofNat hc] <;> rfl
  · have hlo : 65 ≤ c.toNat := hlo
    have hhi : c.toNat ≤ 70 := hhi
    interval_cases hc : c.toNat <;> rw [eq_ofNat hc] <;> rfl

/-- Bit `4 * k + b` of the number is bit `b` of the digit that stands `k`
places before the last. -/
theorem testBit_hexValue (ds : List Char) (h : ∀ c ∈ ds, isxdigit c = true) (irq : Nat) :
    (hexValue ds).testBit irq =
      match ds.reverse[irq / 4]? with
      | some c => (getMask c).getLsbD (irq % 4)
      | none => false := by
  induction ds using List.reverseRecOn generalizing irq with
  | nil => simp [hexValue]
  | append_singleton ds c ih =>
    have hdigit : isxdigit c = true := h c (List.mem_append_right _ List.mem_cons_self)
    have hrest : ∀ d ∈ ds, isxdigit d = true := fun d hd => h d (List.mem_append_left _ hd)
    rw [hexValue_concat, Nat.testBit_two_pow_mul_add _ (digitValue_lt c),
      List.reverse_append, List.reverse_singleton, List.singleton_append]
    by_cases h : irq < 4
    · have hdiv : irq / 4 = 0 := by omega
      have hmod : irq % 4 = irq := by omega
      rw [if_pos h, hdiv, hmod, ← getMask_digit hdigit]
      rfl
    · have hdiv : irq / 4 = (irq - 4) / 4 + 1 := by omega
      have hmod : irq % 4 = (irq - 4) % 4 := by omega
      rw [if_neg h, hdiv, hmod, List.getElem?_cons_succ]
      exact ih hrest (irq - 4)

/-- The lines that a text names are the set bits of the number it writes. -/
theorem names_eq_testBit (nrIrqs : Nat) (buf : List Char) (irq : Nat) :
    names nrIrqs buf irq = (hexValue (hexDigits nrIrqs buf)).testBit irq := by
  have hhex : ∀ c ∈ hexDigits nrIrqs buf, isxdigit c = true :=
    fun c hc => List.mem_takeWhile_imp hc
  rw [testBit_hexValue _ hhex]
  rfl

/-! ## The lines that a store disables -/

/-- The lines that `disable_irq_nosync` was called for, in the order of the
calls. -/
def disabledBy (calls : List IrqCall) : List Nat :=
  calls.filterMap fun
    | .disableIrqNosync irq => some irq
    | .enableIrq _ => none

theorem disabledBy_disable (calls : List IrqCall) (irq : Nat) :
    disabledBy (calls ++ [.disableIrqNosync irq]) = disabledBy calls ++ [irq] := by
  unfold disabledBy
  rw [List.filterMap_append]
  rfl

theorem disabledBy_enable (calls : List IrqCall) (irq : Nat) :
    disabledBy (calls ++ [.enableIrq irq]) = disabledBy calls := by
  unfold disabledBy
  rw [List.filterMap_append]
  exact List.append_nil _

section Disabled

variable {debug irq : Nat} {newMask : BitVec 32}

theorem maskBit_disabled (hdebug : debug ≤ 2) {b : Nat} (hb : b < 32)
    (acc : BitVec 32 × List IrqCall) :
    disabledBy (maskBit debug newMask irq acc b).2 =
      disabledBy acc.2 ++ if newMask.getLsbD b then [irq + b] else [] := by
  have hd : ¬ debug > 2 := by omega
  unfold maskBit
  simp only [hd, and_bit_ne_zero _ hb, if_false]
  split
  · rw [disabledBy_disable]
  · split
    · rw [disabledBy_enable, List.append_nil]
    · rw [List.append_nil]

/-- The inner loop disables the lines of the bits that are set in the new
mask, whatever mask is active. -/
theorem nibble_disabled (hdebug : debug ≤ 2) {bs : List Nat}
    (hbs : ∀ b ∈ bs, b < 32) (acc : BitVec 32 × List IrqCall) :
    disabledBy (bs.foldl (maskBit debug newMask irq) acc).2 =
      disabledBy acc.2 ++ (bs.filter newMask.getLsbD).map (irq + ·) := by
  induction bs generalizing acc with
  | nil => simp
  | cons b bs ih =>
    rw [List.foldl_cons, ih (fun c hc => hbs c (List.mem_cons_of_mem b hc)),
      maskBit_disabled hdebug (hbs b List.mem_cons_self), List.filter_cons]
    cases newMask.getLsbD b <;> simp

/-- The bit that the outer loop reads for line `i` when it starts at line
`irq` and index `inew`. -/
def newBit (imask : List Char) (inew : Int) (irq i : Nat) : Bool :=
  (newNibble imask (inew - ((i - irq) / 4 : Nat))).getLsbD ((i - irq) % 4)

theorem newBit_next (imask : List Char) (inew : Int) {irq i : Nat} (h : irq + 4 ≤ i) :
    newBit imask (inew - 1) (irq + 4) i = newBit imask inew irq i := by
  have hmod : (i - (irq + 4)) % 4 = (i - irq) % 4 := by omega
  have hdiv : inew - 1 - ((i - (irq + 4)) / 4 : Nat) = inew - ((i - irq) / 4 : Nat) := by
    omega
  unfold newBit
  rw [hmod, hdiv]

theorem intsMaskTurn_disabled (hdebug : debug ≤ 2) (ia : Nat) (inew : Int) (irq : Nat)
    (dev : Device) :
    disabledBy (intsMaskTurn debug ia inew irq dev).calls =
      disabledBy dev.calls ++ (List.range' irq 4).filter (newBit dev.imask inew irq) := by
  have hrange : List.range' irq 4 = [0, 1, 2, 3].map (irq + ·) := rfl
  have hfilter : ∀ b ∈ [0, 1, 2, 3],
      newBit dev.imask inew irq (irq + b) = (newNibble dev.imask inew).getLsbD b := by
    intro b hb
    have hlt : b < 4 := by
      simp only [List.mem_cons, List.not_mem_nil, or_false] at hb
      omega
    have hsub : irq + b - irq = b := by omega
    have hdiv : b / 4 = 0 := by omega
    have hmod : b % 4 = b := by omega
    unfold newBit
    rw [hsub, hdiv, hmod]
    simp
  unfold intsMaskTurn
  rw [nibble_disabled hdebug (by decide), hrange, List.filter_map]
  congr 2
  exact List.filter_congr fun b hb => (hfilter b hb).symm

/-- The loop disables, in ascending order, the lines in its range whose bit
it reads set. -/
theorem intsMaskLoop_disabled (hdebug : debug ≤ 2) (m : Nat) (inew : Int) (irq : Nat)
    (dev : Device) :
    disabledBy (intsMaskLoop debug m inew irq dev).calls =
      disabledBy dev.calls ++
        (List.range' irq (4 * m)).filter (newBit dev.imask inew irq) := by
  induction m generalizing inew irq dev with
  | zero => simp [intsMaskLoop]
  | succ m ih =>
    have himask : (intsMaskTurn debug m inew irq dev).imask = dev.imask := rfl
    have hlen : 4 * (m + 1) = 4 + 4 * m := by omega
    have hrest : (List.range' (irq + 4) (4 * m)).filter
        (newBit dev.imask (inew - 1) (irq + 4)) =
        (List.range' (irq + 4) (4 * m)).filter (newBit dev.imask inew irq) := by
      apply List.filter_congr
      intro i hi
      rw [List.mem_range'_1] at hi
      exact newBit_next dev.imask inew hi.1
    rw [intsMaskLoop, ih, himask, intsMaskTurn_disabled hdebug, hrest, hlen,
      ← List.range'_append_1, List.filter_append, List.append_assoc]

end Disabled

/-! ## One store -/

/-- What a store of the text leaves, in terms of the number that its digits
write. -/
structure Denotes (nrIrqs : Nat) (buf : List Char) (dev dev' : Device) : Prop where
  imask : dev'.imask.takeWhile notNul = hexDigits nrIrqs buf
  active : ∀ irq < nrIrqs, activeBit nrIrqs dev'.imaskA irq =
    (hexValue (hexDigits nrIrqs buf)).testBit irq
  disabled : disabledBy dev'.calls = disabledBy dev.calls ++
    (List.range nrIrqs).filter (hexValue (hexDigits nrIrqs buf)).testBit

/-- A text that is no command leaves its hex digits in `imask` and the bits of
their number in `imask_a`, and disables exactly the lines of these bits, each
once. -/
theorem storeImask_denotes {nrIrqs debug : Nat} (hnr : nrIrqs % 4 = 0)
    (hdebug : debug ≤ 2) (dev : Device) (buf : List Char) (hl : isLapic buf = false)
    (hloc : isLoc buf = false) (hk : dev.isLocked = false) :
    Denotes nrIrqs buf dev (storeImask nrIrqs debug dev buf).1 := by
  have hmul : 4 * (nrIrqs / 4) = nrIrqs := by omega
  constructor
  · rw [storeImask_mask hl hloc hk, intsMask, (intsMaskLoop_frame hdebug _ _ _ _).1]
    exact imask_digits nrIrqs buf
  · intro irq _
    rw [storeImask_active hdebug hl hloc hk, names_eq_testBit]
  · rw [storeImask_mask hl hloc hk, intsMask, intsMaskLoop_disabled hdebug, hmul,
      ← List.range_eq_range']
    congr 1
    apply List.filter_congr
    intro irq _
    have hb : irq % 4 < 4 := by omega
    have hsplit : 4 * (irq / 4) + irq % 4 = irq := by omega
    rw [← names_eq_testBit, ← hsplit, ← newNibble_names nrIrqs buf hb, hsplit]
    rfl

/-- A text of seven digits on a machine with 16 lines, after the lines 0 to 3
were disabled: only the first four digits count. -/
theorem seven_digits_denote :
    Denotes 16 "1a2f333".toList (storeImask 16 0 (Device.fresh 16) ['F']).1
      (storeImask 16 0 (storeImask 16 0 (Device.fresh 16) ['F']).1 "1a2f333".toList).1 :=
  storeImask_denotes (by decide) (by decide) _ _ (by decide) (by decide) (by decide)

end Acq200.Irq
