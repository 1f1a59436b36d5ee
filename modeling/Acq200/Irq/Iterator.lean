import Acq200.Irq.Imask

/-!
# The iterator over a mask of interrupts

`acq200_intsDisable` and `acq200_intsEnable` take a mask of 32 bits and visit
its set bits with an iterator.  `hasNext` and `getNext` each work out where
the search starts: `getNext` with an unsigned shift from the bit below the
last one, `hasNext` with a shift to the right of an `int`.

The two agree except after bit 31, where `(1 << 31) >> 1` keeps the sign and
`hasNext` looks at bit 31 again.  `visits_iff` says that this goes wrong for
one mask only, the one that has bit 31 and no other.
-/

namespace Acq200.Irq

/-! ## The iterator -/

/-- `enum state`, without its prefix. -/
inductive IterState
  | idle
  | started
  | finished
  deriving Repr, DecidableEq

structure MaskIterator where
  mask : BitVec 32
  icursor : BitVec 32
  state : IterState
  deriving Repr, DecidableEq

/-- `struct MASK_ITERATOR it = { irqs }`. -/
def MaskIterator.init (irqs : BitVec 32) : MaskIterator := ⟨irqs, 0, .idle⟩

/-- `1 << n`.  C says nothing about a shift by 32 or more. -/
def oneShl (undefinedShift : BitVec 32 → BitVec 32) (n : BitVec 32) : BitVec 32 :=
  if n.toNat < 32 then 1#32 <<< n.toNat else undefinedShift n

/-- The cursor of the loops comes nearer to 0. -/
theorem ushiftRight_one_lt {next : BitVec 32} (h : next ≠ 0) :
    (next >>> 1).toNat < next.toNat := by
  have hpos : next.toNat ≠ 0 := fun h0 => h (BitVec.eq_of_toNat_eq h0)
  rw [BitVec.toNat_ushiftRight, Nat.shiftRight_eq_div_pow]
  omega

/-- The loop of `hasNext`. -/
def anyFrom (mask next : BitVec 32) : Int :=
  if next = 0 then 0
  else if mask &&& next ≠ 0 then 1
  else anyFrom mask (next >>> 1)
termination_by next.toNat
decreasing_by exact ushiftRight_one_lt ‹_›

def hasNext (undefinedShift : BitVec 32 → BitVec 32) (it : MaskIterator) :
    MaskIterator × Int :=
  match it.state with
  | .idle => ({ it with icursor := 31 }, anyFrom it.mask 0x80000000#32)
  | .started =>
    (it, anyFrom it.mask ((oneShl undefinedShift it.icursor).sshiftRight 1))
  | .finished => (it, 0)

/-- The loop of `getNext` and what follows it. -/
def seekFrom (it : MaskIterator) (next : BitVec 32) : MaskIterator × Int :=
  if next = 0 then ({ it with state := .finished }, -1)
  else if it.mask &&& next ≠ 0 then (it, it.icursor.toInt)
  else seekFrom { it with icursor := it.icursor - 1 } (next >>> 1)
termination_by next.toNat
decreasing_by exact ushiftRight_one_lt ‹_›

def getNext (undefinedShift : BitVec 32 → BitVec 32) (it : MaskIterator) :
    MaskIterator × Int :=
  match it.state with
  | .idle => seekFrom { it with state := .started, icursor := 31 } 0x80000000#32
  | .started =>
    seekFrom { it with icursor := it.icursor - 1 }
      (oneShl undefinedShift (it.icursor - 1))
  | .finished => (it, -1)

/-- `while (hasNext(&it)) f(getNext(&it))`, with the values that `f` is called
for.  There is no answer if the loop takes more turns than the fuel. -/
def visit (undefinedShift : BitVec 32 → BitVec 32) :
    Nat → MaskIterator → Option (List Int)
  | 0, _ => none
  | fuel + 1, it =>
    let (it, more) := hasNext undefinedShift it
    if more = 0 then some []
    else
      let (it, irq) := getNext undefinedShift it
      (visit undefinedShift fuel it).map (irq :: ·)

/-- The kernel takes the line as an `unsigned`. -/
def toIrq (irq : Int) : Nat := (BitVec.ofInt 32 irq).toNat

def intsDisable (undefinedShift : BitVec 32 → BitVec 32) (fuel : Nat)
    (irqs : BitVec 32) : Option (List IrqCall) :=
  (visit undefinedShift fuel (.init irqs)).map
    (·.map fun irq => .disableIrqNosync (toIrq irq))

def intsEnable (undefinedShift : BitVec 32 → BitVec 32) (fuel : Nat)
    (irqs : BitVec 32) : Option (List IrqCall) :=
  (visit undefinedShift fuel (.init irqs)).map
    (·.map fun irq => .enableIrq (toIrq irq))

/-! ## What the iterator is for -/

/-- The set bits below bit `k`, highest first. -/
def setBitsBelow (mask : BitVec 32) : Nat → List Nat
  | 0 => []
  | k + 1 => if mask.getLsbD k then k :: setBitsBelow mask k else setBitsBelow mask k

/-- The shift of the next `getNext` is defined. -/
def MaskIterator.ShiftDefined (it : MaskIterator) : Prop :=
  it.state = .started → (it.icursor - 1).toNat < 32

/-- The iterators that calls of the two functions lead to, in any order, up to
the first shift that is not defined. -/
inductive Reached (undefinedShift : BitVec 32 → BitVec 32) (irqs : BitVec 32) :
    MaskIterator → Prop
  | init : Reached undefinedShift irqs (.init irqs)
  | hasNext {it : MaskIterator} (h : Reached undefinedShift irqs it) :
    Reached undefinedShift irqs (hasNext undefinedShift it).1
  | getNext {it : MaskIterator} (h : Reached undefinedShift irqs it)
    (hshift : it.ShiftDefined) :
    Reached undefinedShift irqs (getNext undefinedShift it).1

/-- Both loops end and visit the set bits, highest first, and `hasNext` tells
what the next `getNext` will say. -/
structure Visits (undefinedShift : BitVec 32 → BitVec 32) (irqs : BitVec 32) : Prop where
  disable : ∃ fuel, intsDisable undefinedShift fuel irqs =
    some ((setBitsBelow irqs 32).map .disableIrqNosync)
  enable : ∃ fuel, intsEnable undefinedShift fuel irqs =
    some ((setBitsBelow irqs 32).map .enableIrq)
  agree : ∀ it, Reached undefinedShift irqs it →
    ((hasNext undefinedShift it).2 = 1 ↔ 0 ≤ (getNext undefinedShift it).2)

/-! ## The set bits -/

theorem setBitsBelow_of_cons {mask : BitVec 32} {k j : Nat} {rest : List Nat}
    (h : setBitsBelow mask k = j :: rest) :
    j < k ∧ mask.getLsbD j = true ∧ rest = setBitsBelow mask j := by
  induction k with
  | zero => exact absurd h (List.cons_ne_nil j rest).symm
  | succ k ih =>
    unfold setBitsBelow at h
    by_cases hbit : mask.getLsbD k
    · rw [if_pos hbit] at h
      obtain ⟨hj, hrest⟩ := List.cons.inj h
      subst hj
      exact ⟨Nat.lt_succ_self k, hbit, hrest.symm⟩
    · rw [if_neg hbit] at h
      obtain ⟨hlt, hj, hrest⟩ := ih h
      exact ⟨by omega, hj, hrest⟩

theorem mem_setBitsBelow {mask : BitVec 32} {k j : Nat} (h : j ∈ setBitsBelow mask k) :
    j < k ∧ mask.getLsbD j = true := by
  induction k with
  | zero => exact absurd h List.not_mem_nil
  | succ k ih =>
    unfold setBitsBelow at h
    split at h
    · rename_i hbit
      cases List.mem_cons.mp h with
      | inl heq => exact ⟨by omega, heq ▸ hbit⟩
      | inr hmem => exact ⟨by have := (ih hmem).1; omega, (ih hmem).2⟩
    · exact ⟨by have := (ih h).1; omega, (ih h).2⟩

theorem setBitsBelow_eq_nil_iff (mask : BitVec 32) (k : Nat) :
    setBitsBelow mask k = [] ↔ ∀ j < k, mask.getLsbD j = false := by
  induction k with
  | zero => simp [setBitsBelow]
  | succ k ih =>
    unfold setBitsBelow
    by_cases hbit : mask.getLsbD k
    · rw [if_pos hbit]
      constructor
      · intro h
        exact absurd h (List.cons_ne_nil _ _)
      · intro h
        rw [h k (Nat.lt_succ_self k)] at hbit
        exact absurd hbit Bool.false_ne_true
    · rw [if_neg hbit, ih]
      constructor
      · intro h j hj
        by_cases hjk : j = k
        · rw [hjk]
          exact Bool.eq_false_of_not_eq_true hbit
        · exact h j (by omega)
      · intro h j hj
        exact h j (by omega)

/-- The one mask for which bit 31 is set and nothing is left below it. -/
theorem eq_top_iff (mask : BitVec 32) :
    mask = 0x80000000#32 ↔ mask.getLsbD 31 = true ∧ setBitsBelow mask 31 = [] := by
  rw [setBitsBelow_eq_nil_iff]
  constructor
  · intro h
    rw [h]
    decide
  · intro h
    apply BitVec.eq_of_getLsbD_eq
    intro j hj
    have htop : (0x80000000#32).getLsbD j = decide (j = 31) := by
      rw [show 0x80000000#32 = BitVec.twoPow 32 31 from rfl, BitVec.getLsbD_twoPow]
      simp [eq_comm]
    rw [htop]
    by_cases hj31 : j = 31
    · rw [hj31, h.1]
      rfl
    · rw [h.2 j (by omega)]
      simp [hj31]

/-! ## The loops -/

theorem one_shl_ne_zero {k : Nat} (hk : k < 32) : 1#32 <<< k ≠ 0 := by
  intro h
  have hbit := congrArg (fun y => y.getLsbD k) h
  rw [← BitVec.twoPow_eq] at hbit
  simp [hk] at hbit

theorem one_shl_ushiftRight {k : Nat} (hk : k + 1 < 32) :
    1#32 <<< (k + 1) >>> 1 = 1#32 <<< k := by
  apply BitVec.eq_of_getLsbD_eq
  intro j hj
  have hlt : k < 32 := by omega
  have heq : k + 1 = 1 + j ↔ k = j := by omega
  rw [BitVec.getLsbD_ushiftRight, ← BitVec.twoPow_eq, ← BitVec.twoPow_eq,
    BitVec.getLsbD_twoPow, BitVec.getLsbD_twoPow]
  simp only [heq, hk, hlt]

/-- The loop of `hasNext` from bit `k`. -/
theorem anyFrom_bit (mask : BitVec 32) {k : Nat} (hk : k < 32) :
    anyFrom mask (1#32 <<< k) = if setBitsBelow mask (k + 1) = [] then 0 else 1 := by
  induction k with
  | zero =>
    have hzero : 1#32 <<< 0 >>> 1 = 0 := by decide
    unfold anyFrom setBitsBelow
    rw [if_neg (one_shl_ne_zero hk), hzero]
    simp only [and_bit_ne_zero mask hk]
    by_cases hbit : mask.getLsbD 0
    · simp [hbit]
    · rw [if_neg hbit, if_neg hbit, anyFrom]
      rfl
  | succ k ih =>
    unfold anyFrom setBitsBelow
    rw [if_neg (one_shl_ne_zero hk), one_shl_ushiftRight hk]
    simp only [and_bit_ne_zero mask hk]
    by_cases hbit : mask.getLsbD (k + 1)
    · simp [hbit]
    · rw [if_neg hbit, if_neg hbit]
      exact ih (by omega)

/-- The loop of `hasNext` from a number that has bit 31. -/
theorem anyFrom_of_getLsbD {mask next : BitVec 32} {i k : Nat}
    (hmask : mask.getLsbD i = true) (hnext : next.getLsbD (i + k) = true) :
    anyFrom mask next = 1 := by
  induction k generalizing next with
  | zero =>
    have hne : mask &&& next ≠ 0 := by
      intro h
      have hbit := congrArg (fun y => y.getLsbD i) h
      rw [show i + 0 = i from rfl] at hnext
      simp [hmask, hnext] at hbit
    have hnz : next ≠ 0 := by
      intro h
      exact hne (by simp [h])
    unfold anyFrom
    rw [if_neg hnz, if_pos hne]
  | succ k ih =>
    have hnz : next ≠ 0 := by
      intro h
      rw [h] at hnext
      simp at hnext
    have hshift : (next >>> 1).getLsbD (i + k) = true := by
      rw [BitVec.getLsbD_ushiftRight, ← hnext]
      congr 1
      omega
    unfold anyFrom
    rw [if_neg hnz]
    split
    · rfl
    · exact ih hshift

theorem toInt_ofNat_lt {k : Nat} (hk : k < 32) : (BitVec.ofNat 32 k).toInt = k := by
  have htoNat : (BitVec.ofNat 32 k).toNat = k := by
    rw [BitVec.toNat_ofNat]
    omega
  rw [BitVec.toInt_eq_toNat_of_lt (by omega), htoNat]

theorem ofNat_succ_sub_one (k : Nat) :
    BitVec.ofNat 32 (k + 1) - 1 = BitVec.ofNat 32 k := by
  rw [BitVec.ofNat_add]
  exact BitVec.add_sub_cancel _ _

/-- The loop of `getNext` from bit `k` of the mask finds the highest set bit
that is not above `k`. -/
theorem seekFrom_bit (it : MaskIterator) {k : Nat} (hk : k < 32)
    (hcursor : it.icursor = BitVec.ofNat 32 k) :
    seekFrom it (1#32 <<< k) =
      match setBitsBelow it.mask (k + 1) with
      | [] => ({ it with icursor := -1, state := .finished }, -1)
      | j :: _ => ({ it with icursor := BitVec.ofNat 32 j }, j) := by
  induction k generalizing it with
  | zero =>
    have hzero : 1#32 <<< 0 >>> 1 = 0 := by decide
    unfold seekFrom setBitsBelow
    rw [if_neg (one_shl_ne_zero hk), hzero]
    simp only [and_bit_ne_zero it.mask hk]
    by_cases hbit : it.mask.getLsbD 0
    · rw [if_pos hbit, if_pos hbit, hcursor, toInt_ofNat_lt hk]
      show (it, _) = ({ it with icursor := BitVec.ofNat 32 0 }, _)
      rw [← hcursor]
    · rw [if_neg hbit, if_neg hbit, seekFrom, hcursor]
      rfl
  | succ k ih =>
    have hcursor' : it.icursor - 1 = BitVec.ofNat 32 k := by
      rw [hcursor, ofNat_succ_sub_one]
    unfold seekFrom setBitsBelow
    rw [if_neg (one_shl_ne_zero hk), one_shl_ushiftRight hk]
    simp only [and_bit_ne_zero it.mask hk]
    by_cases hbit : it.mask.getLsbD (k + 1)
    · rw [if_pos hbit, if_pos hbit, hcursor, toInt_ofNat_lt hk]
      show (it, _) = ({ it with icursor := BitVec.ofNat 32 (k + 1) }, _)
      rw [← hcursor]
    · rw [if_neg hbit, if_neg hbit]
      exact ih { it with icursor := it.icursor - 1 } (by omega) hcursor'

/-- From a cursor that went past bit 0 the loop of `getNext` has no answer that
is a line, whatever the shift gave. -/
theorem seekFrom_neg {n : Nat} (hn : n ≤ 32) (it : MaskIterator) {next : BitVec 32}
    (hnext : next.toNat < 2 ^ n) (hcursor : 2147483648 + n ≤ it.icursor.toNat) :
    (seekFrom it next).2 < 0 := by
  induction n generalizing it next with
  | zero =>
    have hzero : next = 0 := by
      apply BitVec.eq_of_toNat_eq
      rw [show (0 : BitVec 32).toNat = 0 from rfl]
      omega
    rw [hzero, seekFrom, if_pos rfl]
    exact Int.negSucc_lt_zero 0
  | succ n ih =>
    unfold seekFrom
    split
    · exact Int.negSucc_lt_zero 0
    · split
      · have hlt := it.icursor.isLt
        show it.icursor.toInt < 0
        rw [BitVec.toInt_eq_toNat_cond]
        omega
      · have hhalf : (next >>> 1).toNat < 2 ^ n := by
          rw [BitVec.toNat_ushiftRight, Nat.shiftRight_eq_div_pow]
          omega
        have hdown : (it.icursor - 1).toNat = it.icursor.toNat - 1 := by
          rw [BitVec.toNat_sub_of_le]
          · rfl
          · show 1 ≤ it.icursor.toNat
            omega
        apply ih (by omega) _ hhalf
        show 2147483648 + n ≤ (it.icursor - 1).toNat
        omega

/-! ## The two functions -/

/-- The bit below which `getNext` looks. -/
def MaskIterator.below (it : MaskIterator) : Nat :=
  match it.state with
  | .idle => 32
  | .started => it.icursor.toNat
  | .finished => 0

/-- A started iterator stands on a set bit. -/
structure Placed (irqs : BitVec 32) (it : MaskIterator) : Prop where
  mask : it.mask = irqs
  bit : it.state = .started →
    it.icursor.toNat < 32 ∧ irqs.getLsbD it.icursor.toNat = true

section Calls

variable {u : BitVec 32 → BitVec 32} {irqs : BitVec 32} {it : MaskIterator}

theorem init_placed : Placed irqs (.init irqs) :=
  ⟨rfl, fun h => IterState.noConfusion h⟩

theorem hasNext_placed (h : Placed irqs it) :
    Placed irqs (hasNext u it).1 ∧
      (hasNext u it).1.below = it.below := by
  unfold hasNext MaskIterator.below
  cases hstate : it.state with
  | idle => exact ⟨⟨h.mask, fun hs => IterState.noConfusion hs⟩, rfl⟩
  | started => exact ⟨h, by simp only [hstate]⟩
  | finished => exact ⟨h, by simp only [hstate]⟩

/-- The loop of `getNext` from bit `k` goes to the next set bit, or says that
there is none. -/
theorem seekFrom_next (it : MaskIterator) (hmask : it.mask = irqs)
    (hstate : it.state = .started) {k : Nat} (hk : k < 32)
    (hcursor : it.icursor = BitVec.ofNat 32 k) :
    match setBitsBelow irqs (k + 1) with
    | [] => (seekFrom it (1#32 <<< k)).2 = -1 ∧ Placed irqs (seekFrom it (1#32 <<< k)).1
    | j :: _ => (seekFrom it (1#32 <<< k)).2 = j ∧
        Placed irqs (seekFrom it (1#32 <<< k)).1 ∧
        (seekFrom it (1#32 <<< k)).1.below = j := by
  have hseek := seekFrom_bit it hk hcursor
  rw [hmask] at hseek
  cases hbits : setBitsBelow irqs (k + 1) with
  | nil =>
    rw [hseek, hbits]
    exact ⟨rfl, rfl, fun hs => IterState.noConfusion hs⟩
  | cons j rest =>
    obtain ⟨hlt, hbit, -⟩ := setBitsBelow_of_cons hbits
    have htoNat : (BitVec.ofNat 32 j).toNat = j := by
      rw [BitVec.toNat_ofNat]
      omega
    have hplaced : (BitVec.ofNat 32 j).toNat < 32 ∧
        irqs.getLsbD (BitVec.ofNat 32 j).toNat = true := by
      rw [htoNat]
      exact ⟨by omega, hbit⟩
    rw [hseek, hbits]
    refine ⟨rfl, ⟨rfl, fun _ => hplaced⟩, ?_⟩
    unfold MaskIterator.below
    simp only [hstate]
    exact htoNat

theorem getNext_next (h : Placed irqs it) (hshift : it.ShiftDefined) :
    match setBitsBelow irqs it.below with
    | [] => (getNext u it).2 = -1 ∧
        Placed irqs (getNext u it).1
    | j :: _ => (getNext u it).2 = j ∧
        Placed irqs (getNext u it).1 ∧
        (getNext u it).1.below = j := by
  unfold getNext
  cases hstate : it.state with
  | idle =>
    have hbelow : it.below = 31 + 1 := by
      unfold MaskIterator.below
      simp only [hstate]
    rw [hbelow]
    exact seekFrom_next (k := 31) { it with state := .started, icursor := 31 } h.mask rfl
      (by omega) rfl
  | started =>
    have hbelow : it.below = it.icursor.toNat := by
      unfold MaskIterator.below
      simp only [hstate]
    obtain ⟨hlt, -⟩ := h.bit hstate
    have hdef := hshift hstate
    cases hk : it.icursor.toNat with
    | zero =>
      have hzero : it.icursor = 0 := BitVec.eq_of_toNat_eq hk
      rw [hzero] at hdef
      exact absurd hdef (by decide)
    | succ k =>
      have hcursor : it.icursor - 1 = BitVec.ofNat 32 k := by
        rw [← ofNat_succ_sub_one, ← hk, BitVec.ofNat_toNat, BitVec.setWidth_eq]
      have hshl : oneShl u (it.icursor - 1) = 1#32 <<< k := by
        have htoNat : (BitVec.ofNat 32 k).toNat = k := by
          rw [BitVec.toNat_ofNat]
          omega
        unfold oneShl
        rw [if_pos hdef, hcursor, htoNat]
      simp only []
      rw [hbelow, hk, hshl]
      exact seekFrom_next { it with icursor := it.icursor - 1, state := .started } h.mask rfl
        (by omega) hcursor
  | finished =>
    have hbelow : it.below = 0 := by
      unfold MaskIterator.below
      simp only [hstate]
    rw [hbelow]
    exact ⟨rfl, h⟩

/-- After bit 0 the shift of `getNext` is not defined, and whatever it gives
the answer is no line. -/
theorem getNext_past_zero (hstate : it.state = .started) (hzero : it.icursor = 0) :
    (getNext u it).2 < 0 := by
  unfold getNext
  simp only [hstate]
  apply seekFrom_neg (le_refl 32)
  · exact (oneShl u (it.icursor - 1)).isLt
  · show 2147483648 + 32 ≤ (it.icursor - 1).toNat
    rw [hzero]
    decide

/-- The search of `hasNext` after bit `k`. -/
theorem anyFrom_started {k : Nat} (hk : k < 32) (hbit : irqs.getLsbD k = true)
    (hne : irqs ≠ 0x80000000#32) :
    anyFrom irqs ((1#32 <<< k).sshiftRight 1) =
      if setBitsBelow irqs k = [] then 0 else 1 := by
  cases k with
  | zero =>
    rw [show (1#32 <<< 0).sshiftRight 1 = 0 by decide, anyFrom]
    rfl
  | succ k =>
    by_cases htop : k + 1 = 31
    · -- the sign is kept, so the search starts at bit 31 once more
      have hleft : setBitsBelow irqs 31 ≠ [] := by
        intro h
        exact hne ((eq_top_iff irqs).mpr ⟨htop ▸ hbit, h⟩)
      rw [htop] at hbit
      rw [htop, if_neg hleft]
      exact anyFrom_of_getLsbD (k := 0) hbit (by decide)
    · have hmsb : (1#32 <<< (k + 1)).msb = false := by
        rw [← BitVec.twoPow_eq, BitVec.msb_twoPow]
        simp
        omega
      rw [BitVec.sshiftRight_eq_of_msb_false hmsb, one_shl_ushiftRight hk]
      exact anyFrom_bit irqs (by omega)

/-- `hasNext` tells whether a set bit is left, except for the one mask. -/
theorem hasNext_left (h : Placed irqs it) (hne : irqs ≠ 0x80000000#32) :
    (hasNext u it).2 = if setBitsBelow irqs it.below = [] then 0 else 1 := by
  unfold hasNext MaskIterator.below
  cases hstate : it.state with
  | idle =>
    simp only [h.mask]
    exact anyFrom_bit irqs (by omega : 31 < 32)
  | started =>
    obtain ⟨hlt, hbit⟩ := h.bit hstate
    simp only [h.mask, oneShl, if_pos hlt]
    exact anyFrom_started hlt hbit hne
  | finished => rfl

theorem reached_placed (h : Reached u irqs it) : Placed irqs it := by
  induction h with
  | init => exact init_placed
  | hasNext _ ih => exact (hasNext_placed ih).1
  | getNext _ hshift ih =>
    have hnext := getNext_next (u := u) ih hshift
    split at hnext
    · exact hnext.2
    · exact hnext.2.1

theorem shiftDefined_iff (h : Placed irqs it) :
    it.ShiftDefined ↔ ¬ (it.state = .started ∧ it.icursor = 0) := by
  unfold MaskIterator.ShiftDefined
  rw [not_and]
  refine forall_congr' fun hstate => ?_
  have hlt := (h.bit hstate).1
  constructor
  · intro hdef hzero
    rw [hzero] at hdef
    exact absurd hdef (by decide)
  · intro hpos
    have hne : it.icursor.toNat ≠ 0 := fun h0 => hpos (BitVec.eq_of_toNat_eq h0)
    have hle : (1 : BitVec 32) ≤ it.icursor := by
      show 1 ≤ it.icursor.toNat
      omega
    rw [BitVec.toNat_sub_of_le hle]
    omega

/-- In every reached state `hasNext` tells what the next `getNext` will say. -/
theorem hasNext_agrees (h : Reached u irqs it) (hne : irqs ≠ 0x80000000#32) :
    (hasNext u it).2 = 1 ↔ 0 ≤ (getNext u it).2 := by
  have hplaced := reached_placed h
  rw [hasNext_left hplaced hne]
  by_cases hpast : it.state = .started ∧ it.icursor = 0
  · have hneg := getNext_past_zero (u := u) hpast.1 hpast.2
    have hbelow : it.below = 0 := by
      unfold MaskIterator.below
      simp only [hpast.1, hpast.2]
      rfl
    rw [hbelow, setBitsBelow, if_pos rfl]
    omega
  · have hnext := getNext_next (u := u) hplaced ((shiftDefined_iff hplaced).mpr hpast)
    cases hbits : setBitsBelow irqs it.below with
    | nil =>
      rw [hbits] at hnext
      rw [hnext.1]
      decide
    | cons j rest =>
      rw [hbits] at hnext
      rw [hnext.1, if_neg (List.cons_ne_nil j rest)]
      omega

/-- The loop visits the set bits that are left and ends one turn later. -/
theorem visit_left (hne : irqs ≠ 0x80000000#32) {left : List Nat} (h : Placed irqs it)
    (hleft : setBitsBelow irqs it.below = left) :
    visit u (left.length + 1) it = some (left.map fun k : Nat => (k : Int)) := by
  induction left generalizing it with
  | nil =>
    unfold visit
    simp only [hasNext_left h hne, hleft, if_true]
    rfl
  | cons j rest ih =>
    obtain ⟨hplaced, hbelow⟩ := hasNext_placed (u := u) h
    have hmore : (hasNext u it).2 ≠ 0 := by
      rw [hasNext_left h hne, hleft, if_neg (List.cons_ne_nil j rest)]
      decide
    have hdef : (hasNext u it).1.ShiftDefined := by
      rw [shiftDefined_iff hplaced]
      intro hpast
      have hzero : it.below = 0 := by
        rw [← hbelow]
        unfold MaskIterator.below
        simp only [hpast.1, hpast.2]
        rfl
      rw [hzero] at hleft
      exact absurd hleft (List.cons_ne_nil j rest).symm
    have hnext := getNext_next (u := u) hplaced hdef
    rw [hbelow, hleft] at hnext
    obtain ⟨hirq, hplaced', hbelow'⟩ := hnext
    have hrest : setBitsBelow irqs (getNext u (hasNext u it).1).1.below = rest := by
      rw [hbelow']
      exact (setBitsBelow_of_cons hleft).2.2.symm
    rw [List.length_cons, visit]
    simp only [if_neg hmore, ih hplaced' hrest, hirq]
    rfl

end Calls

/-! ## Every mask -/

theorem toIrq_natCast {k : Nat} (hk : k < 32) : toIrq (k : Int) = k := by
  unfold toIrq
  rw [BitVec.ofInt_natCast, BitVec.toNat_ofNat]
  omega

theorem map_toIrq (mask : BitVec 32) (f : Nat → IrqCall) :
    ((setBitsBelow mask 32).map fun k : Nat => (k : Int)).map (fun irq => f (toIrq irq)) =
      (setBitsBelow mask 32).map f := by
  rw [List.map_map]
  apply List.map_congr_left
  intro k hk
  show f (toIrq k) = f k
  rw [toIrq_natCast (mem_setBitsBelow hk).1]

theorem visits_of_ne {u : BitVec 32 → BitVec 32} {irqs : BitVec 32}
    (hne : irqs ≠ 0x80000000#32) : Visits u irqs := by
  have hvisit : visit u ((setBitsBelow irqs 32).length + 1) (.init irqs) =
      some ((setBitsBelow irqs 32).map fun k : Nat => (k : Int)) :=
    visit_left hne init_placed rfl
  refine ⟨⟨(setBitsBelow irqs 32).length + 1, ?_⟩,
    ⟨(setBitsBelow irqs 32).length + 1, ?_⟩, fun it h => hasNext_agrees h hne⟩
  · unfold intsDisable
    rw [hvisit]
    exact congrArg some (map_toIrq irqs .disableIrqNosync)
  · unfold intsEnable
    rw [hvisit]
    exact congrArg some (map_toIrq irqs .enableIrq)

/-! ### The mask with bit 31 alone -/

section Top

variable (u : BitVec 32 → BitVec 32)

theorem getNext_top (icursor : BitVec 32) :
    getNext u ⟨0x80000000#32, icursor, .idle⟩ = (⟨0x80000000#32, 31, .started⟩, 31) :=
  seekFrom_bit (k := 31) ⟨0x80000000#32, 31, .started⟩ (by decide) rfl

/-- `hasNext` says that there is more and `getNext` that there is not. -/
theorem hasNext_top :
    hasNext u ⟨0x80000000#32, 31, .started⟩ = (⟨0x80000000#32, 31, .started⟩, 1) := by
  have hcursor : oneShl u 31 = 0x80000000#32 := rfl
  have hany : anyFrom 0x80000000#32 ((0x80000000#32).sshiftRight 1) = 1 :=
    anyFrom_of_getLsbD (i := 31) (k := 0) (by decide) (by decide)
  unfold hasNext
  simp only [hcursor, hany]

theorem getNext_top_again :
    getNext u ⟨0x80000000#32, 31, .started⟩ = (⟨0x80000000#32, -1, .finished⟩, -1) :=
  seekFrom_bit (k := 30) ⟨0x80000000#32, 30, .started⟩ (by decide) rfl

theorem visit_top : visit u 3 (.init 0x80000000#32) = some [31, -1] := by
  have hfirst : hasNext u ⟨0x80000000#32, 0, .idle⟩ = (⟨0x80000000#32, 31, .idle⟩, 1) :=
    congrArg (Prod.mk _) (anyFrom_bit 0x80000000#32 (by decide : 31 < 32))
  have hlast : hasNext u ⟨0x80000000#32, -1, .finished⟩ =
      (⟨0x80000000#32, -1, .finished⟩, 0) := rfl
  unfold MaskIterator.init
  simp only [visit, hfirst, getNext_top, hasNext_top, getNext_top_again, hlast]
  rfl

theorem not_visits_top : ¬ Visits u 0x80000000#32 := by
  intro h
  have hreached : Reached u 0x80000000#32 ⟨0x80000000#32, 31, .started⟩ := by
    have hinit : Reached u 0x80000000#32 ⟨0x80000000#32, 0, .idle⟩ := .init
    have hget := hinit.getNext (fun hs => IterState.noConfusion hs)
    rw [getNext_top] at hget
    exact hget
  have hagree := h.agree _ hreached
  rw [hasNext_top, getNext_top_again] at hagree
  exact absurd (hagree.mp rfl) (by decide)

end Top

/-- The two loops visit exactly the set bits and `hasNext` agrees with `getNext`
for every mask but one. -/
theorem visits_iff (undefinedShift : BitVec 32 → BitVec 32) (irqs : BitVec 32) :
    Visits undefinedShift irqs ↔ irqs ≠ 0x80000000#32 := by
  constructor
  · intro h htop
    rw [htop] at h
    exact not_visits_top undefinedShift h
  · exact visits_of_ne

/-- For the mask of line 31 the loop goes on after line 31 and disables a line
with the number -1. -/
theorem disables_line_minus_one :
    intsDisable (fun _ => 0) 3 0x80000000#32 =
      some [.disableIrqNosync 31, .disableIrqNosync 0xffffffff] ∧
    ¬ Visits (fun _ => 0) 0x80000000#32 := by
  refine ⟨?_, not_visits_top _⟩
  unfold intsDisable
  rw [visit_top]
  rfl

end Acq200.Irq
