import Mathlib.Data.Int.ModEq

/-!
# DMA buffers

A `struct DmaBuf` is a run of pages that the card can reach.  Its length is
kept as the order of the page allocation, and `dma_buf_len` computes it as an
`int`, so the length is only right while it stays below `2 ^ 31`.

`__get_free_pages` is not part of the driver.  It gives no allocation of
`2 ^ 31` bytes or more, since the kernel's `MAX_ORDER` is far below that, and
`allocMaxBuf_sized` derives from this that the driver's buffers are all
`Sized`.
-/

namespace Acq200.Buffers

def PAGE_SHIFT : Nat := 12
def PAGE_SIZE : Nat := 4096

/-- `struct DmaBuf`, with `none` for a null pointer. -/
structure DmaBuf where
  order : Nat
  va : Option Nat
  pa : BitVec 32
  deriving DecidableEq

/-- `dma_buf_len`.  The product is an `unsigned long`, of which the `int`
keeps 32 bits. -/
def dmaBufLen (buf : DmaBuf) : BitVec 32 :=
  if buf.va.isSome then 4096#32 <<< buf.order else 0#32

/-- The length of the buffer is an `int`. -/
def DmaBuf.Sized (buf : DmaBuf) : Prop := buf.va.isSome = true → buf.order < 19

instance (buf : DmaBuf) : Decidable buf.Sized :=
  inferInstanceAs (Decidable (_ → _))

/-- The loop of `get_max_buf`, from `order` down.  It ends in `assert(0)`. -/
def maxBufFrom (pages : Nat → Option Nat) : Nat → Option (Nat × Nat)
  | 0 => (pages 0).map fun va => (0, va)
  | order + 1 =>
    match pages (order + 1) with
    | some va => some (order + 1, va)
    | none => maxBufFrom pages order

/-- `get_max_buf`, where `pages` is `__get_free_pages`. -/
def getMaxBuf (pages : Nat → Option Nat) (maxOrder : Int) : Option (Nat × Nat) :=
  if maxOrder < 0 then none else maxBufFrom pages maxOrder.toNat

/-- `alloc_max_buf`, where `map` is `dma_map_single`. -/
def allocMaxBuf (pages : Nat → Option Nat) (map : Nat → BitVec 32) (maxOrder : Int) :
    Option DmaBuf :=
  (getMaxBuf pages maxOrder).map fun p => ⟨p.1, some p.2, map p.2⟩

/-- `alloc_llhost_buf`, where `page` is what `dma_alloc_coherent` gives. -/
def allocLlhostBuf (page : Option Nat) (pa : BitVec 32) : DmaBuf := ⟨0, page, pa⟩

theorem maxBufFrom_pages {pages : Nat → Option Nat} {n order va : Nat}
    (h : maxBufFrom pages n = some (order, va)) : pages order = some va := by
  induction n with
  | zero =>
    obtain ⟨va', hva, hpair⟩ := Option.map_eq_some_iff.mp h
    obtain ⟨rfl, rfl⟩ := Prod.mk.inj hpair
    exact hva
  | succ n ih =>
    unfold maxBufFrom at h
    split at h
    · rename_i va' hva
      obtain ⟨rfl, rfl⟩ := Prod.mk.inj (Option.some.inj h)
      exact hva
    · exact ih h

/-- A page allocator that gives nothing of 2 GiB or more gives buffers whose
length is an `int`. -/
theorem allocMaxBuf_sized {pages : Nat → Option Nat} {map : Nat → BitVec 32}
    {maxOrder : Int} {buf : DmaBuf} (hpages : ∀ order, 19 ≤ order → pages order = none)
    (h : allocMaxBuf pages map maxOrder = some buf) : buf.Sized := by
  obtain ⟨⟨order, va⟩, hmax, rfl⟩ := Option.map_eq_some_iff.mp h
  intro _
  unfold getMaxBuf at hmax
  split at hmax
  · cases hmax
  · by_contra hge
    have hnone := hpages order (by simpa using hge)
    rw [maxBufFrom_pages hmax] at hnone
    cases hnone

theorem allocLlhostBuf_sized (page : Option Nat) (pa : BitVec 32) :
    (allocLlhostBuf page pa).Sized := by
  intro _
  show 0 < 19
  omega

/-- The length in bytes of a buffer that there is. -/
theorem toNat_dmaBufLen {buf : DmaBuf} (hva : buf.va.isSome = true)
    (horder : buf.order < 19) : (dmaBufLen buf).toNat = 2 ^ buf.order * PAGE_SIZE := by
  have hlt : 2 ^ buf.order * 4096 < 2 ^ 32 := by
    calc 2 ^ buf.order * 4096 ≤ 2 ^ 18 * 4096 :=
          Nat.mul_le_mul_right _ (Nat.pow_le_pow_right (by omega) (by omega))
      _ < 2 ^ 32 := by omega
  unfold dmaBufLen
  rw [if_pos hva, BitVec.toNat_shiftLeft, Nat.shiftLeft_eq, BitVec.toNat_ofNat]
  rw [Nat.mul_comm (2 ^ buf.order)] at hlt
  rw [show 4096 % 2 ^ 32 = 4096 by omega, Nat.mod_eq_of_lt hlt, Nat.mul_comm]
  rfl

theorem toNat_dmaBufLen_none {buf : DmaBuf} (hva : buf.va.isSome = false) :
    (dmaBufLen buf).toNat = 0 := by
  unfold dmaBufLen
  rw [hva]
  rfl

/-- A length that is an `int` is below `2 ^ 31`. -/
theorem dmaBufLen_lt {buf : DmaBuf} (h : buf.Sized) : (dmaBufLen buf).toNat < 2 ^ 31 := by
  cases hva : buf.va.isSome with
  | false =>
    rw [toNat_dmaBufLen_none hva]
    omega
  | true =>
    have horder := h hva
    rw [toNat_dmaBufLen hva horder]
    calc 2 ^ buf.order * PAGE_SIZE ≤ 2 ^ 18 * PAGE_SIZE :=
          Nat.mul_le_mul_right _ (Nat.pow_le_pow_right (by omega) (by omega))
      _ < 2 ^ 31 := by
        show 2 ^ 18 * 4096 < 2 ^ 31
        omega

end Acq200.Buffers
