import Acq200.Buffers.DmaBuf

/-!
# Mapping buffers and registers to the user

The four `mmap` operations of `acq200_mmap.c` hand a run of page frames to
`remap_pfn_range`.  Three of them map a DMA buffer from its start, whatever
page offset the user asks for.  The one for the mailboxes adds the offset to
the address of the registers, and compares only the size with the size of
the register page.

`mmap_confined_iff` says for every request when the physical range that is
mapped lies in the object of the node.  `mbox_maps_next_page` is a request
for one page at page offset 1, which maps the page behind the registers.

An `unsigned long` has `w` bits, at least 32 of them.  A page frame number
is an `unsigned`, so an address from `2 ^ 44` on loses its high bits.
-/

namespace Acq200.Buffers

variable {w : Nat}

/-! ## The operations -/

def EINVAL : Int := 22
def EAGAIN : Int := 11

/-- `CSR_SIZE_MAX`. -/
def CSR_SIZE_MAX : Nat := 0x1000

/-- The fields of `struct vm_area_struct` that the driver reads. -/
structure Vma (w : Nat) where
  vmStart : BitVec w
  vmEnd : BitVec w
  vmPgoff : BitVec w
  start_le : vmStart ≤ vmEnd

/-- A buffer whose length is an `int`. -/
structure SizedBuf where
  buf : DmaBuf
  sized : buf.Sized

/-- The buffers that a path and its device have, and the address of the
registers. -/
structure Mapped (w : Nat) where
  dmaBuf : SizedBuf
  llhostDmaBuf : SizedBuf
  bufferA : SizedBuf
  bufferB : SizedBuf
  csrPa : BitVec w

/-- The arguments of `remap_pfn_range`. -/
structure Remap (w : Nat) where
  addr : BitVec w
  pfn : BitVec 32
  size : BitVec w

def Vma.vsize (vma : Vma w) : BitVec w := vma.vmEnd - vma.vmStart

/-- The second half of `mmap_dmabuf` and of `acq200_mmap_mbox`, with the call
of `remap_pfn_range` that it makes and its return code. -/
def remapWithin (remapPfnRange : Remap w → Int) (vma : Vma w) (pfn : BitVec 32)
    (psize : BitVec w) : Option (Remap w) × Int :=
  if vma.vsize > psize then (none, -EINVAL)
  else
    let call := ⟨vma.vmStart, pfn, vma.vsize⟩
    (some call, if remapPfnRange call ≠ 0 then -EAGAIN else 0)

def mmapDmabuf (remapPfnRange : Remap w → Int) (vma : Vma w) (dmaBuf : DmaBuf) :
    Option (Remap w) × Int :=
  remapWithin remapPfnRange vma (dmaBuf.pa >>> PAGE_SHIFT)
    ((dmaBufLen dmaBuf).signExtend w)

def mmapHost (remapPfnRange : Remap w → Int) (m : Mapped w) (vma : Vma w) :
    Option (Remap w) × Int :=
  mmapDmabuf remapPfnRange vma m.dmaBuf.buf

def mmapLlhost (remapPfnRange : Remap w → Int) (m : Mapped w) (vma : Vma w) :
    Option (Remap w) × Int :=
  mmapDmabuf remapPfnRange vma m.llhostDmaBuf.buf

/-- `device->AB[minor & 1]`. -/
def bufferOfMinor (m : Mapped w) (minor : BitVec 32) : SizedBuf :=
  if minor &&& 1#32 = 0 then m.bufferA else m.bufferB

def mmapAB (remapPfnRange : Remap w → Int) (m : Mapped w) (minor : BitVec 32)
    (vma : Vma w) : Option (Remap w) × Int :=
  mmapDmabuf remapPfnRange vma (bufferOfMinor m minor).buf

/-- The first page frame that `acq200_mmap_mbox` maps. -/
def mboxPfn (m : Mapped w) (vma : Vma w) : BitVec 32 :=
  let off := vma.vmPgoff <<< PAGE_SHIFT
  let pa := m.csrPa + off
  (pa >>> PAGE_SHIFT).setWidth 32

def mmapMbox (remapPfnRange : Remap w → Int) (m : Mapped w) (vma : Vma w) :
    Option (Remap w) × Int :=
  remapWithin remapPfnRange vma (mboxPfn m vma) (BitVec.ofNat w CSR_SIZE_MAX)

/-- The nodes that can be mapped. -/
inductive Node where
  | host
  | llhost
  | bufferAB (minor : BitVec 32)
  | mbox
  deriving DecidableEq

def mmap (remapPfnRange : Remap w → Int) (m : Mapped w) (vma : Vma w) :
    Node → Option (Remap w) × Int
  | .host => mmapHost remapPfnRange m vma
  | .llhost => mmapLlhost remapPfnRange m vma
  | .bufferAB minor => mmapAB remapPfnRange m minor vma
  | .mbox => mmapMbox remapPfnRange m vma

/-! ## The contract -/

/-- The first physical address of a run of page frames. -/
def Remap.base (r : Remap w) : Nat := r.pfn.toNat * PAGE_SIZE

/-- The physical addresses of a buffer, from the first up to the last. -/
def SizedBuf.extent (b : SizedBuf) : Nat × Nat :=
  (b.buf.pa.toNat, b.buf.pa.toNat + (dmaBufLen b.buf).toNat)

/-- The physical addresses of the object that a node stands for.  For the
mailboxes it is the page of the registers. -/
def Mapped.extent (m : Mapped w) : Node → Nat × Nat
  | .host => m.dmaBuf.extent
  | .llhost => m.llhostDmaBuf.extent
  | .bufferAB minor => (bufferOfMinor m minor).extent
  | .mbox =>
    let page := m.csrPa.toNat / PAGE_SIZE * PAGE_SIZE
    (page, page + CSR_SIZE_MAX)

/-- Every physical address that is mapped belongs to the object. -/
def Confined (call : Option (Remap w)) (extent : Nat × Nat) : Prop :=
  ∀ r ∈ call, ∀ a, r.base ≤ a → a < r.base + r.size.toNat →
    extent.1 ≤ a ∧ a < extent.2

def SizedBuf.PageAligned (b : SizedBuf) : Prop := b.buf.pa.toNat % PAGE_SIZE = 0

/-- The buffers start on page boundaries. -/
structure Mapped.PageAligned (m : Mapped w) : Prop where
  dmaBuf : m.dmaBuf.PageAligned
  llhostDmaBuf : m.llhostDmaBuf.PageAligned
  bufferA : m.bufferA.PageAligned
  bufferB : m.bufferB.PageAligned

/-- The requests for the mailboxes that map nothing else.  The others have an
offset that counts, or registers out of the reach of a page frame number. -/
def MboxInPage (m : Mapped w) (vma : Vma w) : Prop :=
  vma.vsize = 0 ∨ CSR_SIZE_MAX < vma.vsize.toNat ∨
    m.csrPa.toNat < 2 ^ 44 ∧ vma.vmPgoff.toNat % 2 ^ min 32 (w - PAGE_SHIFT) = 0

/-! ## DMA buffers -/

theorem remapWithin_some {remapPfnRange : Remap w → Int} {vma : Vma w}
    {pfn : BitVec 32} {psize : BitVec w} {r : Remap w}
    (h : r ∈ (remapWithin remapPfnRange vma pfn psize).1) :
    r.pfn = pfn ∧ r.size = vma.vsize ∧ vma.vsize.toNat ≤ psize.toNat := by
  unfold remapWithin at h
  split at h
  · cases h
  · rename_i hle
    obtain rfl := Option.some.inj h
    refine ⟨rfl, rfl, ?_⟩
    rw [gt_iff_lt, BitVec.lt_def] at hle
    omega

/-- A non-negative `int` as an `unsigned long`. -/
theorem toNat_signExtend_of_lt {x : BitVec 32} (hw : 32 ≤ w) (hx : x.toNat < 2 ^ 31) :
    (x.signExtend w).toNat = x.toNat := by
  have hmsb : x.msb = false := by
    rw [BitVec.msb_eq_false_iff_two_mul_lt]
    omega
  rw [BitVec.signExtend_eq_setWidth_of_msb_false hmsb, BitVec.toNat_setWidth]
  apply Nat.mod_eq_of_lt
  calc x.toNat < 2 ^ 32 := x.isLt
    _ ≤ 2 ^ w := Nat.pow_le_pow_right (by omega) hw

theorem mmapDmabuf_confined {remapPfnRange : Remap w → Int} {vma : Vma w}
    {b : SizedBuf} (hw : 32 ≤ w) (halign : b.PageAligned) :
    Confined (mmapDmabuf remapPfnRange vma b.buf).1 b.extent := by
  intro r hr a hlo hhi
  obtain ⟨hpfn, hsize, hle⟩ := remapWithin_some hr
  rw [toNat_signExtend_of_lt hw (dmaBufLen_lt b.sized)] at hle
  have hbase : r.base = b.buf.pa.toNat := by
    unfold Remap.base
    rw [hpfn, BitVec.toNat_ushiftRight, Nat.shiftRight_eq_div_pow]
    exact Nat.div_mul_cancel (Nat.dvd_of_mod_eq_zero halign)
  rw [hbase] at hlo hhi
  rw [hsize] at hhi
  show b.buf.pa.toNat ≤ a ∧ a < b.buf.pa.toNat + (dmaBufLen b.buf).toNat
  omega

/-! ## The mailboxes -/

/-- The page frame wraps round at what both an `unsigned long` address and an
`unsigned` page frame number can hold. -/
theorem toNat_mboxPfn (hw : 32 ≤ w) (m : Mapped w) (vma : Vma w) :
    (mboxPfn m vma).toNat = (m.csrPa.toNat / PAGE_SIZE + vma.vmPgoff.toNat) %
      2 ^ min 32 (w - PAGE_SHIFT) := by
  have hpow : 2 ^ w = 4096 * 2 ^ (w - 12) := by
    rw [show 4096 = 2 ^ 12 from rfl, ← Nat.pow_add]
    congr 1
    omega
  have hsum : (m.csrPa.toNat + vma.vmPgoff.toNat * 4096 % 2 ^ w) % 2 ^ w / 4096
      = (m.csrPa.toNat / 4096 + vma.vmPgoff.toNat) % 2 ^ (w - 12) := by
    rw [Nat.add_mod_mod, hpow, Nat.mod_mul_right_div_self,
      Nat.add_mul_div_right _ _ (by omega)]
  unfold mboxPfn PAGE_SHIFT PAGE_SIZE
  simp only [BitVec.toNat_setWidth, BitVec.toNat_ushiftRight, BitVec.toNat_add,
    BitVec.toNat_shiftLeft, Nat.shiftLeft_eq, Nat.shiftRight_eq_div_pow]
  rw [show 2 ^ 12 = 4096 from rfl, hsum]
  rcases Nat.le_total 32 (w - 12) with hle | hle
  · rw [Nat.min_eq_left hle]
    exact Nat.mod_mod_of_dvd _ (Nat.pow_dvd_pow 2 hle)
  · rw [Nat.min_eq_right hle]
    apply Nat.mod_eq_of_lt
    calc _ < 2 ^ (w - 12) := Nat.mod_lt _ (Nat.two_pow_pos _)
      _ ≤ 2 ^ 32 := Nat.pow_le_pow_right (by omega) hle

/-- The page frame is the one of the registers exactly when the offset does
not count and the registers are within reach. -/
theorem mboxPfn_eq_iff (hw : 32 ≤ w) (m : Mapped w) (vma : Vma w) :
    (mboxPfn m vma).toNat = m.csrPa.toNat / PAGE_SIZE ↔
      m.csrPa.toNat < 2 ^ 44 ∧
        vma.vmPgoff.toNat % 2 ^ min 32 (w - PAGE_SHIFT) = 0 := by
  have hpage : m.csrPa.toNat / PAGE_SIZE < 2 ^ (w - PAGE_SHIFT) := by
    have hpow : 2 ^ (w - 12) * 4096 = 2 ^ w := by
      rw [show 4096 = 2 ^ 12 from rfl, ← Nat.pow_add]
      congr 1
      omega
    have hlt := m.csrPa.isLt
    show m.csrPa.toNat / 4096 < 2 ^ (w - 12)
    omega
  have hreach : m.csrPa.toNat < 2 ^ 44 ↔ m.csrPa.toNat / PAGE_SIZE < 2 ^ 32 := by
    show _ ↔ m.csrPa.toNat / 4096 < 2 ^ 32
    omega
  rw [toNat_mboxPfn hw, hreach]
  generalize m.csrPa.toNat / PAGE_SIZE = page at hpage ⊢
  generalize hk : min 32 (w - PAGE_SHIFT) = k
  have hboth : page < 2 ^ 32 ↔ page < 2 ^ k := by
    rcases Nat.le_total 32 (w - PAGE_SHIFT) with hle | hle
    · rw [← hk, Nat.min_eq_left hle]
    · rw [← hk, Nat.min_eq_right hle]
      refine ⟨fun _ => hpage, fun _ => ?_⟩
      exact Nat.lt_of_lt_of_le hpage (Nat.pow_le_pow_right (by omega) hle)
  have hpos : 0 < 2 ^ k := Nat.two_pow_pos k
  rw [hboth]
  constructor
  · intro h
    have hlt : page < 2 ^ k := h ▸ Nat.mod_lt _ hpos
    refine ⟨hlt, ?_⟩
    have hmod : (page + vma.vmPgoff.toNat) % 2 ^ k = (page + 0) % 2 ^ k := by
      rw [h, Nat.add_zero, Nat.mod_eq_of_lt hlt]
    have hzero : vma.vmPgoff.toNat ≡ 0 [MOD 2 ^ k] := Nat.ModEq.add_left_cancel' page hmod
    rw [hzero, Nat.zero_mod]
  · rintro ⟨hlt, hoff⟩
    rw [Nat.add_mod, hoff, Nat.add_zero, Nat.mod_mod, Nat.mod_eq_of_lt hlt]

/-- The mapping for the mailboxes is confined exactly for these requests. -/
theorem mmapMbox_confined_iff {remapPfnRange : Remap w → Int} (hw : 32 ≤ w)
    (m : Mapped w) (vma : Vma w) :
    Confined (mmapMbox remapPfnRange m vma).1 (m.extent .mbox) ↔ MboxInPage m vma := by
  have hpsize : (BitVec.ofNat w CSR_SIZE_MAX).toNat = 4096 := by
    rw [BitVec.toNat_ofNat]
    apply Nat.mod_eq_of_lt
    calc CSR_SIZE_MAX < 2 ^ 32 := by
          show 4096 < 2 ^ 32
          omega
      _ ≤ 2 ^ w := Nat.pow_le_pow_right (by omega) hw
  have hzero : vma.vsize = 0 ↔ vma.vsize.toNat = 0 :=
    ⟨fun h => by rw [h]; rfl, fun h => BitVec.eq_of_toNat_eq h⟩
  unfold MboxInPage
  rw [← mboxPfn_eq_iff hw, hzero]
  show _ ↔ _ ∨ 4096 < _ ∨ _ = m.csrPa.toNat / 4096
  constructor
  · intro h
    by_contra hnot
    have hreached : (mmapMbox remapPfnRange m vma).1
        = some ⟨vma.vmStart, mboxPfn m vma, vma.vsize⟩ := by
      unfold mmapMbox remapWithin
      rw [if_neg]
      rw [gt_iff_lt, BitVec.lt_def, hpsize]
      omega
    obtain ⟨hlo, hhi⟩ := h _ hreached ((mboxPfn m vma).toNat * 4096) (Nat.le_refl _) (by
      show (mboxPfn m vma).toNat * 4096 < (mboxPfn m vma).toNat * 4096 + vma.vsize.toNat
      omega)
    change m.csrPa.toNat / 4096 * 4096 ≤ _ at hlo
    change _ < m.csrPa.toNat / 4096 * 4096 + 4096 at hhi
    omega
  · intro h r hr a hlo hhi
    obtain ⟨hpfn, hsize, hle⟩ := remapWithin_some hr
    rw [hpsize] at hle
    rw [hsize] at hhi
    have hbase : r.base = (mboxPfn m vma).toNat * 4096 := by
      unfold Remap.base
      rw [hpfn]
      rfl
    show m.csrPa.toNat / 4096 * 4096 ≤ a ∧ a < m.csrPa.toNat / 4096 * 4096 + 4096
    omega

/-! ## All nodes -/

theorem pageAligned_bufferOfMinor {m : Mapped w} (h : m.PageAligned) (minor : BitVec 32) :
    (bufferOfMinor m minor).PageAligned := by
  unfold bufferOfMinor
  split
  · exact h.bufferA
  · exact h.bufferB

/-- A request maps nothing but the object of its node, except for the
mailboxes, where the offset must not count. -/
theorem mmap_confined_iff {remapPfnRange : Remap w → Int} (hw : 32 ≤ w) {m : Mapped w}
    (halign : m.PageAligned) (vma : Vma w) (node : Node) :
    Confined (mmap remapPfnRange m vma node).1 (m.extent node) ↔
      (node = .mbox → MboxInPage m vma) := by
  cases node with
  | host =>
    apply iff_of_true (mmapDmabuf_confined hw halign.dmaBuf)
    intro h
    cases h
  | llhost =>
    apply iff_of_true (mmapDmabuf_confined hw halign.llhostDmaBuf)
    intro h
    cases h
  | bufferAB minor =>
    apply iff_of_true (mmapDmabuf_confined hw (pageAligned_bufferOfMinor halign minor))
    intro h
    cases h
  | mbox =>
    refine (mmapMbox_confined_iff hw m vma).trans ⟨fun h _ => h, fun h => h rfl⟩

/-- A device with its registers at `0xfebf0080`. -/
def exampleMapped : Mapped 32 :=
  let b : SizedBuf := ⟨⟨2, some 0xc0100000, 0x100000#32⟩, by decide⟩
  ⟨b, b, b, b, 0xfebf0080#32⟩

theorem exampleMapped_aligned : exampleMapped.PageAligned :=
  ⟨rfl, rfl, rfl, rfl⟩

/-- A request for one page at page offset `pgoff`. -/
def onePage (pgoff : BitVec 32) : Vma 32 :=
  ⟨0x40000000#32, 0x40001000#32, pgoff, by decide⟩

theorem mmap_confined_iff_onePage :
    (Confined (mmap (fun _ => 0) exampleMapped (onePage 0#32) .mbox).1
      (exampleMapped.extent .mbox) ↔
        (Node.mbox = .mbox → MboxInPage exampleMapped (onePage 0#32))) ∧
      MboxInPage exampleMapped (onePage 0#32) :=
  ⟨mmap_confined_iff (by decide) exampleMapped_aligned (onePage 0#32) .mbox,
    Or.inr (Or.inr (by decide))⟩

/-- At page offset 1 the page behind the registers is mapped. -/
theorem mbox_maps_next_page :
    ¬Confined (mmap (fun _ => 0) exampleMapped (onePage 1#32) .mbox).1
      (exampleMapped.extent .mbox) := by
  intro h
  have hpage := h _ rfl 0xfebf1000 (by decide) (by decide)
  revert hpage
  decide

end Acq200.Buffers
