import Acq200.Bridge.Basic

/-!
# One buffer per transfer

A transfer names its buffer three times: the user copy goes to the virtual
address of the mapping, the card gets the offset of the mapping in the DMA
buffer, and the synchronisation call gets a physical address.  `OneBuffer`
says that the three are the same bytes.  A write passes the address of the
whole buffer to `dma_sync_single_for_device`, which is the address of the
first mapping only.
-/

namespace Acq200.Bridge

open Acq200.Buffers
open Acq200.Rch

/-- The three ranges of a call are the same bytes of the DMA buffer. -/
def OneBuffer (file : File) (o : Outcome) : Prop :=
  ∀ request va pa count synced, o.request = some request → o.copied = some (va, count) →
    o.synced = some (pa, synced) →
    synced = count ∧ ∃ offset : Nat, va = file.dmaBuf.va.getD 0 + offset ∧
      request.pci.toNat = offset ∧ pa.toNat = file.dmaBuf.pa.toNat + offset

/-! ## The mappings of a pool -/

/-- The mappings are those of `_create_mappings`, and the pool has that many
entries. -/
structure FromPool (file : File) (d : Device) : Prop where
  kbufs : ∀ m < NMAPPINGS, (createKBufs file.dmaBuf)[m]? = some (file.kbuf m)
  entries : d.mappings.maxEntries = NMAPPINGS

/-- The mappings in closed form, with their virtual addresses. -/
theorem createKBufsFrom_get (buf : DmaBuf) (offset : BitVec 32) (n i : Nat) :
    (createKBufsFrom buf offset n)[i]? =
      if i < n then
        some { va := buf.va.getD 0 + (offset + BitVec.ofNat 32 i * mappingLen buf).toNat
               pa := buf.pa + (offset + BitVec.ofNat 32 i * mappingLen buf)
               len := mappingLen buf }
      else none := by
  induction n generalizing offset i with
  | zero => rfl
  | succ n ih =>
    unfold createKBufsFrom
    cases i with
    | zero => simp
    | succ i =>
      rw [List.getElem?_cons_succ, ih, offset_succ]
      simp only [Nat.add_lt_add_iff_right]

/-- The pool mapping `m` is the mapping that `Buffers.Mappings` is about. -/
theorem FromPool.toIoMapping {file : File} {d : Device} (h : FromPool file d) {m : Nat}
    (hm : m < NMAPPINGS) :
    (createMappings file.dmaBuf)[m]? = some (file.kbuf m).toIoMapping := by
  have hkbuf := h.kbufs m hm
  rw [createKBufs, createKBufsFrom_get, if_pos hm] at hkbuf
  rw [createMappings, createMappingsFrom_get, if_pos hm, ← Option.some.inj hkbuf]

theorem FromPool.va {file : File} {d : Device} (h : FromPool file d) {m : Nat}
    (hm : m < NMAPPINGS) :
    (file.kbuf m).va = file.dmaBuf.va.getD 0 +
      (BitVec.ofNat 32 m * mappingLen file.dmaBuf).toNat := by
  have hkbuf := h.kbufs m hm
  rw [createKBufs, createKBufsFrom_get, if_pos hm, BitVec.zero_add] at hkbuf
  rw [← Option.some.inj hkbuf]

section Aligned

variable {file : File} {d : Device} {order va : Nat} {pa : BitVec 32}

/-- In an aligned buffer all three addresses of mapping `m` are `m` lengths
from the start. -/
theorem FromPool.offsets (h : FromPool file d) (hbuf : file.dmaBuf = bufferAt order va pa)
    (horder : order < 19) (halign : pa.toNat % 2 ^ (order + 12) = 0) {m : Nat}
    (hm : m < NMAPPINGS) :
    (file.kbuf m).va = file.dmaBuf.va.getD 0 + m * 2 ^ (order + 10) ∧
      (file.kbuf m).pa.toNat = file.dmaBuf.pa.toNat + m * 2 ^ (order + 10) ∧
      (mkDmabufOffset (file.kbuf m).toIoMapping file.dmaBuf).toNat
        = m * 2 ^ (order + 10) := by
  have hmapping := h.toIoMapping hm
  have hva := h.va hm
  rw [hbuf] at hmapping hva ⊢
  have hunit := toNat_mappingLen va pa horder
  have hoffset := ((tiled_bufferAt horder halign).offset m _ hmapping).1
  rw [hunit] at hoffset
  refine ⟨?_, (createMappings_get horder halign hmapping).2.1, hoffset⟩
  have hlt : m * 2 ^ (order + 10) < 2 ^ 32 := by
    rw [← hoffset]
    exact BitVec.isLt _
  have hm32 : m % 2 ^ 32 = m := Nat.mod_eq_of_lt (Nat.lt_trans hm (by decide))
  rw [hva, BitVec.toNat_mul, hunit, BitVec.toNat_ofNat, hm32, Nat.mod_eq_of_lt hlt]

/-- A read with a pool mapping names one buffer. -/
theorem read_oneBuffer (h : FromPool file d) (hbuf : file.dmaBuf = bufferAt order va pa)
    (horder : order < 19) (halign : pa.toNat % 2 ^ (order + 12) = 0) (hrdCode : BitVec 16)
    (count : Nat) (posp : BitVec 64) (env : Env) :
    OneBuffer file (bridgeReadGeneric file hrdCode d count posp none env) := by
  intro request va' pa' bytes synced hrequest hcopied hsynced
  cases he : allocAlone d.handlers with
  | none =>
    rw [read_no_handler _ _ _ _ _ he] at hcopied
    cases hcopied
  | some e =>
    cases hm : allocAlone d.mappings with
    | none =>
      rw [read_no_mapping _ _ _ _ he hm, recycleUnbuilt] at hcopied
      split at hcopied <;> cases hcopied
    | some m =>
      rw [read_pool _ _ _ _ he hm] at hrequest hcopied hsynced
      obtain ⟨hva, hsync, hreq⟩ := readInto_ranges hcopied
      rw [hsync] at hsynced
      rw [hreq] at hrequest
      cases hsynced
      cases hrequest
      have hlt : m < NMAPPINGS := by
        rw [← h.entries]
        exact (allocAlone_found hm).2
      obtain ⟨hva', hpa, hpci⟩ := h.offsets hbuf horder halign hlt
      exact ⟨rfl, m * 2 ^ (order + 10), hva.trans hva', hpci, hpa⟩

/-- The mapping that a write transfers from. -/
def WritesFrom (file : File) (d : Device) (count m : Nat) : Prop :=
  (allocAlone d.handlers).isSome = true ∧ allocAlone d.mappings = some m ∧
    (file.kbuf m).clip count ≠ 0

/-- A write names one buffer exactly when it transfers from the first
mapping, or not at all. -/
theorem write_oneBuffer_iff (h : FromPool file d)
    (hbuf : file.dmaBuf = bufferAt order va pa) (horder : order < 19)
    (halign : pa.toNat % 2 ^ (order + 12) = 0) (hrdCode : BitVec 16) (count : Nat)
    (posp : BitVec 64) (env : Env) :
    OneBuffer file (bridgeWriteGeneric file hrdCode d count posp env) ↔
      ∀ m, WritesFrom file d count m → m = 0 := by
  constructor
  · rintro hone m ⟨he, hm, hn⟩
    obtain ⟨e, he⟩ := Option.isSome_iff_exists.mp he
    obtain ⟨hrequest, hcopied, hsynced⟩ := write_ranges hrdCode count posp env he hm hn
    obtain ⟨-, offset, -, hpci, hpa⟩ := hone _ _ _ _ _ hrequest hcopied hsynced
    have hlt : m < NMAPPINGS := by
      rw [← h.entries]
      exact (allocAlone_found hm).2
    -- The synchronised range starts at offset 0, the card's at the mapping.
    have hzero : m * 2 ^ (order + 10) = 0 := by
      rw [← (h.offsets hbuf horder halign hlt).2.2]
      have hpci' : (mkDmabufOffset (file.kbuf m).toIoMapping file.dmaBuf).toNat = offset :=
        hpci
      omega
    rcases Nat.mul_eq_zero.mp hzero with hm0 | hpow
    · exact hm0
    · exact absurd hpow (Nat.two_pow_pos _).ne'
  · intro hfirst request va' pa' bytes synced hrequest hcopied hsynced
    cases he : allocAlone d.handlers with
    | none =>
      rw [write_no_handler _ _ _ _ he] at hcopied
      cases hcopied
    | some e =>
      cases hm : allocAlone d.mappings with
      | none =>
        rw [write_no_mapping _ _ _ _ he hm, recycleUnbuilt] at hcopied
        split at hcopied <;> cases hcopied
      | some m =>
        by_cases hn : (file.kbuf m).clip count = 0
        · rw [write_no_bytes _ _ _ _ he hm hn] at hcopied
          cases hcopied
        · obtain rfl := hfirst m ⟨by rw [he]; rfl, hm, hn⟩
          obtain ⟨hreq, hcopy, hsync⟩ := write_ranges hrdCode count posp env he hm hn
          rw [hreq] at hrequest
          rw [hcopy] at hcopied
          rw [hsync] at hsynced
          cases hrequest
          cases hcopied
          cases hsynced
          obtain ⟨hva, -, hpci⟩ := h.offsets hbuf horder halign (m := 0) (by decide)
          refine ⟨rfl, 0, ?_, ?_, rfl⟩
          · rw [hva, Nat.zero_mul]
          · exact hpci.trans (Nat.zero_mul _)

/-- Reads from the pool always name one buffer, and writes exactly when they
transfer from the first mapping. -/
theorem one_buffer_iff (h : FromPool file d) (hbuf : file.dmaBuf = bufferAt order va pa)
    (horder : order < 19) (halign : pa.toNat % 2 ^ (order + 12) = 0) (hrdCode : BitVec 16)
    (count : Nat) (posp : BitVec 64) (env : Env) :
    OneBuffer file (bridgeReadGeneric file hrdCode d count posp none env) ∧
      (OneBuffer file (bridgeWriteGeneric file hrdCode d count posp env) ↔
        ∀ m, WritesFrom file d count m → m = 0) :=
  ⟨read_oneBuffer h hbuf horder halign hrdCode count posp env,
    write_oneBuffer_iff h hbuf horder halign hrdCode count posp env⟩

end Aligned

/-- A file on a device with a buffer of four pages. -/
def fourPages : File where
  path := 0
  chan := 1#16
  dmaBuf := bufferAt 2 0xc0100000 0x100000#32
  kbuf := fun m => ((createKBufs (bufferAt 2 0xc0100000 0x100000#32))[m]?).getD
    { pa := 0#32, len := 0#32, va := 0 }
  len_lt := by
    intro m
    rw [createKBufs, createKBufsFrom_get]
    have hlen : (mappingLen (bufferAt 2 0xc0100000 0x100000#32)).toNat < 2 ^ 31 := by decide
    split
    · exact hlen
    · decide

/-- A new pool gives out its entries from the second one on. -/
theorem fourPages_fromPool : FromPool fourPages (poolCreate 0#16) where
  kbufs := by
    intro m hm
    have hall : ∀ m < NMAPPINGS, ((createKBufs fourPages.dmaBuf)[m]?).isSome = true := by
      decide
    obtain ⟨kbuf, hkbuf⟩ := Option.isSome_iff_exists.mp (hall m hm)
    rw [hkbuf]
    have : fourPages.kbuf m = ((createKBufs fourPages.dmaBuf)[m]?).getD
        { pa := 0#32, len := 0#32, va := 0 } := rfl
    rw [this, hkbuf]
    rfl
  entries := rfl

/-- A read on a new device names one buffer. -/
theorem first_read_oneBuffer :
    OneBuffer fourPages (bridgeReadGeneric fourPages HRD_CHAN_IS_FILE (poolCreate 0#16) 100 0
      none ⟨true, some (0, 50)⟩) :=
  (one_buffer_iff fourPages_fromPool rfl (by decide) (by decide) HRD_CHAN_IS_FILE 100 0
    ⟨true, some (0, 50)⟩).1

/-- The first write on a new device gets the second mapping, and
synchronises the first. -/
theorem first_write_syncs_wrong_mapping :
    ¬ OneBuffer fourPages (bridgeWriteGeneric fourPages HRD_CHAN_IS_FILE (poolCreate 0#16) 100 0
      ⟨true, none⟩) := by
  intro h
  obtain ⟨-, offset, -, hpci, hpa⟩ := h _ _ _ _ _ rfl rfl rfl
  have hpci' : offset = 4096 := hpci.symm.trans (by decide)
  have hpa' : (0x100000#32).toNat = (0x100000#32).toNat + offset := hpa
  omega

end Acq200.Bridge
