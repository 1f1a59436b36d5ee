import Acq200.Buffers.DmaBuf
import Acq200.Lib.Run
import Acq200.Rch.Device

/-!
# The mappings of the pool

`_create_mappings` cuts the communications buffer into `NMAPPINGS` mappings of
one length, and the last one holds the message frames.  A message names a
mapping by its offset in the buffer, which `MK_DMABUF_OFFSET` gets by masking
the physical address of the mapping with the length of the buffer.

The first half of this module is the arithmetic of the mappings.  The second
half is the allocation of mappings by any number of clients, whose scans of
the pool sleep and wake in any order.  `mappings_apart` has both.  A buffer of
order 19 would have a length of `2 ^ 31`, which is no `int`, and
`order_19_too_long` shows what becomes of its mappings.
-/

namespace Acq200.Buffers

open Acq200.Lib
open Acq200.Rch (Pool NMAPPINGS MSG_MAPPING)

/-! ## Cutting up the buffer -/

/-- `struct IoMapping`.  Its `pa` is an `unsigned long`, but the sum that goes
into it is an `unsigned`. -/
structure IoMapping where
  pa : BitVec 32
  len : BitVec 32
  deriving DecidableEq

/-- The length of a mapping, by a division of `int`s. -/
def mappingLen (buf : DmaBuf) : BitVec 32 :=
  (dmaBufLen buf).sdiv (BitVec.ofNat 32 NMAPPINGS)

/-- The loop of `_create_mappings`, with the `offset` that it has got to. -/
def createMappingsFrom (buf : DmaBuf) (offset : BitVec 32) : Nat → List IoMapping
  | 0 => []
  | n + 1 =>
    ⟨buf.pa + offset, mappingLen buf⟩
      :: createMappingsFrom buf (offset + mappingLen buf) n

def createMappings (buf : DmaBuf) : List IoMapping :=
  createMappingsFrom buf 0#32 NMAPPINGS

/-- `MK_DMABUF_OFFSET`. -/
def mkDmabufOffset (mapping : IoMapping) (buf : DmaBuf) : BitVec 32 :=
  mapping.pa &&& (dmaBufLen buf - 1#32)

/-- The physical addresses of a mapping. -/
def IoMapping.Has (mapping : IoMapping) (a : Nat) : Prop :=
  mapping.pa.toNat ≤ a ∧ a < mapping.pa.toNat + mapping.len.toNat

/-- The mappings tile the buffer, and their offsets are the multiples of their
length. -/
structure Tiled (buf : DmaBuf) : Prop where
  length : (createMappings buf).length = NMAPPINGS
  /-- Every address of the buffer is in exactly one mapping, and no other
  address is in any. -/
  cover : ∀ a, buf.pa.toNat ≤ a ∧ a < buf.pa.toNat + (dmaBufLen buf).toNat ↔
    ∃ i : Nat, ∃ mapping ∈ (createMappings buf)[i]?, mapping.Has a
  disjoint : ∀ i j : Nat, i ≠ j → ∀ mi ∈ (createMappings buf)[i]?,
    ∀ mj ∈ (createMappings buf)[j]?, ∀ a, mi.Has a → ¬mj.Has a
  offset : ∀ i : Nat, ∀ mapping ∈ (createMappings buf)[i]?,
    (mkDmabufOffset mapping buf).toNat = i * (mappingLen buf).toNat ∧
      buf.pa + mkDmabufOffset mapping buf = mapping.pa

/-- One round of the loop moves the offset by one length. -/
theorem offset_succ (buf : DmaBuf) (offset : BitVec 32) (i : Nat) :
    offset + mappingLen buf + BitVec.ofNat 32 i * mappingLen buf
      = offset + BitVec.ofNat 32 (i + 1) * mappingLen buf := by
  rw [BitVec.ofNat_add, BitVec.add_mul, BitVec.one_mul, BitVec.add_assoc,
    BitVec.add_comm (mappingLen buf)]

/-- The mappings in closed form. -/
theorem createMappingsFrom_get (buf : DmaBuf) (offset : BitVec 32) (n i : Nat) :
    (createMappingsFrom buf offset n)[i]? =
      if i < n then some ⟨buf.pa + (offset + BitVec.ofNat 32 i * mappingLen buf),
        mappingLen buf⟩
      else none := by
  induction n generalizing offset i with
  | zero => rfl
  | succ n ih =>
    unfold createMappingsFrom
    cases i with
    | zero => simp
    | succ i =>
      rw [List.getElem?_cons_succ, ih, offset_succ]
      simp only [Nat.add_lt_add_iff_right]

section Sized

variable {order va : Nat} {pa : BitVec 32}

/-- The buffer of this order at this address. -/
def bufferAt (order va : Nat) (pa : BitVec 32) : DmaBuf := ⟨order, some va, pa⟩

theorem toNat_bufferAt_len (va : Nat) (pa : BitVec 32) (horder : order < 19) :
    (dmaBufLen (bufferAt order va pa)).toNat = 2 ^ (order + 12) := by
  rw [toNat_dmaBufLen rfl horder]
  exact (Nat.pow_add 2 order 12).symm

theorem toNat_mappingLen (va : Nat) (pa : BitVec 32) (horder : order < 19) :
    (mappingLen (bufferAt order va pa)).toNat = 2 ^ (order + 10) := by
  have hlen := toNat_bufferAt_len va pa horder
  have hsized : (bufferAt order va pa).Sized := fun _ => horder
  have hlt := dmaBufLen_lt hsized
  have hmsb : (dmaBufLen (bufferAt order va pa)).msb = false := by
    rw [BitVec.msb_eq_false_iff_two_mul_lt]
    omega
  have hpow : 2 ^ (order + 12) = 2 ^ (order + 10) * 4 := Nat.pow_add 2 (order + 10) 2
  unfold mappingLen
  rw [BitVec.sdiv_eq, hmsb]
  show ((dmaBufLen (bufferAt order va pa)).udiv 4#32).toNat = _
  rw [BitVec.udiv_eq, BitVec.toNat_udiv, hlen, hpow]
  exact Nat.mul_div_cancel _ (by omega)

/-- A buffer that is aligned to its length ends where the addresses end, or
before. -/
theorem bufferAt_end_le (horder : order < 19) (halign : pa.toNat % 2 ^ (order + 12) = 0) :
    pa.toNat + 2 ^ (order + 12) ≤ 2 ^ 32 := by
  obtain ⟨c, hc⟩ := Nat.dvd_of_mod_eq_zero halign
  have hpow : 2 ^ 32 = 2 ^ (order + 12) * 2 ^ (20 - order) := by
    rw [← Nat.pow_add]
    congr 1
    omega
  have hlt : 2 ^ (order + 12) * c < 2 ^ (order + 12) * 2 ^ (20 - order) := by
    rw [← hc, ← hpow]
    exact pa.isLt
  have hc' : c + 1 ≤ 2 ^ (20 - order) := Nat.lt_of_mul_lt_mul_left hlt
  calc pa.toNat + 2 ^ (order + 12) = 2 ^ (order + 12) * (c + 1) := by
        rw [hc, Nat.mul_add, Nat.mul_one]
    _ ≤ 2 ^ 32 := by
        rw [hpow]
        exact Nat.mul_le_mul_left _ hc'

/-- The mapping number `i`, as numbers. -/
theorem createMappings_get {i : Nat} {mapping : IoMapping} (horder : order < 19)
    (halign : pa.toNat % 2 ^ (order + 12) = 0)
    (h : mapping ∈ (createMappings (bufferAt order va pa))[i]?) :
    i < 4 ∧ mapping.pa.toNat = pa.toNat + i * 2 ^ (order + 10) ∧
      mapping.len.toNat = 2 ^ (order + 10) := by
  have hunit := toNat_mappingLen va pa horder
  have hend := bufferAt_end_le horder halign
  have hpow : 2 ^ (order + 12) = 2 ^ (order + 10) * 4 := Nat.pow_add 2 (order + 10) 2
  unfold createMappings at h
  rw [createMappingsFrom_get] at h
  split at h
  · rename_i hi
    obtain rfl := Option.some.inj h
    refine ⟨hi, ?_, hunit⟩
    have hi4 : i < 4 := hi
    have hmul : i * 2 ^ (order + 10) < 2 ^ (order + 12) := by
      rw [hpow, Nat.mul_comm]
      exact Nat.mul_lt_mul_of_pos_left hi4 (Nat.two_pow_pos _)
    show (pa + (0#32 + BitVec.ofNat 32 i * mappingLen (bufferAt order va pa))).toNat = _
    rw [BitVec.zero_add, BitVec.toNat_add, BitVec.toNat_mul, BitVec.toNat_ofNat, hunit,
      Nat.mod_eq_of_lt (show i < 2 ^ 32 by omega), Nat.mod_eq_of_lt (by omega),
      Nat.mod_eq_of_lt (by omega)]
  · cases h

theorem exists_mapping (buf : DmaBuf) {i : Nat} (h : i < NMAPPINGS) :
    ∃ mapping, mapping ∈ (createMappings buf)[i]? := by
  refine ⟨⟨buf.pa + (0#32 + BitVec.ofNat 32 i * mappingLen buf), mappingLen buf⟩, ?_⟩
  unfold createMappings
  rw [createMappingsFrom_get, if_pos h]
  rfl

theorem tiled_bufferAt (horder : order < 19)
    (halign : pa.toNat % 2 ^ (order + 12) = 0) : Tiled (bufferAt order va pa) := by
  have hlen := toNat_bufferAt_len va pa horder
  have hunit := toNat_mappingLen va pa horder
  have hend := bufferAt_end_le horder halign
  have hpow : 2 ^ (order + 12) = 2 ^ (order + 10) * 4 := Nat.pow_add 2 (order + 10) 2
  have hpos : 0 < 2 ^ (order + 10) := Nat.two_pow_pos _
  refine ⟨rfl, ?_, ?_, ?_⟩
  · intro a
    rw [hlen]
    show pa.toNat ≤ a ∧ a < pa.toNat + 2 ^ (order + 12) ↔ _
    constructor
    · rintro ⟨hlo, hhi⟩
      have hi : (a - pa.toNat) / 2 ^ (order + 10) < 4 := by
        rw [Nat.div_lt_iff_lt_mul hpos]
        omega
      obtain ⟨mapping, hm⟩ := exists_mapping (bufferAt order va pa) hi
      obtain ⟨_, hpa, hmlen⟩ := createMappings_get horder halign hm
      refine ⟨_, mapping, hm, ?_⟩
      have hdiv := Nat.div_add_mod (a - pa.toNat) (2 ^ (order + 10))
      have hmod := Nat.mod_lt (a - pa.toNat) hpos
      unfold IoMapping.Has
      rw [hpa, hmlen, Nat.mul_comm]
      omega
    · rintro ⟨i, mapping, hm, hlo, hhi⟩
      obtain ⟨hi, hpa, hmlen⟩ := createMappings_get horder halign hm
      have hmul : i * 2 ^ (order + 10) ≤ 3 * 2 ^ (order + 10) :=
        Nat.mul_le_mul_right _ (by omega)
      omega
  · intro i j hij mi hi mj hj a ha hb
    obtain ⟨_, hpi, hli⟩ := createMappings_get horder halign hi
    obtain ⟨_, hpj, hlj⟩ := createMappings_get horder halign hj
    obtain ⟨halo, hahi⟩ := ha
    obtain ⟨hblo, hbhi⟩ := hb
    rcases Nat.lt_or_gt_of_ne hij with hlt | hgt
    · have hmul : (i + 1) * 2 ^ (order + 10) ≤ j * 2 ^ (order + 10) :=
        Nat.mul_le_mul_right _ hlt
      rw [Nat.add_mul, Nat.one_mul] at hmul
      omega
    · have hmul : (j + 1) * 2 ^ (order + 10) ≤ i * 2 ^ (order + 10) :=
        Nat.mul_le_mul_right _ hgt
      rw [Nat.add_mul, Nat.one_mul] at hmul
      omega
  · intro i mapping hm
    obtain ⟨hi, hpa, _⟩ := createMappings_get horder halign hm
    have hmul : i * 2 ^ (order + 10) < 2 ^ (order + 12) := by
      rw [hpow, Nat.mul_comm]
      exact Nat.mul_lt_mul_of_pos_left hi hpos
    have hmask : (dmaBufLen (bufferAt order va pa) - 1#32).toNat = 2 ^ (order + 12) - 1 := by
      have hone : 1#32 ≤ dmaBufLen (bufferAt order va pa) := by
        rw [BitVec.le_def, hlen]
        show 1 ≤ 2 ^ (order + 12)
        omega
      rw [BitVec.toNat_sub_of_le hone, hlen]
      rfl
    have hoffset : (mkDmabufOffset mapping (bufferAt order va pa)).toNat
        = i * 2 ^ (order + 10) := by
      unfold mkDmabufOffset
      rw [BitVec.toNat_and, hmask, Nat.and_two_pow_sub_one_eq_mod, hpa, Nat.add_mod,
        halign, Nat.zero_add, Nat.mod_mod, Nat.mod_eq_of_lt hmul]
    refine ⟨by rw [hoffset, hunit], ?_⟩
    apply BitVec.eq_of_toNat_eq
    rw [BitVec.toNat_add, hoffset, hpa]
    apply Nat.mod_eq_of_lt
    show pa.toNat + i * 2 ^ (order + 10) < 2 ^ 32
    omega

end Sized

/-! ## Holders -/

/-- The mapping pool and the clients that allocate from it. -/
structure Holders where
  mappings : Pool
  /-- The entry at which the scan of a client sleeps. -/
  asleep : Nat → Option Nat
  /-- The mappings that `acq200_pool_alloc_mapping` has returned. -/
  returned : List Nat
  /-- The clients that hold a mapping. -/
  held : List (Nat × Nat)

inductive HolderEvent where
  /-- A stretch of `acq200_pool_alloc_mapping`. -/
  | alloc (client : Nat)
  /-- The sleep of the scan times out. -/
  | giveUp (client : Nat)
  /-- `acq200_pool_free_mapping` of a mapping that was returned to anybody. -/
  | free (client mapping : Nat)
  deriving DecidableEq

def holderStep (event : HolderEvent) (h : Holders) : Option Holders :=
  match event with
  | .alloc c =>
    match h.mappings.stretch (h.asleep c) with
    | none => none
    | some (.sleep ibuf) =>
      some { h with asleep := Function.update h.asleep c (some ibuf) }
    | some (.found m) =>
      some
        { mappings := h.mappings.take m
          asleep := Function.update h.asleep c none
          returned := h.returned ++ [m]
          held := h.held ++ [(c, m)] }
  | .giveUp c =>
    if (h.asleep c).isSome then
      some { h with asleep := Function.update h.asleep c none }
    else none
  | .free c m =>
    if m ∈ h.returned then
      some { h with mappings := h.mappings.free m, held := h.held.erase (c, m) }
    else none

/-- The mapping pool after `acq200_pool_create`. -/
def noHolders : Holders :=
  { mappings := (Rch.poolCreate 0#16).mappings
    asleep := fun _ => none
    returned := []
    held := [] }

/-- A mapping is freed only by a client that holds it. -/
def FreedByHolder : HolderEvent → Holders → Prop
  | .free c m, h => (c, m) ∈ h.held
  | _, _ => True

instance : ∀ (event : HolderEvent) (h : Holders), Decidable (FreedByHolder event h)
  | .free c m, h => inferInstanceAs (Decidable ((c, m) ∈ h.held))
  | .alloc _, _ | .giveUp _, _ => inferInstanceAs (Decidable True)

/-- The messages' mapping is reserved and has never been returned. -/
def MsgKept (h : Holders) : Prop :=
  h.mappings.reserved MSG_MAPPING = true ∧ MSG_MAPPING ∉ h.returned

/-- No two holders share a mapping, and what is held is reserved. -/
def HeldApart (h : Holders) : Prop :=
  (h.held.map Prod.snd).Nodup ∧ ∀ p ∈ h.held, h.mappings.reserved p.2 = true

/-- What a stretch that finds a mapping does. -/
theorem holderStep_alloc {c : Nat} {h h' : Holders}
    (hs : holderStep (.alloc c) h = some h') :
    h'.mappings = h.mappings ∧ h'.returned = h.returned ∧ h'.held = h.held ∨
      ∃ m, h.mappings.reserved m = false ∧ h'.mappings = h.mappings.take m ∧
        h'.returned = h.returned ++ [m] ∧ h'.held = h.held ++ [(c, m)] := by
  unfold holderStep at hs
  simp only at hs
  split at hs
  · cases hs
  · obtain rfl := Option.some.inj hs
    exact Or.inl ⟨rfl, rfl, rfl⟩
  · rename_i m hfound
    obtain rfl := Option.some.inj hs
    exact Or.inr ⟨m, (Pool.stretch_found hfound).1, rfl, rfl, rfl⟩

theorem msgKept_step (event : HolderEvent) (h h' : Holders) (hinv : MsgKept h)
    (hs : holderStep event h = some h') : MsgKept h' := by
  obtain ⟨hres, hnot⟩ := hinv
  cases event with
  | alloc c =>
    rcases holderStep_alloc hs with ⟨hm, hr, _⟩ | ⟨m, hfree, hm, hr, _⟩
    · unfold MsgKept
      rw [hm, hr]
      exact ⟨hres, hnot⟩
    · have hne : MSG_MAPPING ≠ m := by
        rintro rfl
        rw [hres] at hfree
        cases hfree
      unfold MsgKept
      rw [hm, hr, Pool.take_reserved, Function.update_of_ne hne]
      refine ⟨hres, fun hmem => ?_⟩
      rcases List.mem_append.mp hmem with hold | hnew
      · exact hnot hold
      · exact hne (List.mem_singleton.mp hnew)
  | giveUp c =>
    unfold holderStep at hs
    simp only at hs
    split at hs
    · obtain rfl := Option.some.inj hs
      exact ⟨hres, hnot⟩
    · cases hs
  | free c m =>
    unfold holderStep at hs
    simp only at hs
    split at hs
    · rename_i hm
      obtain rfl := Option.some.inj hs
      refine ⟨?_, hnot⟩
      have hne : MSG_MAPPING ≠ m := fun heq => hnot (heq ▸ hm)
      show (h.mappings.free m).reserved MSG_MAPPING = true
      rw [Pool.free_reserved_of_ne _ hne]
      exact hres
    · cases hs

theorem heldApart_step (event : HolderEvent) (h h' : Holders) (hinv : HeldApart h)
    (hok : FreedByHolder event h) (hs : holderStep event h = some h') : HeldApart h' := by
  obtain ⟨hnodup, hres⟩ := hinv
  cases event with
  | alloc c =>
    rcases holderStep_alloc hs with ⟨hm, _, hh⟩ | ⟨m, hfree, hm, _, hh⟩
    · unfold HeldApart
      rw [hm, hh]
      exact ⟨hnodup, hres⟩
    · have hne : ∀ p ∈ h.held, p.2 ≠ m := by
        rintro p hp rfl
        rw [hres p hp] at hfree
        cases hfree
      unfold HeldApart
      rw [hm, hh, Pool.take_reserved]
      refine ⟨?_, ?_⟩
      · rw [List.map_append, List.nodup_append]
        refine ⟨hnodup, List.nodup_singleton m, ?_⟩
        intro a ha b hb
        obtain ⟨p, hp, rfl⟩ := List.mem_map.mp ha
        rw [List.mem_singleton.mp hb]
        exact hne p hp
      · intro p hp
        rcases List.mem_append.mp hp with hold | hnew
        · rw [Function.update_of_ne (hne p hold)]
          exact hres p hold
        · rw [List.mem_singleton.mp hnew]
          exact Function.update_self m true h.mappings.reserved
  | giveUp c =>
    unfold holderStep at hs
    simp only at hs
    split at hs
    · obtain rfl := Option.some.inj hs
      exact ⟨hnodup, hres⟩
    · cases hs
  | free c m =>
    unfold holderStep at hs
    simp only at hs
    split at hs
    · obtain rfl := Option.some.inj hs
      refine ⟨?_, ?_⟩
      · exact hnodup.sublist (List.erase_sublist.map Prod.snd)
      · intro p hp
        have hheld : p ∈ h.held := List.mem_of_mem_erase hp
        have hne : p.2 ≠ m := by
          intro heq
          have hsame := List.inj_on_of_nodup_map hnodup hheld hok heq
          rw [hsame] at hp
          exact (List.Nodup.mem_erase_iff (List.Nodup.of_map _ hnodup)).mp hp |>.1 rfl
        show (h.mappings.free m).reserved p.2 = true
        rw [Pool.free_reserved_of_ne _ hne]
        exact hres p hheld
    · cases hs

/-- The mappings of a buffer tile it and are named by their offsets, the
mapping of the messages is never handed out, and as long as only its holder
frees a mapping no two clients hold the same one. -/
theorem mappings_apart {order va : Nat} {pa : BitVec 32} (horder : order < 19)
    (halign : pa.toNat % 2 ^ (order + 12) = 0) :
    Tiled (bufferAt order va pa) ∧
      (∀ events h, runFrom holderStep events noHolders = some h →
        MSG_MAPPING ∉ h.returned) ∧
      ∀ events h, RunMeets holderStep FreedByHolder events noHolders →
        runFrom holderStep events noHolders = some h → (h.held.map Prod.snd).Nodup := by
  have hmsg : MsgKept noHolders := ⟨rfl, List.not_mem_nil⟩
  have happart : HeldApart noHolders := ⟨List.nodup_nil, fun p hp => by cases hp⟩
  refine ⟨tiled_bufferAt horder halign, ?_, ?_⟩
  · intro events h hrun
    exact (runFrom_inv₂ msgKept_step hmsg hrun).2
  · intro events h hok hrun
    exact (runFrom_inv heldApart_step happart hok hrun).1

theorem mappings_apart_order0 :
    Tiled (bufferAt 0 0xc0100000 0x100000#32) ∧
      ∀ events h, runFrom holderStep events noHolders = some h →
        MSG_MAPPING ∉ h.returned :=
  have h := @mappings_apart 0 0xc0100000 0x100000#32 (by decide) (by decide)
  ⟨h.1, h.2.1⟩

/-- A buffer of order 19 has a negative length, and so have its mappings. -/
theorem order_19_too_long :
    (0#32).toNat % 2 ^ (19 + 12) = 0 ∧
      (mappingLen (bufferAt 19 0xc0000000 0#32)).toInt < 0 ∧
      ¬Tiled (bufferAt 19 0xc0000000 0#32) := by
  refine ⟨by decide, by decide, fun h => ?_⟩
  have hoffset := (h.offset 1 _ rfl).1
  revert hoffset
  decide

end Acq200.Buffers
