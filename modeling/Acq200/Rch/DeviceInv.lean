import Acq200.Rch.Device

/-!
# What the handlers of a device keep to

Nobody in the source says who may recycle a handler.  The rule that the
driver lives by is this.  A reserved handler belongs to one allocation, it
is not on the list before `rchAppend`, and it is on the list with its path
set until it is recycled.  `DevInv` states the rule and the lemmas of this
module say what each operation on handlers does to it.

Only one handler changes in each operation, which `KeepsOthers` records.
`recycled` and `dispatch_cases` are the two places where the bodies of
`i2o_recycleRch` and `acq200_processCommandMessageReturn` are looked into.
-/

namespace Acq200.Rch

namespace Device

variable {d d' : Device} {e other client : Nat} {t caller : Tag}

/-! ## The device -/

structure DevInv (d : Device) : Prop where
  reserved_iff : ∀ e, d.handlers.reserved e = true ↔ (d.owner e).isSome = true
  owner_lt : ∀ e t, d.owner e = some t →
    e < d.handlers.maxEntries ∧ t.seq < d.allocs
  owner_inj : ∀ e other t, d.owner e = some t → d.owner other = some t → e = other
  list_nodup : d.list.Nodup
  listed : ∀ e ∈ d.list, d.owner e = some (d.rch e).request ∧
    (d.rch e).path = some (d.rch e).request.client
  free_path : ∀ e, d.owner e = none → (d.rch e).path = none
  valid_le : ∀ e, (d.rch e).rchReturn.valid ≤ 1

/-- The handler is allocated and not built. -/
def Unbuilt (d : Device) (e : Nat) (t : Tag) : Prop :=
  d.owner e = some t ∧ e ∉ d.list ∧ (d.rch e).path = none

/-- The handler is built and not linked. -/
def Built (d : Device) (e : Nat) (t : Tag) (handler : Handler) : Prop :=
  d.owner e = some t ∧ e ∉ d.list ∧ (d.rch e).path = some t.client ∧
    (d.rch e).request = t ∧ (d.rch e).handler = some handler

/-- The handler is linked, and a reply is handed to `handler`. -/
def Live (d : Device) (e : Nat) (t : Tag) (handler : Handler) : Prop :=
  d.owner e = some t ∧ e ∈ d.list ∧ (d.rch e).path = some t.client ∧
    (d.rch e).request = t ∧ (d.rch e).handler = some handler

/-- Everything but entry `e` is as before. -/
def KeepsOthers (d d' : Device) (e : Nat) : Prop :=
  ∀ other, other ≠ e → d'.rch other = d.rch other ∧
    d'.owner other = d.owner other ∧ (other ∈ d'.list ↔ other ∈ d.list)

theorem Unbuilt.of_keeps {handler : Nat} (h : Unbuilt d e t)
    (hk : KeepsOthers d d' handler) (hne : e ≠ handler) : Unbuilt d' e t := by
  obtain ⟨hrch, howner, hlist⟩ := hk e hne
  exact ⟨howner.trans h.1, fun hm => h.2.1 (hlist.mp hm), hrch ▸ h.2.2⟩

theorem Built.of_keeps {handler : Handler} (h : Built d e t handler)
    (hk : KeepsOthers d d' other) (hne : e ≠ other) : Built d' e t handler := by
  obtain ⟨hrch, howner, hlist⟩ := hk e hne
  refine ⟨howner.trans h.1, fun hm => h.2.1 (hlist.mp hm), ?_⟩
  rw [hrch]
  exact h.2.2

theorem Live.of_keeps {handler : Handler} (h : Live d e t handler)
    (hk : KeepsOthers d d' other) (hne : e ≠ other) : Live d' e t handler := by
  obtain ⟨hrch, howner, hlist⟩ := hk e hne
  refine ⟨howner.trans h.1, hlist.mpr h.2.1, ?_⟩
  rw [hrch]
  exact h.2.2

theorem devInv_poolCreate (lastId : BitVec 16) : DevInv (poolCreate lastId) where
  reserved_iff := fun _ => ⟨(fun h => by cases h), (fun h => by cases h)⟩
  owner_lt := fun _ _ h => by cases h
  owner_inj := fun _ _ _ h => by cases h
  list_nodup := List.nodup_nil
  listed := fun _ h => by cases h
  free_path := fun _ _ => rfl
  valid_le := fun _ => Int.zero_le_ofNat 1

theorem DevInv.owner_none (h : DevInv d) (he : d.handlers.reserved e = false) :
    d.owner e = none := by
  cases ho : d.owner e with
  | none => rfl
  | some t =>
    have hres := (h.reserved_iff e).mpr (by rw [ho]; rfl)
    rw [he] at hres
    cases hres

/-- An entry that nobody owns is not linked. -/
theorem DevInv.not_mem (h : DevInv d) (ho : d.owner e = none) : e ∉ d.list := by
  intro hm
  have howner := (h.listed e hm).1
  rw [ho] at howner
  cases howner

/-! ## What each operation does -/

/-- An allocation. -/
theorem DevInv.alloc (h : DevInv d) (hfree : d.handlers.reserved e = false)
    (hlt : e < d.handlers.maxEntries) (client : Nat) :
    DevInv (d.poolAllocRch e client) := by
  have hnone := h.owner_none hfree
  have hupd : ∀ other, other ≠ e →
      (d.poolAllocRch e client).owner other = d.owner other :=
    fun other hne => Function.update_of_ne hne _ _
  have hself : (d.poolAllocRch e client).owner e = some ⟨client, d.allocs⟩ :=
    Function.update_self e _ _
  have hold : ∀ other t, (d.poolAllocRch e client).owner other = some t →
      other = e ∧ t = ⟨client, d.allocs⟩ ∨ other ≠ e ∧ d.owner other = some t := by
    intro other t ho
    by_cases heq : other = e
    · rw [heq, hself] at ho
      exact Or.inl ⟨heq, (Option.some.inj ho).symm⟩
    · rw [hupd other heq] at ho
      exact Or.inr ⟨heq, ho⟩
  refine ⟨?_, ?_, ?_, h.list_nodup, ?_, ?_, h.valid_le⟩
  · intro other
    by_cases heq : other = e
    · rw [heq, hself]
      simp [poolAllocRch]
    · rw [hupd other heq, ← h.reserved_iff other]
      show Function.update d.handlers.reserved e true other = true ↔ _
      rw [Function.update_of_ne heq]
  · intro other t ho
    rcases hold other t ho with ⟨rfl, rfl⟩ | ⟨_, ho⟩
    · exact ⟨hlt, Nat.lt_succ_self _⟩
    · exact ⟨(h.owner_lt other t ho).1, Nat.lt_succ_of_lt (h.owner_lt other t ho).2⟩
  · intro a b t ha hb
    rcases hold a t ha with ⟨rfl, rfl⟩ | ⟨_, hold'⟩
    · rcases hold b _ hb with ⟨rfl, _⟩ | ⟨_, hb⟩
      · rfl
      · exact absurd (h.owner_lt b _ hb).2 (Nat.lt_irrefl _)
    · rcases hold b t hb with ⟨rfl, rfl⟩ | ⟨_, hb⟩
      · exact absurd (h.owner_lt a _ hold').2 (Nat.lt_irrefl _)
      · exact h.owner_inj a b t hold' hb
  · intro other hm
    have hne : other ≠ e := fun heq => h.not_mem hnone (heq ▸ hm)
    rw [hupd other hne]
    exact h.listed other hm
  · intro other ho
    by_cases heq : other = e
    · rw [heq] at ho ⊢
      exact h.free_path e hnone
    · rw [hupd other heq] at ho
      exact h.free_path other ho

theorem keepsOthers_alloc (d : Device) (e client : Nat) :
    KeepsOthers d (d.poolAllocRch e client) e :=
  fun _ hne => ⟨rfl, Function.update_of_ne hne _ _, Iff.rfl⟩

theorem DevInv.unbuilt_alloc (h : DevInv d)
    (hfree : d.handlers.reserved e = false) (client : Nat) :
    Unbuilt (d.poolAllocRch e client) e ⟨client, d.allocs⟩ := by
  have hnone := h.owner_none hfree
  exact ⟨Function.update_self e _ _, h.not_mem hnone, h.free_path e hnone⟩

/-- The pool of mappings is not part of the rule. -/
theorem DevInv.of_eq (h : DevInv d) (hrch : d'.rch = d.rch)
    (hlist : d'.list = d.list) (hhandlers : d'.handlers = d.handlers)
    (howner : d'.owner = d.owner) (hallocs : d'.allocs = d.allocs) :
    DevInv d' := by
  obtain ⟨h1, h2, h3, h4, h5, h6, h7⟩ := h
  refine ⟨?_, ?_, ?_, ?_, ?_, ?_, ?_⟩
  all_goals simp only [hrch, hlist, hhandlers, howner, hallocs]
  · exact h1
  · exact h2
  · exact h3
  · exact h4
  · exact h5
  · exact h6
  · exact h7

theorem valid_le_setRch {rch : ReturnCommandHandler}
    (h : ∀ e, (d.rch e).rchReturn.valid ≤ 1) (hvalid : rch.rchReturn.valid ≤ 1)
    (other : Nat) : ((d.setRch e rch).rch other).rchReturn.valid ≤ 1 := by
  by_cases heq : other = e
  · rw [heq]
    simpa [Device.setRch] using hvalid
  · have hrch : (d.setRch e rch).rch other = d.rch other :=
      Function.update_of_ne heq _ _
    rw [hrch]
    exact h other

/-- A change of an unlinked handler that somebody owns. -/
theorem DevInv.setRch (h : DevInv d) (ho : d.owner e = some t) (hm : e ∉ d.list)
    {rch : ReturnCommandHandler} (hvalid : rch.rchReturn.valid ≤ 1) :
    DevInv (d.setRch e rch) where
  reserved_iff := h.reserved_iff
  owner_lt := h.owner_lt
  owner_inj := h.owner_inj
  list_nodup := h.list_nodup
  listed := by
    intro other hother
    have hne : other ≠ e := fun heq => hm (heq ▸ hother)
    have hrch : (d.setRch e rch).rch other = d.rch other :=
      Function.update_of_ne hne _ _
    rw [hrch]
    exact h.listed other hother
  free_path := by
    intro other hnone
    have hne : other ≠ e := by
      rintro rfl
      exact absurd (ho.symm.trans hnone) (by simp)
    have hrch : (d.setRch e rch).rch other = d.rch other :=
      Function.update_of_ne hne _ _
    rw [hrch]
    exact h.free_path other hnone
  valid_le := fun other => valid_le_setRch h.valid_le hvalid other

theorem keepsOthers_setRch (d : Device) (e : Nat) (rch : ReturnCommandHandler) :
    KeepsOthers d (d.setRch e rch) e :=
  fun _ hne => ⟨Function.update_of_ne hne _ _, rfl, Iff.rfl⟩

@[simp] theorem setRch_rch_self (d : Device) (e : Nat)
    (rch : ReturnCommandHandler) : (d.setRch e rch).rch e = rch := by
  simp [setRch]

/-- `buildRch` on a handler that is not linked. -/
theorem Unbuilt.build (h : Unbuilt d e t) (handler : Handler)
    (kbuf : Option Kbuf) (flags : Nat) :
    Built (d.buildRch e handler t.client kbuf flags t) e t handler := by
  refine ⟨h.1, h.2.1, ?_, ?_, ?_⟩
  all_goals
    rw [buildRch, setRch_rch_self]

/-- `rchAppend` links the handler. -/
theorem Built.append {handler : Handler} (hinv : DevInv d)
    (h : Built d e t handler) (hs : d.rchAppend e = some d') :
    DevInv d' ∧ KeepsOthers d d' e ∧ Live d' e t handler := by
  rw [rchAppend, if_neg h.2.1] at hs
  obtain rfl := Option.some.inj hs
  have hmem : ∀ other, other ≠ e → (other ∈ d.list ++ [e] ↔ other ∈ d.list) := by
    intro other hne
    simp [hne]
  refine ⟨⟨hinv.reserved_iff, hinv.owner_lt, hinv.owner_inj, ?_, ?_,
    hinv.free_path, hinv.valid_le⟩, fun other hne => ⟨rfl, rfl, hmem other hne⟩, ?_⟩
  · refine List.nodup_append.mpr ⟨hinv.list_nodup, List.pairwise_singleton _ _, ?_⟩
    intro a ha b hb heq
    rw [List.mem_singleton.mp hb] at heq
    exact h.2.1 (heq ▸ ha)
  · intro other hother
    by_cases heq : other = e
    · rw [heq]
      show d.owner e = _ ∧ _
      rw [h.2.2.2.1]
      exact ⟨h.1, h.2.2.1⟩
    · exact hinv.listed other ((hmem other heq).mp hother)
  · exact ⟨h.1, List.mem_append_right _ List.mem_cons_self, h.2.2⟩

/-- What `i2o_recycleRch` leaves behind. -/
structure Recycled (d d' : Device) (e : Nat) (caller : Tag) : Prop where
  keeps : KeepsOthers d d' e
  path : (d'.rch e).path = none
  kbuf : poolKbuf (d'.rch e).rchReturn = poolKbuf (d.rch e).rchReturn
  valid : (d.rch e).rchReturn.valid ≤ 1 → (d'.rch e).rchReturn.valid ≤ 1
  linked : (d.rch e).path.isSome = true → e ∈ d.list
  list : d'.list = if (d.rch e).path.isSome then d.list.erase e else d.list
  owner : d'.owner e = none
  handlers : d'.handlers = d.handlers.free e
  allocs : d'.allocs = d.allocs
  lastId : d'.i2oLastIdOut = d.i2oLastIdOut
  frees : d'.frees
    = d.frees ++ [⟨e, caller, d.handlers.reserved e, d.owner e⟩]
  mappings : (d'.mappings, d'.mappingOwner) =
    match poolKbuf (d.rch e).rchReturn with
    | some (.mapping m) =>
      (d.mappings.free m, Function.update d.mappingOwner m none)
    | _ => (d.mappings, d.mappingOwner)

theorem rchRemove_some (h : d.rchRemove e = some d') :
    e ∈ d.list ∧
      d' = { d with list := d.list.erase e }.setRch e
        { d.rch e with path := none, handler := none } := by
  rw [rchRemove, listDel] at h
  split at h
  · rename_i hm
    exact ⟨hm, (Option.some.inj h).symm⟩
  · cases h

/-- The mapping that goes with a handler is freed, and nothing else changes. -/
theorem recycle_some {d₁ : Device}
    (h : (if (d₁.rch e).device then
      let d := match poolKbuf (d₁.rch e).rchReturn with
        | none => d₁
        | some kbuf => d₁.poolFreeMapping kbuf
      some (d.poolFreeRch e caller)
    else none) = some d') :
    d'.rch = d₁.rch ∧ d'.list = d₁.list ∧ d'.handlers = d₁.handlers.free e ∧
      d'.owner = Function.update d₁.owner e none ∧ d'.allocs = d₁.allocs ∧
      d'.i2oLastIdOut = d₁.i2oLastIdOut ∧
      d'.frees = d₁.frees ++ [⟨e, caller, d₁.handlers.reserved e, d₁.owner e⟩] ∧
      (d'.mappings, d'.mappingOwner) =
        match poolKbuf (d₁.rch e).rchReturn with
        | some (.mapping m) =>
          (d₁.mappings.free m, Function.update d₁.mappingOwner m none)
        | _ => (d₁.mappings, d₁.mappingOwner) := by
  split at h
  · obtain rfl := Option.some.inj h
    cases poolKbuf (d₁.rch e).rchReturn with
    | none => exact ⟨rfl, rfl, rfl, rfl, rfl, rfl, rfl, rfl⟩
    | some kbuf =>
      cases kbuf with
      | mapping m => exact ⟨rfl, rfl, rfl, rfl, rfl, rfl, rfl, rfl⟩
      | other => exact ⟨rfl, rfl, rfl, rfl, rfl, rfl, rfl, rfl⟩
  · cases h

theorem recycled (h : d.i2oRecycleRch e caller = some d') :
    Recycled d d' e caller := by
  rw [i2oRecycleRch] at h
  obtain ⟨d₁, hremove, hfree⟩ := Option.bind_eq_some_iff.mp h
  obtain ⟨hrch, hlist, hhandlers, howner, hallocs, hlast, hfrees, hmap⟩ :=
    recycle_some hfree
  cases hpath : (d.rch e).path with
  | some path =>
    rw [hpath, Option.isSome_some, if_pos rfl] at hremove
    obtain ⟨hm, rfl⟩ := rchRemove_some hremove
    have hself : d'.rch e = { d.rch e with path := none, handler := none } := by
      rw [hrch, setRch_rch_self]
    refine ⟨?_, by rw [hself], by rw [hself], by rw [hself]; exact id,
      fun _ => hm, ?_, ?_, hhandlers, hallocs, hlast, hfrees, ?_⟩
    · intro other hne
      refine ⟨?_, ?_, ?_⟩
      · rw [hrch]
        exact Function.update_of_ne hne _ _
      · rw [howner]
        exact Function.update_of_ne hne _ _
      · rw [hlist]
        exact List.mem_erase_of_ne hne
    · rw [hpath, hlist, Option.isSome_some, if_pos rfl]
      rfl
    · rw [howner, Function.update_self]
    · rw [setRch_rch_self] at hmap
      exact hmap
  | none =>
    rw [hpath, Option.isSome_none, if_neg (by decide)] at hremove
    obtain rfl := Option.some.inj hremove
    refine ⟨?_, by rw [hrch, hpath], by rw [hrch], by rw [hrch]; exact id, ?_, ?_,
      ?_, hhandlers, hallocs, hlast, hfrees, hmap⟩
    · intro other hne
      refine ⟨by rw [hrch], ?_, by rw [hlist]⟩
      rw [howner]
      exact Function.update_of_ne hne _ _
    · intro hsome
      rw [hpath] at hsome
      cases hsome
    · rw [hpath, hlist, Option.isSome_none, if_neg (by decide)]
    · rw [howner, Function.update_self]

/-- When `i2o_recycleRch` gets through. -/
theorem recycle_isSome : (∃ d', d.i2oRecycleRch e t = some d') ↔
    ((d.rch e).path = none ∨ e ∈ d.list) ∧ (d.rch e).device = true := by
  rw [i2oRecycleRch]
  cases hpath : (d.rch e).path with
  | none =>
    cases hdev : (d.rch e).device <;> simp [hdev]
  | some path =>
    by_cases hm : e ∈ d.list
    · cases hdev : (d.rch e).device <;>
        simp [rchRemove, listDel, setRch, hm, hdev]
    · simp [rchRemove, listDel, hm]

theorem Recycled.not_mem (h : Recycled d d' e caller) (hinv : DevInv d) :
    e ∉ d'.list := by
  rw [h.list]
  cases hpath : (d.rch e).path with
  | some path =>
    rw [Option.isSome_some, if_pos rfl]
    exact fun hm => (hinv.list_nodup.mem_erase_iff.mp hm).1 rfl
  | none =>
    rw [Option.isSome_none, if_neg (by decide)]
    intro hm
    rw [(hinv.listed e hm).2] at hpath
    cases hpath

/-- A recycled handler is nobody's. -/
theorem Recycled.devInv (h : Recycled d d' e caller) (hinv : DevInv d) :
    DevInv d' := by
  have hnot := h.not_mem hinv
  have hne : ∀ other t, d'.owner other = some t → other ≠ e := by
    rintro other t ho rfl
    rw [h.owner] at ho
    cases ho
  refine ⟨?_, ?_, ?_, ?_, ?_, ?_, ?_⟩
  · intro other
    by_cases heq : other = e
    · rw [heq, h.owner, h.handlers]
      refine ⟨fun hres => ?_, fun hs => by cases hs⟩
      have hsome := (hinv.reserved_iff e).mp (Pool.reserved_of_free hres)
      obtain ⟨t, ht⟩ := Option.isSome_iff_exists.mp hsome
      rw [Pool.free_reserved_self _ (hinv.owner_lt e t ht).1] at hres
      cases hres
    · rw [(h.keeps other heq).2.1, h.handlers, Pool.free_reserved_of_ne _ heq]
      exact hinv.reserved_iff other
  · intro other t ho
    rw [(h.keeps other (hne other t ho)).2.1] at ho
    rw [h.handlers, Pool.free_maxEntries, h.allocs]
    exact hinv.owner_lt other t ho
  · intro a b t ha hb
    rw [(h.keeps a (hne a t ha)).2.1] at ha
    rw [(h.keeps b (hne b t hb)).2.1] at hb
    exact hinv.owner_inj a b t ha hb
  · rw [h.list]
    split
    · exact hinv.list_nodup.erase e
    · exact hinv.list_nodup
  · intro other hother
    have hoe : other ≠ e := fun heq => hnot (heq ▸ hother)
    obtain ⟨hrch, howner, hlist⟩ := h.keeps other hoe
    rw [hrch, howner]
    exact hinv.listed other (hlist.mp hother)
  · intro other ho
    by_cases heq : other = e
    · rw [heq]
      exact h.path
    · obtain ⟨hrch, howner, _⟩ := h.keeps other heq
      rw [hrch]
      exact hinv.free_path other (howner ▸ ho)
  · intro other
    by_cases heq : other = e
    · rw [heq]
      exact h.valid (hinv.valid_le e)
    · rw [(h.keeps other heq).1]
      exact hinv.valid_le other

/-! ## Replies -/

/-- A change of the fields that a reply fills in. -/
theorem DevInv.setReturn (h : DevInv d) {r : RchReturn} (hr : r.valid ≤ 1) :
    DevInv (d.setRch e { d.rch e with rchReturn := r }) := by
  have hsame : ∀ other,
      ((d.setRch e { d.rch e with rchReturn := r }).rch other).path
          = (d.rch other).path ∧
        ((d.setRch e { d.rch e with rchReturn := r }).rch other).request
          = (d.rch other).request := by
    intro other
    by_cases heq : other = e
    · rw [heq, setRch_rch_self]
      exact ⟨rfl, rfl⟩
    · rw [(keepsOthers_setRch d e _ other heq).1]
      exact ⟨rfl, rfl⟩
  refine ⟨h.reserved_iff, h.owner_lt, h.owner_inj, h.list_nodup, ?_, ?_,
    fun other => valid_le_setRch h.valid_le hr other⟩
  · intro other hm
    rw [(hsame other).1, (hsame other).2]
    exact h.listed other hm
  · intro other ho
    rw [(hsame other).1]
    exact h.free_path other ho

/-- A handler whose reply fields are filled in just before it is recycled. -/
theorem Recycled.of_setReturn {r : RchReturn}
    (hr : poolKbuf r = poolKbuf (d.rch e).rchReturn) (hvalid : r.valid ≤ 1)
    (h : Recycled (d.setRch e { d.rch e with rchReturn := r }) d' e caller) :
    Recycled d d' e caller := by
  obtain ⟨h1, h2, h3, h4, h5, h6, h7, h8, h9, h10, h11, h12⟩ := h
  simp only [setRch_rch_self] at h3 h4 h5 h6 h12
  refine ⟨?_, h2, h3.trans hr, fun _ => h4 hvalid, h5, h6, h7, h8, h9, h10, h11,
    ?_⟩
  · intro other hne
    obtain ⟨hrch, howner, hlist⟩ := h1 other hne
    exact ⟨hrch.trans (keepsOthers_setRch d e _ other hne).1, howner, hlist⟩
  · rw [hr] at h12
    exact h12

theorem poolKbuf_setSamples (r : RchReturn) (id nsamples : BitVec 32) :
    poolKbuf (setSamples r id nsamples) = poolKbuf r := by
  rw [setSamples]
  split <;> rfl

theorem valid_setSamples (r : RchReturn) (id nsamples : BitVec 32) :
    (setSamples r id nsamples).valid ≤ 1 := by
  rw [setSamples]
  split <;> simp

/-- A handler with a path only has its reply fields filled in. -/
theorem handle_read {path : Nat} {start nsamples : BitVec 32}
    (hpath : (d.rch e).path = some path) :
    d.handle e start nsamples .handleReadMessageFile =
      some (d.setRch e { d.rch e with
        rchReturn := setSamples (d.rch e).rchReturn start nsamples }) := by
  have hpair : d.rchSetSamplesAndGetPath e start nsamples =
      (d.setRch e { d.rch e with
        rchReturn := setSamples (d.rch e).rchReturn start nsamples }, some path) := by
    rw [rchSetSamplesAndGetPath, ← hpath]
  rw [handle, hpair]

/-- Everything that the dispatch of a reply can do.  A read is told, and any
other handler is recycled. -/
theorem dispatch_cases {id : BitVec 16} {start nsamples : BitVec 32}
    (hinv : DevInv d)
    (h : d.processCommandMessageReturn id start nsamples = some d') :
    d.findRch id = none ∧ d' = d ∨
      ∃ e, d.findRch id = some e ∧
        ((d.rch e).handler = some .handleReadMessageFile ∧
            d' = d.setRch e
              { d.rch e with
                rchReturn := setSamples (d.rch e).rchReturn start nsamples } ∨
          (d.rch e).handler ≠ some .handleReadMessageFile ∧
            Recycled d d' e (d.rch e).request) := by
  rw [processCommandMessageReturn] at h
  cases hfind : d.findRch id with
  | none =>
    rw [hfind] at h
    exact Or.inl ⟨rfl, (Option.some.inj h).symm⟩
  | some e =>
    refine Or.inr ⟨e, rfl, ?_⟩
    have hpath := (hinv.listed e (List.mem_of_find?_eq_some hfind)).2
    rw [hfind] at h
    cases hhandler : (d.rch e).handler with
    | none =>
      simp only [hhandler] at h
      refine Or.inr ⟨by simp, ?_⟩
      obtain ⟨d₁, hrec, rfl⟩ := Option.map_eq_some_iff.mp h
      obtain ⟨h1, h2, h3, h4, h5, h6, h7, h8, h9, h10, h11, h12⟩ := recycled hrec
      exact ⟨h1, h2, h3, h4, h5, h6, h7, h8, h9, h10, h11, h12⟩
    | some handler =>
      simp only [hhandler] at h
      cases handler with
      | handleReadMessageFile =>
        refine Or.inl ⟨rfl, ?_⟩
        rw [handle_read hpath] at h
        exact (Option.some.inj h).symm
      | recycleRchWrapper => exact Or.inr ⟨by simp, recycled h⟩
      | handleLastMessage =>
        refine Or.inr ⟨by simp, ?_⟩
        simp only [handle, setRch_rch_self] at h
        split at h
        · refine Recycled.of_setReturn ?_ (Int.le_refl 1) (recycled h)
          rfl
        · cases h

/-- A reply sends nothing. -/
theorem lastId_process {id : BitVec 16} {start nsamples : BitVec 32}
    (h : d.processCommandMessageReturn id start nsamples = some d') :
    d'.i2oLastIdOut = d.i2oLastIdOut := by
  rw [processCommandMessageReturn] at h
  split at h
  · rw [← Option.some.inj h]
  · split at h
    · rename_i handler _
      cases handler with
      | handleReadMessageFile =>
        simp only [handle, rchSetSamplesAndGetPath] at h
        split at h
        · rename_i hpair
          obtain ⟨rfl, _⟩ := Prod.mk.inj hpair
          rw [← Option.some.inj h]
          rfl
        · rename_i hpair
          obtain ⟨rfl, _⟩ := Prod.mk.inj hpair
          exact (recycled h).lastId
      | recycleRchWrapper => exact (recycled h).lastId
      | handleLastMessage =>
        simp only [handle] at h
        split at h
        · exact (recycled h).lastId
        · cases h
    · obtain ⟨d₁, hrec, rfl⟩ := Option.map_eq_some_iff.mp h
      exact (recycled hrec).lastId

theorem findRch_mem {id : BitVec 16} (h : d.findRch id = some e) :
    e ∈ d.list ∧ (d.rch e).commandId = id := by
  refine ⟨List.mem_of_find?_eq_some h, ?_⟩
  simpa using List.find?_some h

theorem cleanupRch_mem {path : Nat} (h : d.cleanupRch path = some e) :
    e ∈ d.list ∧ (d.rch e).path = some path := by
  refine ⟨List.mem_of_find?_eq_some h, ?_⟩
  simpa using List.find?_some h

theorem Live.setReturn {handler : Handler} (h : Live d other t handler)
    (r : RchReturn) :
    Live (d.setRch e { d.rch e with rchReturn := r }) other t handler := by
  by_cases heq : other = e
  · rw [heq] at h ⊢
    refine ⟨h.1, h.2.1, ?_⟩
    rw [setRch_rch_self]
    exact h.2.2
  · exact h.of_keeps (keepsOthers_setRch d e _) heq

/-! ## The end of a read -/

/-- The pools and the record of their use are as before. -/
structure SamePools (d d' : Device) : Prop where
  handlers : d'.handlers = d.handlers
  mappings : d'.mappings = d.mappings
  lastId : d'.i2oLastIdOut = d.i2oLastIdOut
  owner : d'.owner = d.owner
  mappingOwner : d'.mappingOwner = d.mappingOwner
  allocs : d'.allocs = d.allocs
  frees : d'.frees = d.frees

theorem samePools_rchAppend (h : d.rchAppend e = some d') : SamePools d d' := by
  rw [rchAppend] at h
  split at h
  · cases h
  · obtain rfl := Option.some.inj h
    exact ⟨rfl, rfl, rfl, rfl, rfl, rfl, rfl⟩

theorem samePools_removeIfNotValid {valid : Int}
    (h : d.rchRemoveIfNotValid e = some (d', valid)) : SamePools d d' := by
  simp only [rchRemoveIfNotValid, listDel] at h
  split at h
  · split at h
    · split at h
      · obtain ⟨rfl, rfl⟩ := Prod.mk.inj (Option.some.inj h)
        exact ⟨rfl, rfl, rfl, rfl, rfl, rfl, rfl⟩
      · cases h
    · obtain ⟨rfl, rfl⟩ := Prod.mk.inj (Option.some.inj h)
      exact ⟨rfl, rfl, rfl, rfl, rfl, rfl, rfl⟩
  · obtain ⟨rfl, rfl⟩ := Prod.mk.inj (Option.some.inj h)
    exact ⟨rfl, rfl, rfl, rfl, rfl, rfl, rfl⟩

/-- `rchRemoveIfNotValid` by the read that holds the handler.  An answered
read keeps it, an interrupted one leaves it on the list with no handler
function, and after an error reply it is unlinked with its path still set. -/
theorem removeIfNotValid_cases {valid : Int} (hinv : DevInv d)
    (hlive : Live d e t .handleReadMessageFile)
    (h : d.rchRemoveIfNotValid e = some (d', valid)) :
    DevInv d' ∧ KeepsOthers d d' e ∧ valid = (d.rch e).rchReturn.valid ∧
      (valid = 1 ∧ d' = d ∨
        valid ≠ 1 ∧ d'.owner e = some t ∧
          (d'.rch e) = { d.rch e with handler := none } ∧
          d'.list = if valid < 0 then d.list.erase e else d.list) := by
  have hset : ∀ d₁ : Device, DevInv d₁ → d₁.rch = d.rch →
      DevInv (d₁.setRch e { d₁.rch e with handler := none }) := by
    intro d₁ h₁ hrch
    have hsame : ∀ other,
        ((d₁.setRch e { d₁.rch e with handler := none }).rch other).path
            = (d₁.rch other).path ∧
          ((d₁.setRch e { d₁.rch e with handler := none }).rch other).request
            = (d₁.rch other).request := by
      intro other
      by_cases heq : other = e
      · rw [heq, setRch_rch_self]
        exact ⟨rfl, rfl⟩
      · rw [(keepsOthers_setRch d₁ e _ other heq).1]
        exact ⟨rfl, rfl⟩
    refine ⟨h₁.reserved_iff, h₁.owner_lt, h₁.owner_inj, h₁.list_nodup, ?_, ?_,
      fun other => ?_⟩
    · intro other hm
      rw [(hsame other).1, (hsame other).2]
      exact h₁.listed other hm
    · intro other ho
      rw [(hsame other).1]
      exact h₁.free_path other ho
    · refine valid_le_setRch h₁.valid_le ?_ other
      exact h₁.valid_le e
  have herase : DevInv { d with list := d.list.erase e } := by
    refine ⟨hinv.reserved_iff, hinv.owner_lt, hinv.owner_inj,
      hinv.list_nodup.erase e, ?_, hinv.free_path, hinv.valid_le⟩
    intro other hm
    exact hinv.listed other (List.mem_of_mem_erase hm)
  rw [rchRemoveIfNotValid] at h
  simp only at h
  split at h
  · rename_i hvalid
    split at h
    · rename_i hneg
      rw [listDel, if_pos hlive.2.1, Option.map_some] at h
      obtain ⟨rfl, rfl⟩ := Prod.mk.inj (Option.some.inj h)
      refine ⟨hset _ herase rfl, ?_, rfl, Or.inr ⟨hvalid, hlive.1, ?_, ?_⟩⟩
      · intro other hne
        refine ⟨Function.update_of_ne hne _ _, rfl, List.mem_erase_of_ne hne⟩
      · exact setRch_rch_self _ _ _
      · rw [if_pos hneg]
        rfl
    · rename_i hneg
      rw [Option.map_some] at h
      obtain ⟨rfl, rfl⟩ := Prod.mk.inj (Option.some.inj h)
      refine ⟨hset d hinv rfl, keepsOthers_setRch d e _, rfl,
        Or.inr ⟨hvalid, hlive.1, setRch_rch_self _ _ _, ?_⟩⟩
      rw [if_neg hneg]
      rfl
  · rename_i hvalid
    obtain ⟨rfl, rfl⟩ := Prod.mk.inj (Option.some.inj h)
    exact ⟨hinv, fun _ _ => ⟨rfl, rfl, Iff.rfl⟩, rfl,
      Or.inl ⟨not_not.mp hvalid, rfl⟩⟩

end Device

end Acq200.Rch
