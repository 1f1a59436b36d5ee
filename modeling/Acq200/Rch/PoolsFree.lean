import Acq200.Rch.NoLeak

/-!
# The pools after all files are closed

A mapping of the DMA buffer is allocated for a request.  It is in the hands
of the client until the handler is built, and goes with the handler from
then on: `i2o_recycleRch` frees both.  `MappingsKept` is that invariant.  It
needs the ownership rule of the handlers, since a handler that is recycled
and allocated again under its first owner would be built twice, and the
second build forgets the mapping of the first.

`pools_free_when_closed` is what the two invariants are for.
-/

namespace Acq200.Rch

open Acq200.Lib Device

/-- The mapping that the client has in hand. -/
def Pc.carriesMapping : Pc → Option Nat
  | .checkLen _ _ _ (.mapping m) | .recycleUnbuilt _ _ (some (.mapping m))
  | .build _ _ _ (some (.mapping m)) | .freeMapping (.mapping m) => some m
  | _ => none

/-- A request with a mapping of the pool says so to `buildRch`. -/
def Pc.PoolFlags : Pc → Prop
  | .allocMapping op _ _ _ | .checkLen op _ _ (.mapping _)
  | .build op _ _ (some (.mapping _)) => op.flags = RCH_KB_POOL
  | _ => True

/-- Somebody is to free the mapping. -/
inductive MappingHolder (s : Sys) (m : Nat) : Prop where
  | carries {c : Nat} (hcarries : (s.clients c).pc.carriesMapping = some m)
  | goes {e : Nat} (hreserved : s.dev.handlers.reserved e = true)
      (hpath : (s.dev.rch e).path.isSome = true)
      (hkbuf : poolKbuf (s.dev.rch e).rchReturn = some (.mapping m))

structure MappingsKept (s : Sys) : Prop where
  reserved_lt : ∀ m, s.dev.mappings.reserved m = true → m < s.dev.mappings.maxEntries
  flags : ∀ c, (s.clients c).pc.PoolFlags
  held : ∀ m, s.dev.mappings.reserved m = true → m = MSG_MAPPING ∨ MappingHolder s m

/-- What is still reserved goes with the same handler as before. -/
structure KeepsMappings (d d' : Device) : Prop where
  maxEntries : d'.mappings.maxEntries = d.mappings.maxEntries
  reserved : ∀ m, d'.mappings.reserved m = true → d.mappings.reserved m = true
  goes : ∀ e m, d'.mappings.reserved m = true → d.handlers.reserved e = true →
    (d.rch e).path.isSome = true → poolKbuf (d.rch e).rchReturn = some (.mapping m) →
    d'.handlers.reserved e = true ∧ (d'.rch e).path.isSome = true ∧
      poolKbuf (d'.rch e).rchReturn = some (.mapping m)

section Device

variable {d d' : Device} {e m : Nat} {t : Tag}

/-- The mappings are not touched, and the built handlers keep theirs. -/
theorem keepsMappings_of_rch (hmappings : d'.mappings = d.mappings)
    (hrch : ∀ e, d.handlers.reserved e = true → (d.rch e).path.isSome = true →
      d'.handlers.reserved e = true ∧ (d'.rch e).path.isSome = true ∧
        poolKbuf (d'.rch e).rchReturn = poolKbuf (d.rch e).rchReturn) :
    KeepsMappings d d' where
  maxEntries := by rw [hmappings]
  reserved := fun m hm => by rwa [hmappings] at hm
  goes := by
    intro e m _ hres hpath hkbuf
    obtain ⟨hres', hpath', hkbuf'⟩ := hrch e hres hpath
    exact ⟨hres', hpath', hkbuf'.trans hkbuf⟩

theorem keepsMappings_refl (d : Device) : KeepsMappings d d :=
  keepsMappings_of_rch rfl fun _ hres hpath => ⟨hres, hpath, rfl⟩

theorem keepsMappings_free (m : Nat) : KeepsMappings d (d.poolFreeMapping (.mapping m)) where
  maxEntries := Pool.free_maxEntries _ _
  reserved := fun _ hm => Pool.reserved_of_free hm
  goes := fun _ _ _ hres hpath hkbuf => ⟨hres, hpath, hkbuf⟩

/-- What is left of the mappings when a handler is recycled. -/
theorem recycle_mappings (h : Recycled d d' e t)
    (hlt : ∀ m, d.mappings.reserved m = true → m < d.mappings.maxEntries)
    (hm : d'.mappings.reserved m = true) :
    d.mappings.reserved m = true ∧ poolKbuf (d.rch e).rchReturn ≠ some (.mapping m) := by
  have hmappings := congrArg Prod.fst h.mappings
  cases hkbuf : poolKbuf (d.rch e).rchReturn with
  | none =>
    have hsame : d'.mappings = d.mappings := by
      rw [hkbuf] at hmappings
      exact hmappings
    rw [hsame] at hm
    exact ⟨hm, fun heq => by cases heq⟩
  | some kbuf =>
    rw [hkbuf] at hmappings
    cases kbuf with
    | other =>
      have hsame : d'.mappings = d.mappings := hmappings
      rw [hsame] at hm
      exact ⟨hm, fun heq => by cases heq⟩
    | mapping m' =>
      have hfreed : d'.mappings = d.mappings.free m' := hmappings
      rw [hfreed] at hm
      have hold := Pool.reserved_of_free hm
      refine ⟨hold, ?_⟩
      intro heq
      cases heq
      rw [Pool.free_reserved_self _ (hlt m hold)] at hm
      cases hm

theorem recycle_maxMappings (h : Recycled d d' e t) :
    d'.mappings.maxEntries = d.mappings.maxEntries := by
  have hmappings := congrArg Prod.fst h.mappings
  cases hkbuf : poolKbuf (d.rch e).rchReturn with
  | none =>
    rw [hkbuf] at hmappings
    exact congrArg Pool.maxEntries hmappings
  | some kbuf =>
    rw [hkbuf] at hmappings
    cases kbuf with
    | other => exact congrArg Pool.maxEntries hmappings
    | mapping m' =>
      have hfreed : d'.mappings = d.mappings.free m' := hmappings
      rw [hfreed, Pool.free_maxEntries]

/-- A handler is recycled, and its mapping with it. -/
theorem keepsMappings_recycled (h : Recycled d d' e t)
    (hlt : ∀ m, d.mappings.reserved m = true → m < d.mappings.maxEntries) :
    KeepsMappings d d' where
  maxEntries := recycle_maxMappings h
  reserved := fun m hm => (recycle_mappings h hlt hm).1
  goes := by
    intro other m hm hres hpath hkbuf
    have hother : other ≠ e := by
      rintro rfl
      exact (recycle_mappings h hlt hm).2 hkbuf
    obtain ⟨hrch, _, _⟩ := h.keeps other hother
    rw [hrch, h.handlers, Pool.free_reserved_of_ne _ hother]
    exact ⟨hres, hpath, hkbuf⟩

/-- A change of a handler that leaves its path and its mapping. -/
theorem keepsMappings_setRch {rch : ReturnCommandHandler} (hpath : rch.path = (d.rch e).path)
    (hkbuf : poolKbuf rch.rchReturn = poolKbuf (d.rch e).rchReturn) :
    KeepsMappings d (d.setRch e rch) := by
  refine keepsMappings_of_rch rfl fun other hres hsome => ?_
  by_cases heq : other = e
  · rw [heq] at hres hsome ⊢
    rw [setRch_rch_self, hpath, hkbuf]
    exact ⟨hres, hsome, rfl⟩
  · rw [(keepsOthers_setRch d e rch other heq).1]
    exact ⟨hres, hsome, rfl⟩

theorem keepsMappings_removeIfNotValid {valid : Int}
    (h : d.rchRemoveIfNotValid e = some (d', valid)) : KeepsMappings d d' := by
  simp only [rchRemoveIfNotValid, listDel] at h
  split at h
  · split at h
    · split at h
      · obtain ⟨rfl, rfl⟩ := Prod.mk.inj (Option.some.inj h)
        obtain ⟨hmax, hres, hgoes⟩ :
            KeepsMappings d (d.setRch e { d.rch e with handler := none }) :=
          keepsMappings_setRch rfl rfl
        exact ⟨hmax, hres, hgoes⟩
      · cases h
    · obtain ⟨rfl, rfl⟩ := Prod.mk.inj (Option.some.inj h)
      exact keepsMappings_setRch rfl rfl
  · obtain ⟨rfl, rfl⟩ := Prod.mk.inj (Option.some.inj h)
    exact keepsMappings_refl d

theorem keepsMappings_append (h : d.rchAppend e = some d') : KeepsMappings d d' := by
  rw [rchAppend] at h
  split at h
  · cases h
  · obtain rfl := Option.some.inj h
    exact keepsMappings_of_rch rfl fun _ hres hpath => ⟨hres, hpath, rfl⟩

theorem keepsMappings_dispatch {id : BitVec 16} {start nsamples : BitVec 32} (hinv : DevInv d)
    (hlt : ∀ m, d.mappings.reserved m = true → m < d.mappings.maxEntries)
    (h : d.processCommandMessageReturn id start nsamples = some d') : KeepsMappings d d' := by
  rcases dispatch_cases hinv h with ⟨_, rfl⟩ | ⟨e, _, ⟨_, rfl⟩ | ⟨_, hrec⟩⟩
  · exact keepsMappings_refl _
  · exact keepsMappings_setRch rfl (poolKbuf_setSamples _ _ _)
  · exact keepsMappings_recycled hrec hlt

end Device

section Steps

variable {s s' : Sys} {c e m : Nat} {t : Tag} {l : Label}

theorem poolFlags_of_entryFree {pc : Pc} (h : pc.entryFree = true) : pc.PoolFlags := by
  cases pc with
  | allocMapping op e t asleep => cases h
  | checkLen op e t kbuf => cases h
  | build op e t kbuf => cases h
  | _ => trivial

theorem freeMapping_of_carries {pc : Pc} (hm : pc.carriesMapping = some m)
    (hgrips : pc.grips = none) : pc = .freeMapping (.mapping m) := by
  cases pc with
  | freeMapping kbuf =>
    cases kbuf with
    | mapping m' => rw [Option.some.inj hm]
    | other => cases hm
  | checkLen op e t kbuf | recycleUnbuilt e t kbuf | build op e t kbuf => cases hgrips
  | _ => cases hm

/-- A step of client `c` that leaves what is reserved where it is. -/
theorem MappingsKept.move (h : MappingsKept s) (hkeep : KeepsMappings s.dev s'.dev)
    (hothers : ∀ o, o ≠ c → s'.clients o = s.clients o)
    (hflags : (s'.clients c).pc.PoolFlags)
    (hcarries : ∀ m, (s.clients c).pc.carriesMapping = some m →
      s'.dev.mappings.reserved m = true → MappingHolder s' m) : MappingsKept s' where
  reserved_lt := by
    intro m hm
    rw [hkeep.maxEntries]
    exact h.reserved_lt m (hkeep.reserved m hm)
  flags := by
    intro o
    by_cases heq : o = c
    · rw [heq]
      exact hflags
    · rw [hothers o heq]
      exact h.flags o
  held := by
    intro m hm
    rcases h.held m (hkeep.reserved m hm) with hmsg | holder
    · exact Or.inl hmsg
    refine Or.inr ?_
    cases holder with
    | @carries o ho =>
      by_cases heq : o = c
      · exact hcarries m (heq ▸ ho) hm
      · exact .carries (by rw [hothers o heq]; exact ho)
    | @goes e hres hpath hkbuf =>
      obtain ⟨hres', hpath', hkbuf'⟩ := hkeep.goes e m hm hres hpath hkbuf
      exact .goes hres' hpath' hkbuf'

/-- The client goes on with the mapping that it has in hand, or has none. -/
theorem MappingsKept.setPc (h : MappingsKept s) {d : Device} {pc : Pc}
    (hkeep : KeepsMappings s.dev d) (hflags : pc.PoolFlags)
    (hcarries : (s.clients c).pc.carriesMapping = none ∨
      pc.carriesMapping = (s.clients c).pc.carriesMapping) :
    MappingsKept ({ s with dev := d }.setPc c pc) := by
  refine h.move (c := c) hkeep (fun o ho => Sys.setClient_of_ne _ ho _) ?_ ?_
  · rw [Sys.setPc_self]
    exact hflags
  · intro m hm _
    rcases hcarries with hnone | hsame
    · rw [hnone] at hm
      cases hm
    · refine .carries (c := c) ?_
      rw [Sys.setPc_self]
      exact hsame.trans hm

/-- The client frees the mapping, whatever the label says. -/
theorem step_freeMapping {kbuf : Kbuf} (hl : l.client = some c)
    (hpc : (s.clients c).pc = .freeMapping kbuf) (hs : Sys.step l s = some s') :
    s'.dev = s.dev.poolFreeMapping kbuf := by
  cases hoops : s.oopsed with
  | true =>
    unfold Sys.step at hs
    rw [hoops, if_pos rfl] at hs
    cases hs
  | false =>
    rw [Sys.step_client hl hoops] at hs
    cases l with
    | go c' =>
      simp only [Sys.clientStep, hpc] at hs
      obtain rfl := Option.some.inj hs
      rfl
    | check c' zero =>
      simp only [Sys.clientStep, hpc] at hs
      cases hs
    | _ => simp [Sys.clientStep, hpc, Sys.wake, Sys.timeout, Sys.signal] at hs

/-- A step that leaves the device alone puts no mapping down. -/
theorem MappingsKept.neutral (h : MappingsKept s) {client : Client} {b : Bool}
    (hl : l.client = some c) (hne : emptyWrite l s = false)
    (hs : Sys.step l s = some ({ s with busyFree := b }.setClient c client))
    (hfree : client.pc.entryFree = true) :
    MappingsKept ({ s with busyFree := b }.setClient c client) := by
  have hclient := Sys.setClient_self { s with busyFree := b } c client
  refine h.move (c := c) (keepsMappings_refl s.dev) (fun o ho => Sys.setClient_of_ne _ ho _) ?_ ?_
  · rw [hclient]
    exact poolFlags_of_entryFree hfree
  · intro m hm hres
    have hgrips : (s.clients c).pc.grips = none := by
      rcases (settles_step hl hne hs).grips with hnone | hfree' | hoops' | hfrees
      · exact hnone
      · rw [hclient, hfree] at hfree'
        cases hfree'
      · unfold Sys.step at hs
        split at hs
        · cases hs
        · rename_i hno
          exact absurd hoops' hno
      · exact absurd rfl hfrees
    -- A client with a mapping and no handler is about to free the mapping.
    have hpc := freeMapping_of_carries hm hgrips
    have hdev := step_freeMapping hl hpc hs
    have hdev : s.dev = s.dev.poolFreeMapping (.mapping m) := hdev
    have hres : s.dev.mappings.reserved m = true := hres
    have hfreed := Pool.free_reserved_self s.dev.mappings (h.reserved_lt m hres)
    rw [hdev] at hres
    exact absurd (hfreed.symm.trans hres) Bool.false_ne_true

theorem MappingsKept.allocMapping (h : MappingsKept s) {op : Op} {asleep : Option Nat}
    (hpc : (s.clients c).pc = .allocMapping op e t asleep)
    (hlt : m < s.dev.mappings.maxEntries) :
    MappingsKept ({ s with dev := s.dev.poolAllocMapping m t }.setPc c
      (.checkLen op e t (.mapping m))) := by
  have hclient := Sys.setPc_self { s with dev := s.dev.poolAllocMapping m t } c
    (.checkLen op e t (.mapping m))
  have hold : ∀ other, other ≠ m → (s.dev.poolAllocMapping m t).mappings.reserved other
      = s.dev.mappings.reserved other :=
    fun other hne => Function.update_of_ne hne _ _
  refine ⟨?_, ?_, ?_⟩
  · intro other hres
    by_cases heq : other = m
    · rw [heq]
      exact hlt
    · exact h.reserved_lt other ((hold other heq).symm.trans hres)
  · intro o
    by_cases heq : o = c
    · rw [heq, hclient]
      have hflags := h.flags c
      rw [hpc] at hflags
      exact hflags
    · rw [Sys.setPc, Sys.setClient_of_ne _ heq]
      exact h.flags o
  · intro other hres
    by_cases heq : other = m
    · refine Or.inr (.carries (c := c) ?_)
      rw [hclient, heq]
      rfl
    · rcases h.held other ((hold other heq).symm.trans hres) with hmsg | holder
      · exact Or.inl hmsg
      refine Or.inr ?_
      cases holder with
      | @carries o ho =>
        by_cases hoc : o = c
        · rw [hoc, hpc] at ho
          cases ho
        · refine .carries (c := o) ?_
          rw [Sys.setPc, Sys.setClient_of_ne _ hoc]
          exact ho
      | goes hres' hpath hkbuf => exact .goes hres' hpath hkbuf

/-- The handler is built, and the mapping goes with it from now on. -/
theorem MappingsKept.build (h : MappingsKept s) (hown : OwnInv s) {op : Op}
    {kbuf : Option Kbuf} {client : Client} {predicted : Predicted}
    (hpc : (s.clients c).pc = .build op e t kbuf)
    (hnext : client.pc = .append op e t kbuf predicted) :
    MappingsKept ({ s with
      dev := s.dev.buildRch e op.handler c kbuf op.flags t }.setClient c client) := by
  have hclient := Sys.setClient_self
    { s with dev := s.dev.buildRch e op.handler c kbuf op.flags t } c client
  obtain ⟨_, hunbuilt, _⟩ := hown.pcInv hpc
  have hkeep : KeepsMappings s.dev (s.dev.buildRch e op.handler c kbuf op.flags t) := by
    refine keepsMappings_of_rch rfl fun other hres hpath => ?_
    have hne : other ≠ e := by
      rintro rfl
      rw [hunbuilt.2.2] at hpath
      cases hpath
    rw [buildRch, (keepsOthers_setRch s.dev e _ other hne).1]
    exact ⟨hres, hpath, rfl⟩
  refine h.move (c := c) hkeep (fun o ho => Sys.setClient_of_ne _ ho _) ?_ ?_
  · rw [hclient, hnext]
    trivial
  · intro m hm _
    have hflags := h.flags c
    rw [hpc] at hm hflags
    have hreserved : s.dev.handlers.reserved e = true :=
      (hown.dev.reserved_iff e).mpr (by rw [hunbuilt.1]; rfl)
    cases kbuf with
    | none => cases hm
    | some kbuf =>
      cases kbuf with
      | other => cases hm
      | mapping m' =>
        obtain rfl := Option.some.inj hm
        have hflags : op.flags = RCH_KB_POOL := hflags
        refine .goes (e := e) hreserved ?_ ?_
        · show ((s.dev.buildRch e op.handler c _ op.flags t).rch e).path.isSome = true
          rw [buildRch, setRch_rch_self]
          rfl
        · show poolKbuf ((s.dev.buildRch e op.handler c _ op.flags t).rch e).rchReturn = _
          rw [buildRch, setRch_rch_self, hflags]
          exact if_pos (show RCH_KB_POOL &&& RCH_KB_POOL ≠ 0 by decide)

theorem mappingsKept_step (l : Label) (s s' : Sys) (h : MappingsKept s) (hown : OwnInv s)
    (hne : emptyWrite l s = false) (hs : Sys.step l s = some s') : MappingsKept s' := by
  have hrecycled : ∀ {d d' : Device} {e t}, d = s.dev → d.i2oRecycleRch e t = some d' →
      KeepsMappings s.dev d' := by
    rintro d d' e t rfl hd
    exact keepsMappings_recycled (recycled hd) h.reserved_lt
  have hflags : ∀ {c pc}, (s.clients c).pc = pc → pc.PoolFlags := fun hpc => hpc ▸ h.flags _
  cases trans_of_step hs with
  | oops =>
    exact h.move (c := 0) (keepsMappings_refl s.dev) (fun _ _ => rfl) (h.flags 0)
      fun m hm _ => .carries hm
  | neutral hl hslots hfree hposting hclosing => exact h.neutral hl hne hs hfree
  | sleepMapping hl hpc =>
    have hop := hflags hpc
    exact h.setPc (keepsMappings_refl _) hop (Or.inl (by rw [hpc]; rfl))
  | failMapping hl hpc =>
    exact h.setPc (keepsMappings_refl _) trivial (Or.inl (by rw [hpc]; rfl))
  | @failLen _ _ c op e t kbuf hl hpc =>
    refine h.setPc (keepsMappings_refl _) trivial (Or.inr ?_)
    rw [hpc]
    cases kbuf <;> rfl
  | @passLen _ _ c op e t kbuf hl hpc =>
    have hop := hflags hpc
    refine h.setPc (keepsMappings_refl _) ?_ (Or.inr ?_)
    · cases kbuf with
      | mapping m => exact hop
      | other => trivial
    · rw [hpc]
      cases kbuf <;> rfl
  | endWaitRead hl hpc =>
    exact h.setPc (keepsMappings_refl _) trivial (Or.inl (by rw [hpc]; rfl))
  | endWaitLast hl hpc =>
    exact h.setPc (keepsMappings_refl _) trivial (Or.inl (by rw [hpc]; rfl))
  | foundValid hpc hvalid =>
    exact h.setPc (keepsMappings_refl _) trivial (Or.inl (by rw [hpc]; rfl))
  | @allocRch _ _ c op asleep e client hl hpc hfree hlt hnext hslots =>
    have hkeep : KeepsMappings s.dev (s.dev.poolAllocRch e c) := by
      refine keepsMappings_of_rch rfl fun other hres hpath => ⟨?_, hpath, rfl⟩
      by_cases heq : other = e
      · rw [heq]
        exact Function.update_self e _ _
      · exact (Function.update_of_ne heq _ _).trans hres
    refine h.move (c := c) hkeep (fun o ho => Sys.setClient_of_ne _ ho _) ?_ ?_
    · rw [Sys.setClient_self, hnext]
      cases op <;> first | rfl | trivial
    · intro m hm
      rw [hpc] at hm
      cases hm
  | allocMapping hl hpc hfree hlt => exact h.allocMapping hpc hlt
  | @freeMapping _ c kbuf hpc =>
    cases kbuf with
    | other => exact h.setPc (keepsMappings_refl _) trivial (Or.inl (by rw [hpc]; rfl))
    | mapping m =>
      refine h.move (c := c) (keepsMappings_free m) (fun o ho => Sys.setClient_of_ne _ ho _)
        (by rw [Sys.setPc_self]; trivial) ?_
      intro m' hm hres
      rw [hpc] at hm
      obtain rfl := Option.some.inj hm
      have hres : (s.dev.mappings.free m).reserved m = true := hres
      rw [Pool.free_reserved_self _ (h.reserved_lt m (Pool.reserved_of_free hres))] at hres
      cases hres
  | build hpc hnext hslots => exact h.build hown hpc hnext
  | append hpc hd =>
    exact h.setPc (keepsMappings_append hd) trivial (Or.inl (by rw [hpc]; rfl))
  | @send _ c op e t kbuf predicted mfa hpc =>
    have hclients : ∀ o, (s.sendI2OKbuf e t kbuf predicted mfa).clients o = s.clients o := by
      cases mfa <;> exact fun _ => rfl
    have hkeep : KeepsMappings s.dev (s.sendI2OKbuf e t kbuf predicted mfa).dev := by
      cases mfa with
      | true => exact keepsMappings_of_rch rfl fun _ hres hpath => ⟨hres, hpath, rfl⟩
      | false => exact keepsMappings_refl _
    refine h.move (c := c) hkeep
      (fun o ho => (Sys.setClient_of_ne _ ho _).trans (hclients o)) ?_ ?_
    · rw [Sys.setPc_self]
      cases op with
      | queue buffer => cases buffer <;> trivial
      | _ => trivial
    · intro m hm
      rw [hpc] at hm
      cases hm
  | @removeIfNotValid _ c e t d valid hpc hd =>
    refine h.setPc (keepsMappings_removeIfNotValid hd) ?_ (Or.inl (by rw [hpc]; rfl))
    split <;> trivial
  | @recycleUnbuilt _ c e t kbuf d hpc hd =>
    match kbuf with
    | none | some .other =>
      exact h.setPc (hrecycled rfl hd) trivial (Or.inl (by rw [hpc]; rfl))
    | some (.mapping m) =>
      exact h.setPc (hrecycled rfl hd) trivial (Or.inr (by rw [hpc]; rfl))
  | recycleRead hpc hd =>
    exact h.setPc (hrecycled rfl hd) trivial (Or.inl (by rw [hpc]; rfl))
  | recycleLast hpc hd =>
    exact h.setPc (hrecycled rfl hd) trivial (Or.inl (by rw [hpc]; rfl))
  | @cleanup _ c e d hpc he hd =>
    exact h.move (c := c) (hrecycled rfl hd) (fun _ _ => rfl) (h.flags c)
      fun m hm _ => .carries hm
  | @recycleAB _ c recycleA recycleB e t d buffer client hpc hslot hd hslots hfree hopen =>
    refine h.move (c := c) (hrecycled rfl hd) (fun o ho => Sys.setClient_of_ne _ ho _) ?_ ?_
    · rw [Sys.setClient_self]
      exact poolFlags_of_entryFree hfree
    · intro m hm
      rw [hpc] at hm
      cases hm
  | answer hp =>
    exact h.move (c := 0) (keepsMappings_refl s.dev) (fun _ _ => rfl) (h.flags 0)
      fun m hm _ => .carries hm
  | dispatch hp hd =>
    exact h.move (c := 0) (keepsMappings_dispatch hown.dev h.reserved_lt hd) (fun _ _ => rfl)
      (h.flags 0) fun m hm _ => .carries hm

end Steps

/-! ## Runs -/

theorem mappingsKept_initial (lastId : BitVec 16) : MappingsKept (initial lastId) where
  reserved_lt := by
    intro m hm
    have hm : (m == MSG_MAPPING) = true := hm
    rw [beq_iff_eq.mp hm]
    show NMAPPINGS - 1 < NMAPPINGS
    decide
  flags := fun _ => trivial
  held := by
    intro m hm
    have hm : (m == MSG_MAPPING) = true := hm
    exact Or.inl (beq_iff_eq.mp hm)

/-- The steps that the invariants need: no write is empty, and a release does
not recycle a handler that is somebody else's by then. -/
def Orderly (l : Label) (s : Sys) : Prop :=
  emptyWrite l s = false ∧ SecondRecycleHarmless l s

instance (l : Label) (s : Sys) : Decidable (Orderly l s) :=
  inferInstanceAs (Decidable (_ ∧ _))

structure PoolsKept (s : Sys) : Prop where
  own : OwnInv s
  handlers : HandlersKept s
  mappings : MappingsKept s

theorem poolsKept_step (l : Label) (s s' : Sys) (h : PoolsKept s) (hok : Orderly l s)
    (hs : Sys.step l s = some s') : PoolsKept s' where
  own := ownInv_step h.own hok.2 (trans_of_step hs)
  handlers := handlersKept_step l s s' h.handlers hok.1 hs
  mappings := mappingsKept_step l s s' h.mappings h.own hok.1 hs

/-- A client with its file closed has nothing in hand. -/
theorem empty_of_closed {pc : Pc} (h : pc.isOpen = false) :
    pc.grips = none ∧ pc.appends = none ∧ pc.carriesMapping = none := by
  cases pc with
  | unopened | closed => exact ⟨rfl, rfl, rfl⟩
  | _ => cases h

/-- In every run in which no write is empty, and no release recycles the
handler of another request, the pools are free again as soon as every file
is closed, whatever the order of the steps, the signals and the timeouts. -/
theorem pools_free_when_closed {lastId : BitVec 16} {labels : List Label} {s : Sys}
    (hok : RunMeets Sys.step Orderly labels (initial lastId))
    (hrun : runFrom Sys.step labels (initial lastId) = some s)
    (hclosed : ∀ c, (s.clients c).pc.isOpen = false) :
    (∀ e, s.dev.handlers.reserved e = false) ∧
      ∀ m, s.dev.mappings.reserved m = true → m = MSG_MAPPING := by
  have hkept : PoolsKept s := runFrom_inv poolsKept_step
    ⟨ownInv_initial lastId, handlersKept_initial lastId, mappingsKept_initial lastId⟩ hok hrun
  have hfree : ∀ e, s.dev.handlers.reserved e ≠ true := by
    intro e he
    cases hkept.handlers.held e he with
    | @grips c hg =>
      rw [(empty_of_closed (hclosed c)).1] at hg
      cases hg
    | @appends c ha _ =>
      rw [(empty_of_closed (hclosed c)).2.1] at ha
      cases ha
    | @listed c _ _ hopen =>
      rw [hclosed c] at hopen
      cases hopen
  refine ⟨fun e => Bool.eq_false_iff.mpr (hfree e), ?_⟩
  intro m hm
  rcases hkept.mappings.held m hm with hmsg | holder
  · exact hmsg
  cases holder with
  | @carries c hcarries =>
    rw [(empty_of_closed (hclosed c)).2.2] at hcarries
    cases hcarries
  | @goes e hres _ _ => exact absurd hres (hfree e)

/-- A read is interrupted and its file closed before the card answers. -/
def abandonedRead : List Label :=
  [.openFile 0 .bridge, .call 0 .read, .go 0, .go 0, .check 0 false, .go 0, .go 0,
    .send 0 true, .signal 0, .go 0] ++ releaseLabels ++
    [.signal 0, .go 0, .go 0, .go 0, .go 0, .answer 0, .dispatch 0 7#32 0#32]

theorem pools_free_when_closed_abandonedRead :
    ∃ s, runFrom Sys.step abandonedRead (initial 0#16) = some s ∧
      (∀ c, (s.clients c).pc.isOpen = false) ∧ s.dev.frees.map Free.entry = [1, 2] ∧
      (∀ e, s.dev.handlers.reserved e = false) ∧
      ∀ m, s.dev.mappings.reserved m = true → m = MSG_MAPPING := by
  obtain ⟨s, hrun, hclosed, hfrees⟩ : ∃ s,
      runFrom Sys.step abandonedRead (initial 0#16) = some s ∧
        (∀ c, (s.clients c).pc.isOpen = false) ∧ s.dev.frees.map Free.entry = [1, 2] := by
    refine ⟨_, rfl, fun c => ?_, rfl⟩
    match c with
    | 0 => rfl
    | c + 1 => rfl
  exact ⟨s, hrun, hclosed, hfrees, pools_free_when_closed (by decide) hrun hclosed⟩

end Acq200.Rch
