import Mathlib.Data.List.Perm.Basic
import Acq200.Rch.Ownership

/-!
# The mapping that a message names

The card reads or writes the mapping whose offset a message carries until
it has answered the message.  `TargetsHeld` says that such a mapping is
reserved for the request of the message all that time.

A mapping goes with the handler of its request and is freed when the
handler is recycled.  Three steps can free one too early, and
`TargetsSafe` excludes them.  The cleanup on close recycles handlers whose
messages the card still has.  A reply recycles a handler with its id that
was built for another request.  And a handler keeps the `kbuf` pointer of
its previous use, so a recycle before `buildRch`, or the second recycle of
a release, frees a mapping that may belong to somebody else by then.

`targets_held` proves the contract for every run that meets the condition,
and `target_freed_on_close` is a run of an interrupted read and an
interrupted close in which the card is left with a mapping that is free.
-/

namespace Acq200.Rch

open Acq200.Lib Device

/-! ## The contract -/

/-- The mapping is reserved for the request. -/
def Held (d : Device) (m : Nat) (t : Tag) : Prop :=
  d.mappings.reserved m = true ∧ d.mappingOwner m = some t

instance (d : Device) (m : Nat) (t : Tag) : Decidable (Held d m t) :=
  inferInstanceAs (Decidable (_ ∧ _))

/-- The mapping of every message that the card has not answered is reserved
for its request. -/
def TargetsHeld (s : Sys) : Prop :=
  ∀ p ∈ s.unanswered, ∀ m ∈ p.target, Held s.dev m p.request

/-- The client that closes its file and is about to recycle a handler. -/
def Pc.cleans : Pc → Bool
  | .cleanup => true
  | _ => false

/-- A close recycles no handler of a message that names a mapping and that
the card has not answered. -/
def CloseAfterAnswer (l : Label) (s : Sys) : Prop :=
  ∀ c ∈ l.goes, (s.clients c).pc.cleans = true → ∀ e ∈ s.dev.cleanupRch c,
    ∀ p ∈ s.unanswered, p.target.isSome = true → p.request ≠ (s.dev.rch e).request

/-- The reply that is dispatched. -/
def Label.reply (s : Sys) : Label → Option Posted
  | .dispatch n _ _ => s.replies[n]?
  | _ => none

/-- A reply finds the handler of its own request, or none. -/
def ReplyFindsOwn (l : Label) (s : Sys) : Prop :=
  ∀ p ∈ l.reply s, ∀ e ∈ s.dev.findRch p.id, (s.dev.rch e).request = p.request

/-- The handler that is about to be recycled with what its previous use left
in it. -/
def Pc.staleEntry : Pc → Option Nat
  | .recycleUnbuilt e _ _ | .recycleLast e _ => some e
  | _ => none

/-- What a handler was left with names no mapping that is reserved. -/
def StaleUnreserved (l : Label) (s : Sys) : Prop :=
  ∀ c ∈ l.goes, ∀ e ∈ (s.clients c).pc.staleEntry,
    ∀ m ∈ kbufTarget (poolKbuf (s.dev.rch e).rchReturn),
      s.dev.mappings.reserved m = false

/-- The steps that free no mapping too early. -/
structure TargetsSafe (l : Label) (s : Sys) : Prop where
  close : CloseAfterAnswer l s
  reply : ReplyFindsOwn l s
  stale : StaleUnreserved l s
  last : SecondRecycleHarmless l s

instance (l : Label) (s : Sys) : Decidable (TargetsSafe l s) :=
  have : Decidable (CloseAfterAnswer l s) := inferInstanceAs (Decidable
    (∀ c ∈ l.goes, (s.clients c).pc.cleans = true → ∀ e ∈ s.dev.cleanupRch c,
      ∀ p ∈ s.unanswered, p.target.isSome = true →
        p.request ≠ (s.dev.rch e).request))
  have : Decidable (ReplyFindsOwn l s) := inferInstanceAs (Decidable
    (∀ p ∈ l.reply s, ∀ e ∈ s.dev.findRch p.id, (s.dev.rch e).request = p.request))
  have : Decidable (StaleUnreserved l s) := inferInstanceAs (Decidable
    (∀ c ∈ l.goes, ∀ e ∈ (s.clients c).pc.staleEntry,
      ∀ m ∈ kbufTarget (poolKbuf (s.dev.rch e).rchReturn),
        s.dev.mappings.reserved m = false))
  decidable_of_iff (CloseAfterAnswer l s ∧ ReplyFindsOwn l s ∧ StaleUnreserved l s ∧
      SecondRecycleHarmless l s)
    ⟨fun ⟨h₁, h₂, h₃, h₄⟩ => ⟨h₁, h₂, h₃, h₄⟩,
      fun ⟨h₁, h₂, h₃, h₄⟩ => ⟨h₁, h₂, h₃, h₄⟩⟩

/-! ## The invariant -/

/-- The handler is built for the request, and the mapping goes with it. -/
def Carries (d : Device) (e : Nat) (t : Tag) (m : Nat) : Prop :=
  d.owner e = some t ∧ (d.rch e).path.isSome = true ∧
    poolKbuf (d.rch e).rchReturn = some (.mapping m)

/-- A request of client `c` that has no message yet. -/
def Unsent (s : Sys) (c : Nat) (t : Tag) : Prop :=
  t.client = c ∧ ∀ p ∈ s.unanswered ++ s.replies, p.request ≠ t

/-- The handler of a message that is about to be sent. -/
def BuiltFor (d : Device) (e : Nat) (t : Tag) (kbuf : Option Kbuf) : Prop :=
  d.owner e = some t ∧ (d.rch e).path.isSome = true ∧
    (d.rch e).rchReturn.valid = 0 ∧
    ∀ m, kbuf = some (.mapping m) → poolKbuf (d.rch e).rchReturn = some (.mapping m)

/-- What a client relies on about its mapping. -/
def PcDma (s : Sys) (c : Nat) : Pc → Prop
  | .allocMapping op _ t _ => Unsent s c t ∧ op.flags = RCH_KB_POOL
  | .checkLen op _ t kbuf =>
    Unsent s c t ∧
      ∀ m, kbuf = .mapping m → Held s.dev m t ∧ op.flags = RCH_KB_POOL
  | .build op _ t kbuf =>
    Unsent s c t ∧
      ∀ m, kbuf = some (.mapping m) → Held s.dev m t ∧ op.flags = RCH_KB_POOL
  | .recycleUnbuilt _ t kbuf =>
    Unsent s c t ∧ ∀ m, kbuf = some (.mapping m) → Held s.dev m t
  | .freeMapping kbuf =>
    ∀ m, kbuf = .mapping m →
      ∃ t, t.client = c ∧ Held s.dev m t ∧ ∀ e, s.dev.owner e ≠ some t
  | .append _ e t kbuf _ | .send _ e t kbuf _ =>
    Unsent s c t ∧ BuiltFor s.dev e t kbuf
  | .recycleRead _ t =>
    t.client = c ∧ ∀ p ∈ s.unanswered, p.target.isSome = true → p.request ≠ t
  | _ => True

structure DmaInv (s : Sys) : Prop where
  carried : ∀ e t m, Carries s.dev e t m → Held s.dev m t
  held_lt : ∀ m t, s.dev.mappingOwner m = some t → t.seq < s.dev.allocs
  /-- The handlers in `rchAB` have no mapping of the pool. -/
  held_slot : ∀ m t, s.dev.mappingOwner m = some t →
    ∀ buffer e, (s.clients t.client).rchAB buffer ≠ some (e, t)
  pc : ∀ c, PcDma s c (s.clients c).pc
  sent : ∀ p ∈ s.unanswered, ∀ m ∈ p.target,
    Carries s.dev p.entry p.request m ∧
      (s.dev.rch p.entry).rchReturn.valid = 0
  nodup : ((s.unanswered ++ s.replies).map Posted.request).Nodup
  request_lt : ∀ p ∈ s.unanswered ++ s.replies, p.request.seq < s.dev.allocs

theorem dmaInv_initial (lastId : BitVec 16) : DmaInv (initial lastId) where
  carried := fun _ _ _ h => by cases h.1
  held_lt := fun _ _ h => by cases h
  held_slot := fun _ _ h => by cases h
  pc := fun _ => trivial
  sent := fun _ h => by cases h
  nodup := List.nodup_nil
  request_lt := fun _ h => by cases h

/-- The invariant gives the contract. -/
theorem DmaInv.targetsHeld {s : Sys} (h : DmaInv s) : TargetsHeld s :=
  fun p hp m hm => h.carried p.entry p.request m (h.sent p hp m hm).1

/-! ## The pools in a step -/

theorem poolAllocRch_owner (d : Device) (e client : Nat) :
    (d.poolAllocRch e client).owner =
      Function.update d.owner e (some ⟨client, d.allocs⟩) := rfl

theorem poolAllocMapping_reserved (d : Device) (m : Nat) (t : Tag) :
    (d.poolAllocMapping m t).mappings.reserved =
      Function.update d.mappings.reserved m true := rfl

theorem poolAllocMapping_owner (d : Device) (m : Nat) (t : Tag) :
    (d.poolAllocMapping m t).mappingOwner =
      Function.update d.mappingOwner m (some t) := rfl

theorem poolFreeMapping_mappings (d : Device) (m : Nat) :
    (d.poolFreeMapping (.mapping m)).mappings = d.mappings.free m := rfl

theorem poolFreeMapping_owner (d : Device) (m : Nat) :
    (d.poolFreeMapping (.mapping m)).mappingOwner =
      Function.update d.mappingOwner m none := rfl

theorem held_poolAllocMapping (d : Device) (m : Nat) (t : Tag) :
    Held (d.poolAllocMapping m t) m t := by
  rw [Held, poolAllocMapping_reserved, poolAllocMapping_owner, Function.update_self,
    Function.update_self]
  exact ⟨rfl, rfl⟩

/-- The allocation of a mapping leaves the reserved ones alone. -/
theorem Held.alloc {d : Device} {m other : Nat} {t t' : Tag} (h : Held d other t')
    (hfree : d.mappings.reserved m = false) :
    Held (d.poolAllocMapping m t) other t' := by
  have hne : other ≠ m := by
    rintro rfl
    rw [h.1] at hfree
    cases hfree
  rw [Held, poolAllocMapping_reserved, poolAllocMapping_owner,
    Function.update_of_ne hne, Function.update_of_ne hne]
  exact h

theorem Held.free {d : Device} {m other : Nat} {t : Tag} (h : Held d other t)
    (hne : other ≠ m) : Held (d.poolFreeMapping (.mapping m)) other t := by
  rw [Held, poolFreeMapping_mappings, poolFreeMapping_owner,
    Pool.free_reserved_of_ne _ hne, Function.update_of_ne hne]
  exact h

theorem mappingOwner_of_free {d : Device} {m other : Nat} {t : Tag}
    (h : (d.poolFreeMapping (.mapping m)).mappingOwner other = some t) :
    d.mappingOwner other = some t := by
  by_cases heq : other = m
  · rw [heq, poolFreeMapping_owner, Function.update_self] at h
    cases h
  · rw [poolFreeMapping_owner, Function.update_of_ne heq] at h
    exact h

/-! ## Frames -/

section Frame

variable {s s' : Sys} {d d' : Device} {c e : Nat}

/-- The handler of a message that the client is about to send. -/
def Pc.built : Pc → Option (Nat × Tag × Option Kbuf)
  | .append _ e t kbuf _ | .send _ e t kbuf _ => some (e, t, kbuf)
  | _ => none

/-- What client `c` relies on in `s` it can rely on in `s'`.  A mapping that
goes with no handler stays with its request. -/
theorem PcDma.mono {pc : Pc} (h : PcDma s c pc)
    (hpc : PcInv s.dev c (s.clients c).rchAB pc) (hinv : DevInv s.dev)
    (hout : ∀ p ∈ s'.unanswered ++ s'.replies,
      p ∈ s.unanswered ++ s.replies ∨ p.request.client ≠ c)
    (hun : ∀ p ∈ s'.unanswered, p ∈ s.unanswered ∨ p.request.client ≠ c)
    (hheld : ∀ m t, t.client = c → Held s.dev m t →
      (∀ e, s.dev.owner e = some t → (s.dev.rch e).path = none) → Held s'.dev m t)
    (howner : ∀ m t, t.client = c → Held s.dev m t →
      (∀ e, s.dev.owner e ≠ some t) → ∀ e, s'.dev.owner e ≠ some t)
    (hbuilt : ∀ e t kbuf, pc.built = some (e, t, kbuf) →
      BuiltFor s.dev e t kbuf → BuiltFor s'.dev e t kbuf) : PcDma s' c pc := by
  have hunsent : ∀ t, Unsent s c t → Unsent s' c t := by
    rintro t ⟨hclient, hne⟩
    refine ⟨hclient, fun p hp => ?_⟩
    rcases hout p hp with hold | hother
    · exact hne p hold
    · rintro rfl
      exact hother hclient
  -- The handler of an unbuilt request is the only one it owns.
  have hkept : ∀ m e t, t.client = c → Unbuilt s.dev e t → Held s.dev m t →
      Held s'.dev m t := by
    intro m e t hclient hu hm
    refine hheld m t hclient hm fun other ho => ?_
    rw [hinv.owner_inj other e t ho hu.1]
    exact hu.2.2
  cases pc with
  | allocMapping op e t asleep => exact ⟨hunsent t h.1, h.2⟩
  | checkLen op e t kbuf =>
    refine ⟨hunsent t h.1, fun m hm => ?_⟩
    exact ⟨hkept m e t hpc.1 hpc.2.1 (h.2 m hm).1, (h.2 m hm).2⟩
  | build op e t kbuf =>
    refine ⟨hunsent t h.1, fun m hm => ?_⟩
    exact ⟨hkept m e t hpc.1 hpc.2.1 (h.2 m hm).1, (h.2 m hm).2⟩
  | recycleUnbuilt e t kbuf =>
    exact ⟨hunsent t h.1, fun m hm => hkept m e t hpc.1 hpc.2 (h.2 m hm)⟩
  | freeMapping kbuf =>
    intro m hm
    obtain ⟨t, hclient, hold, hnone⟩ := h m hm
    exact ⟨t, hclient, hheld m t hclient hold fun e ho => absurd ho (hnone e),
      howner m t hclient hold hnone⟩
  | append op e t kbuf predicted | send op e t kbuf predicted =>
    exact ⟨hunsent t h.1, hbuilt e t kbuf rfl h.2⟩
  | recycleRead e t =>
    refine ⟨h.1, fun p hp htarget => ?_⟩
    rcases hun p hp with hold | hother
    · exact h.2 p hold htarget
    · rintro rfl
      exact hother h.1
  | _ => trivial

/-- A step on the handler in entry `e`.  The mappings that go with other
handlers, or with none, stay with their requests. -/
structure EntryStep (d d' : Device) (e : Nat) : Prop where
  keeps : KeepsOthers d d' e
  held : ∀ m t, Held d m t → (d.owner e = some t → (d.rch e).path = none) →
    Held d' m t
  mappingOwner : ∀ m t, d'.mappingOwner m = some t → d.mappingOwner m = some t
  owner : ∀ t, d'.owner e = some t → d.owner e = some t ∨ t.seq = d.allocs
  allocs : d.allocs ≤ d'.allocs
  carries : ∀ t m, Carries d' e t m → Held d' m t

theorem EntryStep.carries_iff (h : EntryStep d d' e) {other m : Nat} {t : Tag}
    (hne : other ≠ e) : Carries d' other t m ↔ Carries d other t m := by
  obtain ⟨hrch, howner, _⟩ := h.keeps other hne
  rw [Carries, Carries, hrch, howner]

/-- Every mapping that goes with a handler stays reserved for its request. -/
theorem EntryStep.carried (h : EntryStep d d' e) (hinv : DevInv d)
    (hcarried : ∀ e t m, Carries d e t m → Held d m t) :
    ∀ e t m, Carries d' e t m → Held d' m t := by
  intro other t m hc
  by_cases heq : other = e
  · rw [heq] at hc
    exact h.carries t m hc
  · have hold := (h.carries_iff heq).mp hc
    refine h.held m t (hcarried other t m hold) fun ho => ?_
    exact absurd (hinv.owner_inj other e t hold.1 ho) heq

/-- A request that has no handler any more gets none. -/
theorem EntryStep.not_owner (h : EntryStep d d' e) {t : Tag} (hlt : t.seq < d.allocs)
    (hnone : ∀ e, d.owner e ≠ some t) : ∀ e, d'.owner e ≠ some t := by
  intro other ho
  by_cases heq : other = e
  · rw [heq] at ho
    rcases h.owner t ho with hold | hnew
    · exact hnone e hold
    · omega
  · exact hnone other ((h.keeps other heq).2.1 ▸ ho)

theorem DmaInv.entryStep (h : DmaInv s) (hown : OwnInv s)
    (hstep : EntryStep s.dev d e)
    (hsent : ∀ p ∈ s.unanswered, ∀ m ∈ p.target, s.dev.owner e = some p.request →
      Carries s.dev e p.request m → (s.dev.rch e).rchReturn.valid = 0 →
      Carries d e p.request m ∧ (d.rch e).rchReturn.valid = 0)
    (hbuilt : ∀ c t kbuf, (s.clients c).pc.built = some (e, t, kbuf) →
      BuiltFor s.dev e t kbuf → BuiltFor d e t kbuf) :
    DmaInv { s with dev := d } := by
  refine ⟨hstep.carried hown.dev h.carried, ?_, ?_, ?_, ?_, h.nodup, ?_⟩
  · intro m t ho
    exact Nat.lt_of_lt_of_le (h.held_lt m t (hstep.mappingOwner m t ho)) hstep.allocs
  · intro m t ho
    exact h.held_slot m t (hstep.mappingOwner m t ho)
  · intro c
    refine (h.pc c).mono (hown.client c).pcInv hown.dev (fun p hp => Or.inl hp)
      (fun p hp => Or.inl hp) ?_ ?_ ?_
    · intro m t _ hm hnone
      exact hstep.held m t hm (hnone e)
    · intro m t _ hm hnone
      exact hstep.not_owner (h.held_lt m t hm.2) hnone
    · intro other t kbuf hpc hb
      by_cases heq : other = e
      · rw [heq] at hpc hb ⊢
        exact hbuilt c t kbuf hpc hb
      · obtain ⟨hrch, howner, _⟩ := hstep.keeps other heq
        rw [BuiltFor, hrch, howner]
        exact hb
  · intro p hp m hm
    obtain ⟨hc, hvalid⟩ := h.sent p hp m hm
    by_cases heq : p.entry = e
    · rw [heq] at hc hvalid ⊢
      exact hsent p hp m hm hc.1 hc hvalid
    · refine ⟨(hstep.carries_iff heq).mpr hc, ?_⟩
      rw [(hstep.keeps _ heq).1]
      exact hvalid
  · intro p hp
    exact Nat.lt_of_lt_of_le (h.request_lt p hp) hstep.allocs

/-- A client moves on. -/
theorem DmaInv.move (h : DmaInv s) {client : Client} {b : Bool}
    (hslots : ∀ m t, s.dev.mappingOwner m = some t → t.client = c →
      ∀ buffer e, client.rchAB buffer ≠ some (e, t))
    (hpc : PcDma s c client.pc) :
    DmaInv ({ s with busyFree := b }.setClient c client) := by
  refine ⟨h.carried, h.held_lt, ?_, ?_, h.sent, h.nodup, h.request_lt⟩
  · intro m t ho buffer e
    by_cases heq : t.client = c
    · rw [heq, Sys.setClient_self]
      exact hslots m t ho heq buffer e
    · rw [Sys.setClient_of_ne _ heq]
      exact h.held_slot m t ho buffer e
  · intro other
    by_cases heq : other = c
    · rw [heq, Sys.setClient_self]
      exact hpc
    · rw [Sys.setClient_of_ne _ heq]
      exact h.pc other

/-- A client that keeps its handlers in `rchAB`. -/
theorem DmaInv.moveKeeping (h : DmaInv s) {client : Client} {b : Bool}
    (hslots : client.rchAB = (s.clients c).rchAB) (hpc : PcDma s c client.pc) :
    DmaInv ({ s with busyFree := b }.setClient c client) := by
  refine h.move ?_ hpc
  rintro m t ho rfl
  rw [hslots]
  exact h.held_slot m t ho

theorem DmaInv.setPc (h : DmaInv s) {pc : Pc} (hpc : PcDma s c pc) :
    DmaInv (s.setPc c pc) :=
  h.moveKeeping (b := s.busyFree) rfl hpc

theorem PcDma.of_entryFree {pc : Pc} (h : pc.entryFree = true) : PcDma s c pc := by
  cases pc <;> trivial

theorem PcDma.afterSend (op : Op) (e : Nat) (t : Tag) :
    PcDma s c (Sys.afterSend op e t) := by
  rcases op with _ | _ | _ | (_ | _) | _ <;> trivial

end Frame

/-! ## Steps -/

section Steps

variable {s s' : Sys} {d d' : Device} {c e : Nat} {t : Tag}

/-- What a recycle does to the pool of mappings. -/
theorem mappings_recycled {caller : Tag} (hrec : Recycled d d' e caller) :
    (∃ m, poolKbuf (d.rch e).rchReturn = some (.mapping m) ∧
        d'.mappings = d.mappings.free m ∧
        d'.mappingOwner = Function.update d.mappingOwner m none) ∨
      d'.mappings = d.mappings ∧ d'.mappingOwner = d.mappingOwner := by
  have hmappings := hrec.mappings
  cases hk : poolKbuf (d.rch e).rchReturn with
  | none =>
    rw [hk] at hmappings
    exact Or.inr (Prod.mk.inj hmappings)
  | some kbuf =>
    rw [hk] at hmappings
    cases kbuf with
    | other => exact Or.inr (Prod.mk.inj hmappings)
    | mapping m => exact Or.inl ⟨m, rfl, Prod.mk.inj hmappings⟩

/-- A recycle frees the mapping that goes with the handler, or one that is
not reserved, or none. -/
theorem entryStep_recycled {caller : Tag} (hrec : Recycled d d' e caller)
    (hmap : ∀ m, poolKbuf (d.rch e).rchReturn = some (.mapping m) →
      d.mappings.reserved m = false ∨ ∃ t, Carries d e t m ∧ Held d m t) :
    EntryStep d d' e := by
  have hnone : ∀ t, d'.owner e ≠ some t := by
    intro t ho
    rw [hrec.owner] at ho
    cases ho
  refine ⟨hrec.keeps, ?_, ?_, fun t ho => absurd ho (hnone t),
    Nat.le_of_eq hrec.allocs.symm, fun t _ hc => absurd hc.1 (hnone t)⟩
  · intro m t hm hpath
    rcases mappings_recycled hrec with ⟨freed, hk, h₁, h₂⟩ | ⟨h₁, h₂⟩
    · have hne : m ≠ freed := by
        rintro rfl
        rcases hmap m hk with hfree | ⟨t', ⟨ho, hsome, _⟩, hheld⟩
        · rw [hm.1] at hfree
          cases hfree
        · obtain rfl := Option.some.inj (hm.2.symm.trans hheld.2)
          rw [hpath ho] at hsome
          cases hsome
      rw [Held, h₁, h₂, Pool.free_reserved_of_ne _ hne, Function.update_of_ne hne]
      exact hm
    · rw [Held, h₁, h₂]
      exact hm
  · intro m t ho
    rcases mappings_recycled hrec with ⟨freed, _, _, h₂⟩ | ⟨_, h₂⟩
    · rw [h₂] at ho
      by_cases heq : m = freed
      · rw [heq, Function.update_self] at ho
        cases ho
      · rw [Function.update_of_ne heq] at ho
        exact ho
    · rw [← h₂]
      exact ho

/-- A step that changes no pool. -/
theorem entryStep_samePools (hk : KeepsOthers d d' e) (hp : SamePools d d')
    (hcarries : ∀ t m, Carries d' e t m → Held d m t) : EntryStep d d' e := by
  have hheld : ∀ m t, Held d' m t ↔ Held d m t := by
    intro m t
    rw [Held, Held, hp.mappings, hp.mappingOwner]
  refine ⟨hk, fun m t hm _ => (hheld m t).mpr hm, ?_, ?_,
    Nat.le_of_eq hp.allocs.symm, fun t m hc => (hheld m t).mpr (hcarries t m hc)⟩
  · intro m t ho
    rw [← hp.mappingOwner]
    exact ho
  · intro t ho
    rw [← hp.owner]
    exact Or.inl ho

theorem entryStep_alloc (hpath : (d.rch e).path = none) (client : Nat) :
    EntryStep d (d.poolAllocRch e client) e := by
  refine ⟨keepsOthers_alloc d e client, fun m t hm _ => hm, fun m t ho => ho, ?_,
    Nat.le_succ _, ?_⟩
  · intro t ho
    rw [poolAllocRch_owner, Function.update_self] at ho
    exact Or.inr (Option.some.inj ho ▸ rfl)
  · rintro t m ⟨_, hsome, _⟩
    rw [show ((d.poolAllocRch e client).rch e).path = none from hpath] at hsome
    cases hsome

/-- The handler is built with a mapping that is reserved for its request. -/
theorem entryStep_build {handler : Handler} {kbuf : Option Kbuf} {flags : Nat}
    (ho : d.owner e = some t) (hkbuf : ∀ m, kbuf = some (.mapping m) → Held d m t) :
    EntryStep d (d.buildRch e handler c kbuf flags t) e := by
  refine entryStep_samePools (keepsOthers_setRch d e _)
    ⟨rfl, rfl, rfl, rfl, rfl, rfl, rfl⟩ ?_
  rintro t' m ⟨ho', _, hm⟩
  obtain rfl := Option.some.inj (ho.symm.trans ho')
  rw [buildRch, setRch_rch_self, poolKbuf] at hm
  split at hm
  · exact hkbuf m hm
  · cases hm

/-- The request whose handler was recycled has none. -/
theorem not_owner_recycled {caller : Tag} (hrec : Recycled d d' e caller)
    (hinv : DevInv d) (ho : d.owner e = some t) : ∀ other, d'.owner other ≠ some t := by
  intro other ho'
  by_cases heq : other = e
  · rw [heq, hrec.owner] at ho'
    cases ho'
  · exact heq (hinv.owner_inj other e t ((hrec.keeps other heq).2.1.symm.trans ho') ho)

/-- A recycle of a handler whose message, if it names a mapping, has been
answered, and that is not about to be sent. -/
theorem DmaInv.recycled {caller : Tag} (h : DmaInv s) (hown : OwnInv s)
    (hrec : Recycled s.dev d e caller)
    (hmap : ∀ m, poolKbuf (s.dev.rch e).rchReturn = some (.mapping m) →
      s.dev.mappings.reserved m = false ∨ ∃ t, Carries s.dev e t m)
    (hsent : ∀ p ∈ s.unanswered, p.target.isSome = true →
      s.dev.owner e ≠ some p.request)
    (hbuilt : ∀ c t kbuf, (s.clients c).pc.built = some (e, t, kbuf) →
      s.dev.owner e ≠ some t) :
    DmaInv { s with dev := d } := by
  refine h.entryStep hown (entryStep_recycled hrec ?_) ?_ ?_
  · intro m hm
    rcases hmap m hm with hfree | ⟨t, hc⟩
    · exact Or.inl hfree
    · exact Or.inr ⟨t, hc, h.carried e t m hc⟩
  · intro p hp m hm ho
    exact absurd ho (hsent p hp (Option.isSome_iff_exists.mpr ⟨m, hm⟩))
  · intro c t kbuf hpc hb
    exact absurd hb.1 (hbuilt c t kbuf hpc)

/-- The client that is about to send a message. -/
theorem DmaInv.unsent {kbuf : Option Kbuf} (h : DmaInv s)
    (hb : (s.clients c).pc.built = some (e, t, kbuf)) : Unsent s c t := by
  have hinv := h.pc c
  cases hpc : (s.clients c).pc with
  | append op e' t' kbuf' predicted | send op e' t' kbuf' predicted =>
    rw [hpc] at hb hinv
    cases hb
    exact hinv.1
  | _ =>
    rw [hpc] at hb
    cases hb

/-- A client that has a handler in hand is not about to send another. -/
theorem DmaInv.not_built (h : DmaInv s) (ho : s.dev.owner e = some t)
    (hclient : t.client = c) (hpc : (s.clients c).pc.built = none) :
    ∀ other t' kbuf, (s.clients other).pc.built = some (e, t', kbuf) →
      s.dev.owner e ≠ some t' := by
  intro other t' kbuf hb ho'
  obtain rfl := Option.some.inj (ho.symm.trans ho')
  rw [← (h.unsent hb).1, hclient, hpc] at hb
  cases hb

theorem DmaInv.allocRch {op : Op} {client : Client} (h : DmaInv s) (hown : OwnInv s)
    (hfree : s.dev.handlers.reserved e = false)
    (hnext : client.pc = Sys.afterAllocRch op e ⟨c, s.dev.allocs⟩)
    (hslots : client.rchAB =
      Sys.slotsAfterAlloc op (s.clients c).rchAB e ⟨c, s.dev.allocs⟩) :
    DmaInv ({ s with dev := s.dev.poolAllocRch e c }.setClient c client) := by
  have hnone := hown.dev.owner_none hfree
  have hpath := hown.dev.free_path e hnone
  have hdma : DmaInv { s with dev := s.dev.poolAllocRch e c } := by
    refine h.entryStep hown (entryStep_alloc hpath c) ?_ ?_
    · intro p _ m _ ho
      rw [hnone] at ho
      cases ho
    · intro c t kbuf _ hb
      rw [BuiltFor, hnone] at hb
      cases hb.1
  have hunsent : Unsent { s with dev := s.dev.poolAllocRch e c } c ⟨c, s.dev.allocs⟩ := by
    refine ⟨rfl, fun p hp heq => ?_⟩
    have hlt := h.request_lt p hp
    rw [heq] at hlt
    exact Nat.lt_irrefl _ hlt
  refine hdma.move (b := s.busyFree) ?_ ?_
  · intro m t ho hclient buffer e' hslot
    have hold := h.held_slot m t ho
    rw [hclient] at hold
    rw [hslots] at hslot
    cases op with
    | queue queued =>
      rw [Sys.slotsAfterAlloc] at hslot
      by_cases heq : buffer = queued
      · rw [heq, Function.update_self] at hslot
        cases hslot
        exact Nat.lt_irrefl _ (h.held_lt m _ ho)
      · rw [Function.update_of_ne heq] at hslot
        exact hold buffer e' hslot
    | _ => exact hold buffer e' hslot
  · rw [hnext]
    cases op with
    | read | write => exact ⟨hunsent, rfl⟩
    | readAB | queue _ | release => exact ⟨hunsent, fun m hm => by cases hm⟩

/-- A step of client `c` on the pool of mappings. -/
theorem DmaInv.mappingStep {pc : Pc} (h : DmaInv s) (hown : OwnInv s)
    (hrch : d.rch = s.dev.rch) (howner : d.owner = s.dev.owner)
    (hallocs : d.allocs = s.dev.allocs)
    (hheld : ∀ m t, Held s.dev m t →
      (t.client ≠ c ∨ ∃ e, s.dev.owner e = some t ∧ (s.dev.rch e).path.isSome = true) →
      Held d m t)
    (hmapping : ∀ m t, d.mappingOwner m = some t → t.seq < s.dev.allocs ∧
      ∀ buffer e, (s.clients t.client).rchAB buffer ≠ some (e, t))
    (hpc : PcDma { s with dev := d } c pc) :
    DmaInv ({ s with dev := d }.setPc c pc) := by
  refine ⟨?_, ?_, ?_, ?_, ?_, h.nodup, ?_⟩
  · intro e t m hc
    have hold : Carries s.dev e t m := by
      rw [Carries, ← hrch, ← howner]
      exact hc
    exact hheld m t (h.carried e t m hold) (Or.inr ⟨e, hold.1, hold.2.1⟩)
  · intro m t ho
    exact hallocs.symm ▸ (hmapping m t ho).1
  · intro m t ho buffer e
    have hold := (hmapping m t ho).2 buffer e
    by_cases heq : t.client = c
    · rw [heq, Sys.setPc_self]
      rw [heq] at hold
      exact hold
    · rw [Sys.setPc, Sys.setClient_of_ne _ heq]
      exact hold
  · intro other
    by_cases heq : other = c
    · rw [heq, Sys.setPc_self]
      exact hpc
    · rw [Sys.setPc, Sys.setClient_of_ne _ heq]
      refine (h.pc other).mono (hown.client other).pcInv hown.dev
        (fun p hp => Or.inl hp) (fun p hp => Or.inl hp) ?_ ?_ ?_
      · intro m t hclient hm _
        exact hheld m t hm (Or.inl (hclient.symm ▸ heq))
      · intro m t _ _ hnone e
        show d.owner e ≠ some t
        rw [howner]
        exact hnone e
      · intro e t kbuf _ hb
        show BuiltFor d e t kbuf
        rw [BuiltFor, hrch, howner]
        exact hb
  · intro p hp m hm
    show Carries d _ _ _ ∧ (d.rch p.entry).rchReturn.valid = 0
    rw [Carries, hrch, howner]
    exact h.sent p hp m hm
  · intro p hp
    show p.request.seq < d.allocs
    rw [hallocs]
    exact h.request_lt p hp

theorem DmaInv.allocMapping {op : Op} {asleep : Option Nat} {m : Nat} (h : DmaInv s)
    (hown : OwnInv s) (hpc : (s.clients c).pc = .allocMapping op e t asleep)
    (hfree : s.dev.mappings.reserved m = false) :
    DmaInv ({ s with dev := s.dev.poolAllocMapping m t }.setPc c
      (.checkLen op e t (.mapping m))) := by
  obtain ⟨hclient, hunbuilt, hop⟩ := hown.pcInv hpc
  have hinv := h.pc c
  rw [hpc] at hinv
  refine h.mappingStep hown rfl rfl rfl ?_ ?_ ⟨hinv.1, ?_⟩
  · exact fun _ _ hm _ => hm.alloc hfree
  · intro other t' ho
    by_cases heq : other = m
    · rw [heq, poolAllocMapping_owner, Function.update_self] at ho
      obtain rfl := Option.some.inj ho
      refine ⟨(hown.dev.owner_lt e t hunbuilt.1).2, ?_⟩
      rw [hclient]
      exact (hown.client c).slot_ne t (by rw [hpc]; exact Op.request_eq hop)
    · rw [poolAllocMapping_owner, Function.update_of_ne heq] at ho
      exact ⟨h.held_lt other t' ho, h.held_slot other t' ho⟩
  · rintro m' hm
    cases hm
    exact ⟨held_poolAllocMapping s.dev m t, hinv.2⟩

theorem DmaInv.freeMapping {kbuf : Kbuf} (h : DmaInv s) (hown : OwnInv s)
    (hpc : (s.clients c).pc = .freeMapping kbuf) :
    DmaInv ({ s with dev := s.dev.poolFreeMapping kbuf }.setPc c .idle) := by
  cases kbuf with
  | other => exact h.setPc trivial
  | mapping m =>
    have hinv := h.pc c
    rw [hpc] at hinv
    obtain ⟨t, hclient, hheld, hnone⟩ := hinv m rfl
    refine h.mappingStep hown rfl rfl rfl ?_ ?_ trivial
    · intro other t' hm hkept
      refine hm.free ?_
      rintro rfl
      obtain rfl := Option.some.inj (hm.2.symm.trans hheld.2)
      rcases hkept with hother | ⟨e, ho, _⟩
      · exact hother hclient
      · exact hnone e ho
    · intro other t' ho
      have hold := mappingOwner_of_free ho
      exact ⟨h.held_lt other t' hold, h.held_slot other t' hold⟩

theorem DmaInv.build {op : Op} {kbuf : Option Kbuf} {client : Client}
    {predicted : Predicted} (h : DmaInv s) (hown : OwnInv s)
    (hpc : (s.clients c).pc = .build op e t kbuf)
    (hnext : client.pc = .append op e t kbuf predicted)
    (hslots : client.rchAB = (s.clients c).rchAB) :
    DmaInv ({ s with
      dev := s.dev.buildRch e op.handler c kbuf op.flags t }.setClient c client) := by
  obtain ⟨hclient, hunbuilt, _⟩ := hown.pcInv hpc
  have hinv := h.pc c
  rw [hpc] at hinv
  have hself : ∃ r : RchReturn, r.valid = 0 ∧ r.kbuf = kbuf ∧ r.flags = op.flags ∧
      ((s.dev.buildRch e op.handler c kbuf op.flags t).rch e).rchReturn = r ∧
      ((s.dev.buildRch e op.handler c kbuf op.flags t).rch e).path = some c := by
    rw [buildRch, setRch_rch_self]
    exact ⟨_, rfl, rfl, rfl, rfl, rfl⟩
  obtain ⟨r, hvalid, hkbuf, hflags, hreturn, hpath⟩ := hself
  have hnopath : (s.dev.rch e).path.isSome ≠ true := by
    rw [hunbuilt.2.2]
    exact Bool.false_ne_true
  have hdma : DmaInv
      { s with dev := s.dev.buildRch e op.handler c kbuf op.flags t } := by
    refine h.entryStep hown
      (entryStep_build hunbuilt.1 fun m hm => (hinv.2 m hm).1) ?_ ?_
    · exact fun _ _ _ _ _ hc => absurd hc.2.1 hnopath
    · exact fun _ _ _ _ hb => absurd hb.2.1 hnopath
  refine hdma.moveKeeping (b := s.busyFree) hslots ?_
  rw [hnext]
  refine ⟨hinv.1, hunbuilt.1, ?_, ?_, ?_⟩
  · show ((s.dev.buildRch e op.handler c kbuf op.flags t).rch e).path.isSome = true
    rw [hpath]
    rfl
  · show ((s.dev.buildRch e op.handler c kbuf op.flags t).rch e).rchReturn.valid = 0
    rw [hreturn, hvalid]
  · intro m hm
    show poolKbuf ((s.dev.buildRch e op.handler c kbuf op.flags t).rch e).rchReturn = _
    rw [hreturn, poolKbuf, hflags, (hinv.2 m hm).2, hkbuf, if_pos (by decide)]
    exact hm

/-- The list of handlers is not part of the invariant. -/
theorem DmaInv.append {op : Op} {kbuf : Option Kbuf} {predicted : Predicted}
    (h : DmaInv s) (hpc : (s.clients c).pc = .append op e t kbuf predicted)
    (hd : s.dev.rchAppend e = some d) :
    DmaInv ({ s with dev := d }.setPc c (.send op e t kbuf predicted)) := by
  have hinv := h.pc c
  rw [hpc] at hinv
  rw [rchAppend] at hd
  split at hd
  · cases hd
  · obtain rfl := Option.some.inj hd
    have hdma : DmaInv { s with dev := { s.dev with list := s.dev.list ++ [e] } } :=
      ⟨h.carried, h.held_lt, h.held_slot, h.pc, h.sent, h.nodup, h.request_lt⟩
    exact hdma.setPc hinv

/-- The message names the mapping that goes with its handler. -/
theorem DmaInv.send {op : Op} {kbuf : Option Kbuf} {predicted : Predicted} {mfa : Bool}
    (h : DmaInv s) (hown : OwnInv s)
    (hpc : (s.clients c).pc = .send op e t kbuf predicted) :
    DmaInv ((s.sendI2OKbuf e t kbuf predicted mfa).setPc c (Sys.afterSend op e t)) := by
  have hinv := h.pc c
  rw [hpc] at hinv
  obtain ⟨⟨hclient, hunsent⟩, howner, hpath, hvalid, hkbuf⟩ := hinv
  cases mfa with
  | false => exact h.setPc (PcDma.afterSend op e t)
  | true =>
    have hperm : (s.unanswered ++ [s.nextMessage e t kbuf predicted] ++ s.replies).Perm
        (s.nextMessage e t kbuf predicted :: (s.unanswered ++ s.replies)) := by
      rw [List.append_assoc]
      exact List.perm_middle
    have hnew : ∀ p ∈ s.unanswered ++ [s.nextMessage e t kbuf predicted] ++ s.replies,
        p ∈ s.unanswered ++ s.replies ∨ p.request = t := by
      intro p hp
      rcases List.mem_cons.mp (hperm.mem_iff.mp hp) with rfl | hp
      · exact Or.inr rfl
      · exact Or.inl hp
    have hun : ∀ p ∈ s.unanswered ++ [s.nextMessage e t kbuf predicted],
        p ∈ s.unanswered ∨ p = s.nextMessage e t kbuf predicted := by
      intro p hp
      rw [List.mem_append, List.mem_singleton] at hp
      exact hp
    refine ⟨h.carried, h.held_lt, ?_, ?_, ?_, ?_, ?_⟩
    · intro m t' ho buffer e'
      have hold := h.held_slot m t' ho buffer e'
      by_cases heq : t'.client = c
      · rw [heq, Sys.setPc_self]
        rw [heq] at hold
        exact hold
      · rw [Sys.setPc, Sys.setClient_of_ne _ heq]
        exact hold
    · intro other
      by_cases heq : other = c
      · rw [heq, Sys.setPc_self]
        exact PcDma.afterSend op e t
      · rw [Sys.setPc, Sys.setClient_of_ne _ heq]
        refine (h.pc other).mono (hown.client other).pcInv hown.dev ?_ ?_
          (fun _ _ _ hm _ => hm) (fun _ _ _ _ hnone => hnone) (fun _ _ _ _ hb => hb)
        · intro p hp
          refine (hnew p hp).imp_right fun hreq => ?_
          rw [hreq, hclient]
          exact Ne.symm heq
        · intro p hp
          refine (hun p hp).imp_right fun hreq => ?_
          rw [hreq]
          exact fun hother => heq (hother.symm.trans hclient)
    · intro p hp m hm
      rcases hun p hp with hold | rfl
      · exact h.sent p hold m hm
      · refine ⟨⟨howner, hpath, hkbuf m ?_⟩, hvalid⟩
        rcases kbuf with _ | (_ | _)
        · cases hm
        · cases hm
          rfl
        · cases hm
    · refine (hperm.map Posted.request).nodup_iff.mpr ?_
      rw [List.map_cons, List.nodup_cons]
      refine ⟨fun hmem => ?_, h.nodup⟩
      obtain ⟨p, hp, hreq⟩ := List.mem_map.mp hmem
      exact hunsent p hp hreq
    · intro p hp
      rcases hnew p hp with hold | hreq
      · exact h.request_lt p hold
      · rw [hreq]
        exact (hown.dev.owner_lt e t howner).2

/-- A read that finds its handler answered has no message with the card. -/
theorem DmaInv.removeIfNotValid {valid : Int} (h : DmaInv s) (hown : OwnInv s)
    (hpc : (s.clients c).pc = .removeIfNotValid e t)
    (hd : s.dev.rchRemoveIfNotValid e = some (d, valid)) :
    DmaInv ({ s with dev := d }.setPc c
      (if valid = 0 then .idle else .recycleRead e t)) := by
  obtain ⟨hclient, hlive⟩ := hown.pcInv hpc
  obtain ⟨_, hk, hvalid, hcases⟩ := removeIfNotValid_cases hown.dev hlive hd
  have hpool := samePools_removeIfNotValid hd
  have hsame : (d.rch e).path = (s.dev.rch e).path ∧
      (d.rch e).rchReturn = (s.dev.rch e).rchReturn := by
    rcases hcases with ⟨_, rfl⟩ | ⟨_, _, hrch, _⟩
    · exact ⟨rfl, rfl⟩
    · rw [hrch]
      exact ⟨rfl, rfl⟩
  have hcarries : ∀ t m, Carries d e t m ↔ Carries s.dev e t m := by
    intro t m
    rw [Carries, Carries, hsame.1, hsame.2, hpool.owner]
  have hdma : DmaInv { s with dev := d } := by
    refine h.entryStep hown (entryStep_samePools hk hpool fun t m hc =>
      h.carried e t m ((hcarries t m).mp hc)) ?_ ?_
    · intro p _ m _ _ hc hzero
      rw [hcarries, hsame.2]
      exact ⟨hc, hzero⟩
    · intro c t kbuf _ hb
      rw [BuiltFor, hsame.1, hsame.2, hpool.owner]
      exact hb
  refine hdma.setPc ?_
  split
  · trivial
  · rename_i hne
    refine ⟨hclient, fun p hp htarget hreq => ?_⟩
    obtain ⟨m, hm⟩ := Option.isSome_iff_exists.mp htarget
    obtain ⟨hc, hzero⟩ := h.sent p hp m hm
    rw [hreq] at hc
    rw [hown.dev.owner_inj p.entry e t hc.1 hlive.1] at hzero
    exact hne (hvalid.trans hzero)

theorem DmaInv.recycleUnbuilt {kbuf : Option Kbuf} (h : DmaInv s) (hown : OwnInv s)
    (hpc : (s.clients c).pc = .recycleUnbuilt e t kbuf)
    (hstale : ∀ m ∈ kbufTarget (poolKbuf (s.dev.rch e).rchReturn),
      s.dev.mappings.reserved m = false)
    (hd : s.dev.i2oRecycleRch e t = some d) :
    DmaInv ({ s with dev := d }.setPc c (Sys.afterRecycleUnbuilt kbuf)) := by
  obtain ⟨hclient, hunbuilt⟩ := hown.pcInv hpc
  have hinv := h.pc c
  rw [hpc] at hinv
  have hrec := Device.recycled hd
  have hdma : DmaInv { s with dev := d } := by
    refine h.recycled hown hrec ?_ ?_ (h.not_built hunbuilt.1 hclient (by rw [hpc]; rfl))
    · intro m hm
      exact Or.inl (hstale m (by rw [hm]; rfl))
    · intro p hp _ ho
      exact hinv.1.2 p (List.mem_append_left _ hp)
        (Option.some.inj (ho.symm.trans hunbuilt.1))
  refine hdma.setPc ?_
  cases kbuf with
  | none => trivial
  | some kbuf =>
    intro m hm
    have hheld := hdma.pc c
    rw [show (({ s with dev := d } : Sys).clients c).pc = _ from hpc] at hheld
    exact ⟨t, hclient, hheld.2 m (congrArg some hm),
      not_owner_recycled hrec hown.dev hunbuilt.1⟩

theorem DmaInv.recycleRead (h : DmaInv s) (hown : OwnInv s)
    (hpc : (s.clients c).pc = .recycleRead e t)
    (hd : s.dev.i2oRecycleRch e t = some d) :
    DmaInv ({ s with dev := d }.setPc c .idle) := by
  obtain ⟨hclient, hheld⟩ := hown.pcInv hpc
  have hinv := h.pc c
  rw [hpc] at hinv
  have ho : s.dev.owner e = some t ∧ (s.dev.rch e).path.isSome = true := by
    rcases hheld with hlive | ⟨ho, _, hpath⟩
    · exact ⟨hlive.1, hlive.2.2.1 ▸ rfl⟩
    · exact ⟨ho, hpath⟩
  refine DmaInv.setPc (s := { s with dev := d }) ?_ trivial
  refine h.recycled hown (Device.recycled hd) ?_ ?_
    (h.not_built ho.1 hclient (by rw [hpc]; rfl))
  · intro m hm
    exact Or.inr ⟨t, ho.1, ho.2, hm⟩
  · intro p hp htarget hreq
    exact hinv.2 p hp htarget (Option.some.inj (hreq.symm.trans ho.1))

/-- The second recycle of a release, of a handler that is nobody's. -/
theorem DmaInv.recycleLast (h : DmaInv s) (hown : OwnInv s)
    (hfree : s.dev.handlers.reserved e = false)
    (hstale : ∀ m ∈ kbufTarget (poolKbuf (s.dev.rch e).rchReturn),
      s.dev.mappings.reserved m = false)
    (hd : s.dev.i2oRecycleRch e t = some d) :
    DmaInv ({ s with dev := d }.setPc c .cleanup) := by
  have hnone : ∀ t, s.dev.owner e ≠ some t := by
    intro t ho
    rw [hown.dev.owner_none hfree] at ho
    cases ho
  refine DmaInv.setPc (s := { s with dev := d }) ?_ trivial
  refine h.recycled hown (Device.recycled hd) ?_ (fun p _ _ => hnone p.request)
    (fun _ t _ _ => hnone t)
  intro m hm
  exact Or.inl (hstale m (by rw [hm]; rfl))

theorem DmaInv.cleanup {caller : Tag} (h : DmaInv s) (hown : OwnInv s)
    (hpc : (s.clients c).pc = .cleanup) (he : s.dev.cleanupRch c = some e)
    (hclose : ∀ p ∈ s.unanswered, p.target.isSome = true →
      p.request ≠ (s.dev.rch e).request)
    (hd : s.dev.i2oRecycleRch e caller = some d) : DmaInv { s with dev := d } := by
  obtain ⟨hm, hpath⟩ := cleanupRch_mem he
  obtain ⟨ho, hpath'⟩ := hown.dev.listed e hm
  refine h.recycled hown (Device.recycled hd) ?_ ?_
    (h.not_built ho (Option.some.inj (hpath'.symm.trans hpath)) (by rw [hpc]; rfl))
  · intro m hk
    exact Or.inr ⟨_, ho, hpath ▸ rfl, hk⟩
  · intro p hp htarget hreq
    exact hclose p hp htarget (Option.some.inj (hreq.symm.trans ho))

/-- A handler in `rchAB` has no mapping of the pool. -/
theorem DmaInv.recycleAB {buffer : Buffer} {recycleA recycleB : Bool}
    {client : Client} (h : DmaInv s) (hown : OwnInv s)
    (hpc : (s.clients c).pc = .recycleAB buffer recycleA recycleB)
    (hslot : (s.clients c).rchAB buffer = some (e, t))
    (hd : s.dev.i2oRecycleRch e t = some d)
    (hslots : client.rchAB = Function.update (s.clients c).rchAB buffer none)
    (hfree : client.pc.entryFree = true) :
    DmaInv ({ s with dev := d }.setClient c client) := by
  have hold := hown.client c
  rw [hpc] at hold
  obtain ⟨hclient, hlive⟩ := hold.slot rfl buffer e t hslot
  have hlive := hlive rfl
  have hnone : ∀ other m, ¬ Carries s.dev other t m := by
    intro other m hc
    have hno := h.held_slot m t (h.carried other t m hc).2 buffer e
    rw [hclient] at hno
    exact hno hslot
  have hdma : DmaInv { s with dev := d } := by
    refine h.recycled hown (Device.recycled hd) ?_ ?_
      (h.not_built hlive.1 hclient (by rw [hpc]; rfl))
    · intro m hm
      exact absurd ⟨hlive.1, hlive.2.2.1 ▸ rfl, hm⟩ (hnone e m)
    · intro p hp htarget hreq
      obtain rfl := Option.some.inj (hlive.1.symm.trans hreq)
      obtain ⟨m, hm⟩ := Option.isSome_iff_exists.mp htarget
      exact hnone p.entry m (h.sent p hp m hm).1
  refine hdma.move (b := s.busyFree) ?_ (PcDma.of_entryFree hfree)
  intro m t' ho hclient' other e' hs
  have hno := hdma.held_slot m t' ho other e'
  rw [hclient'] at hno
  rw [hslots] at hs
  by_cases heq : other = buffer
  · rw [heq, Function.update_self] at hs
    cases hs
  · rw [Function.update_of_ne heq] at hs
    exact hno hs

theorem DmaInv.answer {n : Nat} {p : Posted} (h : DmaInv s) (hown : OwnInv s)
    (hp : s.unanswered[n]? = some p) :
    DmaInv { s with
      unanswered := s.unanswered.eraseIdx n, replies := s.replies ++ [p] } := by
  have hperm : (s.unanswered.eraseIdx n ++ (s.replies ++ [p])).Perm
      (s.unanswered ++ s.replies) := by
    obtain ⟨hlt, hget⟩ := List.getElem?_eq_some_iff.mp hp
    rw [← List.append_assoc]
    have hmoved : (s.unanswered.eraseIdx n ++ s.replies ++ [p]).Perm
        (p :: s.unanswered.eraseIdx n ++ s.replies) := List.perm_append_singleton _ _
    refine hmoved.trans (List.Perm.append_right _ ?_)
    rw [← hget]
    exact List.getElem_cons_eraseIdx_perm hlt
  have hun : ∀ q ∈ s.unanswered.eraseIdx n, q ∈ s.unanswered :=
    fun q hq => List.mem_of_mem_eraseIdx hq
  refine ⟨h.carried, h.held_lt, h.held_slot, ?_, fun q hq => h.sent q (hun q hq), ?_, ?_⟩
  · intro c
    exact (h.pc c).mono (hown.client c).pcInv hown.dev
      (fun q hq => Or.inl (hperm.mem_iff.mp hq)) (fun q hq => Or.inl (hun q hq))
      (fun _ _ _ hm _ => hm) (fun _ _ _ _ hnone => hnone) (fun _ _ _ _ hb => hb)
  · exact (hperm.map Posted.request).nodup_iff.mpr h.nodup
  · exact fun q hq => h.request_lt q (hperm.mem_iff.mp hq)

/-- A reply leaves the queue. -/
theorem DmaInv.eraseReply (h : DmaInv s) (hown : OwnInv s) (n : Nat) :
    DmaInv { s with replies := s.replies.eraseIdx n } := by
  have hsub : (s.unanswered ++ s.replies.eraseIdx n).Sublist
      (s.unanswered ++ s.replies) :=
    List.Sublist.append_left (List.eraseIdx_sublist _ _) _
  refine ⟨h.carried, h.held_lt, h.held_slot, ?_, h.sent, ?_, ?_⟩
  · intro c
    exact (h.pc c).mono (hown.client c).pcInv hown.dev
      (fun q hq => Or.inl (hsub.subset hq)) (fun q hq => Or.inl hq)
      (fun _ _ _ hm _ => hm) (fun _ _ _ _ hnone => hnone) (fun _ _ _ _ hb => hb)
  · exact h.nodup.sublist (hsub.map Posted.request)
  · exact fun q hq => h.request_lt q (hsub.subset hq)

/-- A reply that finds the handler of its own request. -/
theorem DmaInv.dispatch {n : Nat} {p : Posted} {start nsamples : BitVec 32}
    (h : DmaInv s) (hown : OwnInv s) (hp : s.replies[n]? = some p)
    (hreply : ∀ e ∈ s.dev.findRch p.id, (s.dev.rch e).request = p.request)
    (hd : s.dev.processCommandMessageReturn p.id start nsamples = some d) :
    DmaInv { s with dev := d, replies := s.replies.eraseIdx n } := by
  have hmem : p ∈ s.replies := List.mem_of_getElem? hp
  have hdma : DmaInv { s with dev := d } := by
    rcases dispatch_cases hown.dev hd with ⟨_, rfl⟩ | ⟨e, hfind, hcase⟩
    · exact h
    · obtain ⟨hlist, _⟩ := findRch_mem hfind
      obtain ⟨ho, hpath⟩ := hown.dev.listed e hlist
      rw [hreply e hfind] at ho
      have hsent : ∀ q ∈ s.unanswered, s.dev.owner e ≠ some q.request := by
        intro q hq hreq
        have hnodup := h.nodup
        rw [List.map_append, List.nodup_append] at hnodup
        exact hnodup.2.2 q.request (List.mem_map_of_mem hq) p.request
          (List.mem_map_of_mem hmem) (Option.some.inj (hreq.symm.trans ho))
      have hbuilt : ∀ c t kbuf, (s.clients c).pc.built = some (e, t, kbuf) →
          s.dev.owner e ≠ some t := by
        intro c t kbuf hb ho'
        exact (h.unsent hb).2 p (List.mem_append_right _ hmem)
          (Option.some.inj (ho.symm.trans ho'))
      rcases hcase with ⟨_, rfl⟩ | ⟨_, hrec⟩
      · refine h.entryStep hown (entryStep_samePools (keepsOthers_setRch s.dev e _)
          ⟨rfl, rfl, rfl, rfl, rfl, rfl, rfl⟩ ?_) ?_ ?_
        · rintro t m ⟨ho', hsome, hm⟩
          rw [setRch_rch_self] at hsome hm
          exact h.carried e t m ⟨ho', hsome, (poolKbuf_setSamples _ _ _) ▸ hm⟩
        · exact fun q hq _ _ ho' => absurd ho' (hsent q hq)
        · exact fun c t kbuf hb hb' => absurd hb'.1 (hbuilt c t kbuf hb)
      · refine h.recycled hown hrec ?_ (fun q hq _ => hsent q hq) hbuilt
        intro m hm
        exact Or.inr ⟨_, ho, hpath ▸ rfl, hm⟩
  exact hdma.eraseReply (ownInv_dispatch hown hd) n

end Steps

/-! ## Runs -/

theorem dmaInv_step {l : Label} {s s' : Sys} (hown : OwnInv s) (h : DmaInv s)
    (hok : TargetsSafe l s) (ht : Trans l s s') : DmaInv s' := by
  cases ht with
  | oops =>
    exact ⟨h.carried, h.held_lt, h.held_slot, h.pc, h.sent, h.nodup, h.request_lt⟩
  | neutral hl hslots hfree hposting hclosing =>
    exact h.moveKeeping hslots (PcDma.of_entryFree hfree)
  | @sleepMapping _ _ c op e t asleep ibuf hl hpc =>
    have hinv := h.pc c
    rw [hpc] at hinv
    exact h.setPc hinv
  | @failMapping _ _ c op e t ibuf hl hpc =>
    have hinv := h.pc c
    rw [hpc] at hinv
    exact h.setPc ⟨hinv.1, fun m hm => by cases hm⟩
  | @failLen _ _ c op e t kbuf hl hpc =>
    have hinv := h.pc c
    rw [hpc] at hinv
    exact h.setPc ⟨hinv.1, fun m hm => (hinv.2 m (Option.some.inj hm)).1⟩
  | @passLen _ _ c op e t kbuf hl hpc =>
    have hinv := h.pc c
    rw [hpc] at hinv
    exact h.setPc ⟨hinv.1, fun m hm => hinv.2 m (Option.some.inj hm)⟩
  | endWaitRead hl hpc => exact h.setPc trivial
  | endWaitLast hl hpc => exact h.setPc trivial
  | foundValid hpc hvalid => exact h.setPc trivial
  | allocRch hl hpc hfree hlt hnext hslots => exact h.allocRch hown hfree hnext hslots
  | allocMapping hl hpc hfree hlt => exact h.allocMapping hown hpc hfree
  | freeMapping hpc => exact h.freeMapping hown hpc
  | build hpc hnext hslots => exact h.build hown hpc hnext hslots
  | append hpc hd => exact h.append hpc hd
  | send hpc => exact h.send hown hpc
  | removeIfNotValid hpc hd => exact h.removeIfNotValid hown hpc hd
  | @recycleUnbuilt _ c e t kbuf d hpc hd =>
    exact h.recycleUnbuilt hown hpc (hok.stale c rfl e (by rw [hpc]; rfl)) hd
  | recycleRead hpc hd => exact h.recycleRead hown hpc hd
  | @recycleLast _ c e t d hpc hd =>
    exact h.recycleLast hown (hok.last c rfl e (by rw [hpc]; rfl))
      (hok.stale c rfl e (by rw [hpc]; rfl)) hd
  | @cleanup _ c e d hpc he hd =>
    exact h.cleanup hown hpc he (hok.close c rfl (by rw [hpc]; rfl) e he) hd
  | recycleAB hpc hslot hd hslots hfree hopen =>
    exact h.recycleAB hown hpc hslot hd hslots hfree
  | answer hp => exact h.answer hown hp
  | @dispatch _ n p d start nsamples hp hd =>
    exact h.dispatch hown hp (hok.reply p hp) hd

/-- A read that a signal interrupts while the card has its message. -/
def interruptedBridgeRead : List Label :=
  [.openFile 0 .bridge, .call 0 .read, .go 0, .go 0, .check 0 false, .go 0, .go 0,
    .send 0 true, .signal 0, .go 0]

/-- The write that follows gets another mapping. -/
def writeBehindRead : List Label :=
  interruptedBridgeRead ++
    [.call 0 .write, .go 0, .go 0, .check 0 false, .go 0, .go 0, .send 0 true]

/-- The file is closed, and a signal interrupts the wait for the end-of-file
message too. -/
def interruptedClose : List Label :=
  [.call 0 .release, .go 0, .go 0, .go 0, .send 0 true, .signal 0, .go 0]

end Acq200.Rch
