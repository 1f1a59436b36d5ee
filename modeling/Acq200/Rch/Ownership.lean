import Acq200.Rch.DeviceInv
import Acq200.Rch.Transitions

/-!
# Who holds a handler

A client that is inside a read, or has a handler in `rchAB`, can rely on
nobody else recycling it, since the handler function is
`i2o_handleReadMessageFile` and the path is set.  `ClientInv` says what
each client relies on at each point, and `ownInv_step` that every step
keeps it for all clients.

The one step that has to be excluded is the second recycle of a release,
when its handler belongs to another request by then.
-/

namespace Acq200.Rch

open Acq200.Lib Device

/-! ## The clients -/

/-- What a client relies on at each point of its calls. -/
def PcInv (d : Device) (c : Nat) (slots : Buffer → Option (Nat × Tag)) :
    Pc → Prop
  | .allocMapping op e t _ | .checkLen op e t _ =>
    t.client = c ∧ Unbuilt d e t ∧ ∀ buffer, op ≠ .queue buffer
  | .recycleUnbuilt e t _ => t.client = c ∧ Unbuilt d e t
  | .build op e t _ =>
    t.client = c ∧ Unbuilt d e t ∧
      ∀ buffer, op = .queue buffer → slots buffer = some (e, t)
  | .append op e t _ _ =>
    t.client = c ∧ Built d e t op.handler ∧
      ∀ buffer, op = .queue buffer → slots buffer = some (e, t)
  | .send op e t _ _ =>
    op = .read ∨ op = .readAB →
      t.client = c ∧ Live d e t .handleReadMessageFile
  | .waitRead e t | .removeIfNotValid e t =>
    t.client = c ∧ Live d e t .handleReadMessageFile
  | .recycleRead e t =>
    t.client = c ∧
      (Live d e t .handleReadMessageFile ∨
        d.owner e = some t ∧ e ∉ d.list ∧ (d.rch e).path.isSome = true)
  | _ => True

/-- The request `t` of the operation, if its handler is not in `rchAB`. -/
def Op.request : Op → Tag → Option Tag
  | .queue _, _ => none
  | .read, t | .readAB, t | .write, t | .release, t => some t

/-- The request of the call in progress, if its handler is not in `rchAB`. -/
def Pc.request : Pc → Option Tag
  | .allocMapping op _ t _ | .checkLen op _ t _ | .build op _ t _
  | .append op _ t _ _ | .send op _ t _ _ => op.request t
  | .recycleUnbuilt _ t _ | .waitRead _ t | .removeIfNotValid _ t
  | .recycleRead _ t => some t
  | _ => none

/-- The handler of `buffer` is allocated and not linked yet. -/
def Pc.queueing (buffer : Buffer) : Pc → Bool
  | .build (.queue b) _ _ _ | .append (.queue b) _ _ _ _ => b = buffer
  | _ => false

structure ClientInv (d : Device) (c : Nat) (pc : Pc)
    (slots : Buffer → Option (Nat × Tag)) : Prop where
  pcInv : PcInv d c slots pc
  slot : pc.closing = false → ∀ buffer e t, slots buffer = some (e, t) →
    t.client = c ∧
      (pc.queueing buffer = false → Live d e t .handleReadMessageFile)
  slot_ne : ∀ t, pc.request = some t → ∀ buffer e, slots buffer ≠ some (e, t)
  slots_ne : ∀ e t other, slots .bufferA = some (e, t) →
    slots .bufferB ≠ some (other, t)

structure OwnInv (s : Sys) : Prop where
  dev : DevInv s.dev
  client : ∀ c, ClientInv s.dev c (s.clients c).pc (s.clients c).rchAB

theorem ownInv_initial (lastId : BitVec 16) : OwnInv (initial lastId) where
  dev := devInv_poolCreate lastId
  client := fun _ =>
    { pcInv := trivial
      slot := fun _ _ _ _ h => by cases h
      slot_ne := fun _ h => by cases h
      slots_ne := fun _ _ _ h => by cases h }

section Frame

variable {d d' : Device} {c k : Nat} {pc pc' : Pc}
  {slots : Buffer → Option (Nat × Tag)} {s s' : Sys}

/-- What client `c` holds in `d` it holds in `d'`. -/
structure Preserves (d d' : Device) (c : Nat) : Prop where
  live : ∀ e t, t.client = c → Live d e t .handleReadMessageFile →
    Live d' e t .handleReadMessageFile
  unlinked : ∀ e t, t.client = c → d.owner e = some t → e ∉ d.list →
    d'.rch e = d.rch e ∧ d'.owner e = some t ∧ e ∉ d'.list

theorem PcInv.mono (h : PcInv d c slots pc) (hp : Preserves d d' c) :
    PcInv d' c slots pc := by
  have hunbuilt : ∀ e t, t.client = c → Unbuilt d e t → Unbuilt d' e t := by
    intro e t hc hu
    obtain ⟨hrch, howner, hlist⟩ := hp.unlinked e t hc hu.1 hu.2.1
    exact ⟨howner, hlist, hrch ▸ hu.2.2⟩
  cases pc with
  | allocMapping _ e t _ | checkLen _ e t _ =>
    exact ⟨h.1, hunbuilt e t h.1 h.2.1, h.2.2⟩
  | recycleUnbuilt e t _ => exact ⟨h.1, hunbuilt e t h.1 h.2⟩
  | build op e t _ => exact ⟨h.1, hunbuilt e t h.1 h.2.1, h.2.2⟩
  | append op e t _ _ =>
    obtain ⟨hc, hb, hslots⟩ := h
    obtain ⟨hrch, howner, hlist⟩ := hp.unlinked e t hc hb.1 hb.2.1
    refine ⟨hc, ⟨howner, hlist, ?_⟩, hslots⟩
    rw [hrch]
    exact hb.2.2
  | send op e t _ _ =>
    intro hop
    obtain ⟨hc, hlive⟩ := h hop
    exact ⟨hc, hp.live e t hc hlive⟩
  | waitRead e t | removeIfNotValid e t => exact ⟨h.1, hp.live e t h.1 h.2⟩
  | recycleRead e t =>
    refine ⟨h.1, ?_⟩
    rcases h.2 with hlive | ⟨ho, hm, hpath⟩
    · exact Or.inl (hp.live e t h.1 hlive)
    · obtain ⟨hrch, howner, hlist⟩ := hp.unlinked e t h.1 ho hm
      exact Or.inr ⟨howner, hlist, hrch ▸ hpath⟩
  | _ => trivial

theorem ClientInv.mono (h : ClientInv d c pc slots) (hp : Preserves d d' c) :
    ClientInv d' c pc slots where
  pcInv := h.pcInv.mono hp
  slot := by
    intro hclosing buffer e t hslot
    obtain ⟨hc, hlive⟩ := h.slot hclosing buffer e t hslot
    exact ⟨hc, fun hq => hp.live e t hc (hlive hq)⟩
  slot_ne := h.slot_ne
  slots_ne := h.slots_ne

/-- A step on a handler that client `c` does not hold. -/
theorem preserves_of_keeps (hk : KeepsOthers d d' k)
    (hown : ∀ t, d.owner k = some t → t.client ≠ c) : Preserves d d' c := by
  have hne : ∀ e t, t.client = c → d.owner e = some t → e ≠ k := by
    rintro e t hclient ho rfl
    exact hown t ho hclient
  refine ⟨?_, ?_⟩
  · intro e t hclient hlive
    exact hlive.of_keeps hk (hne e t hclient hlive.1)
  · intro e t hclient ho hm
    obtain ⟨hrch, howner, hlist⟩ := hk e (hne e t hclient ho)
    exact ⟨hrch, howner.trans ho, fun hmem => hm (hlist.mp hmem)⟩

/-- A step of client `c` on a handler that is its own or nobody's leaves the
other clients alone. -/
theorem ownInv_of_client (h : OwnInv s) (hdev : DevInv s'.dev)
    (hk : KeepsOthers s.dev s'.dev k)
    (hown : ∀ t, s.dev.owner k = some t → t.client = c)
    (hothers : ∀ other, other ≠ c → s'.clients other = s.clients other)
    (hc : ClientInv s'.dev c (s'.clients c).pc (s'.clients c).rchAB) :
    OwnInv s' := by
  refine ⟨hdev, ?_⟩
  intro other
  by_cases heq : other = c
  · rw [heq]
    exact hc
  · rw [hothers other heq]
    refine (h.client other).mono (preserves_of_keeps hk ?_)
    intro t ho hclient
    exact heq (hclient.symm.trans (hown t ho))

/-- A step of client `c` that leaves the device alone. -/
theorem ownInv_setClient (h : OwnInv s) (hdev : s'.dev = s.dev)
    (hothers : ∀ other, other ≠ c → s'.clients other = s.clients other)
    (hc : ClientInv s.dev c (s'.clients c).pc (s'.clients c).rchAB) :
    OwnInv s' := by
  refine ⟨hdev ▸ h.dev, ?_⟩
  intro other
  rw [hdev]
  by_cases heq : other = c
  · rw [heq]
    exact hc
  · rw [hothers other heq]
    exact h.client other

/-- A client that moves on. -/
theorem ClientInv.move (h : ClientInv d c pc slots) (hpc : PcInv d c slots pc')
    (hclosing : pc'.closing = false → pc.closing = false)
    (hqueue : ∀ buffer, pc.queueing buffer = true →
      pc'.queueing buffer = true ∨ ∀ e t, slots buffer = some (e, t) →
        Live d e t .handleReadMessageFile)
    (hreq : ∀ t, pc'.request = some t → pc.request = some t) :
    ClientInv d c pc' slots where
  pcInv := hpc
  slot := by
    intro hopen buffer e t hslot
    obtain ⟨hc, hlive⟩ := h.slot (hclosing hopen) buffer e t hslot
    refine ⟨hc, fun hq => ?_⟩
    cases hold : pc.queueing buffer with
    | false => exact hlive hold
    | true =>
      rcases hqueue buffer hold with hq' | hslots
      · rw [hq'] at hq
        cases hq
      · exact hslots e t hslot
  slot_ne := fun t ht => h.slot_ne t (hreq t ht)
  slots_ne := h.slots_ne

theorem OwnInv.pcInv (h : OwnInv s) (hpc : (s.clients c).pc = pc) :
    PcInv s.dev c (s.clients c).rchAB pc :=
  hpc ▸ (h.client c).pcInv

/-- A client that moves on by itself. -/
theorem ownInv_setPc (h : OwnInv s) (hold : (s.clients c).pc = pc)
    (hpc : PcInv s.dev c (s.clients c).rchAB pc')
    (hclosing : pc'.closing = false → pc.closing = false)
    (hqueue : ∀ buffer, pc.queueing buffer = true →
      pc'.queueing buffer = true ∨ ∀ e t, (s.clients c).rchAB buffer = some (e, t) →
        Live s.dev e t .handleReadMessageFile)
    (hreq : ∀ t, pc'.request = some t → pc.request = some t) :
    OwnInv (s.setPc c pc') := by
  refine ownInv_setClient (c := c) h rfl
    (fun other hne => Sys.setClient_of_ne s hne _) ?_
  rw [Sys.setPc_self]
  exact (hold ▸ h.client c).move hpc hclosing hqueue hreq

end Frame

/-! ## Steps -/

theorem Pc.request_of_entryFree {pc : Pc} (h : pc.entryFree = true) :
    pc.request = none := by
  cases pc <;> first | rfl | cases h

theorem PcInv.of_entryFree {d : Device} {c : Nat}
    {slots : Buffer → Option (Nat × Tag)} {pc : Pc} (h : pc.entryFree = true) :
    PcInv d c slots pc := by
  cases pc with
  | allocMapping _ _ _ _ | checkLen _ _ _ _ | recycleUnbuilt _ _ _
  | build _ _ _ _ | append _ _ _ _ _ | send _ _ _ _ _ | waitRead _ _
  | removeIfNotValid _ _ | recycleRead _ _ => cases h
  | _ => trivial

theorem Pc.queueing_of_posting {pc : Pc} (h : pc.posting = false)
    (buffer : Buffer) : pc.queueing buffer = false := by
  cases pc <;> first | rfl | cases h

/-- The handler that a release is about to recycle a second time. -/
def Pc.lastEntry : Pc → Option Nat
  | .recycleLast e _ => some e
  | _ => none

/-- The second recycle of a release finds its handler unreserved. -/
def SecondRecycleHarmless (l : Label) (s : Sys) : Prop :=
  ∀ c ∈ l.goes, ∀ e ∈ (s.clients c).pc.lastEntry,
    s.dev.handlers.reserved e = false

instance (l : Label) (s : Sys) : Decidable (SecondRecycleHarmless l s) :=
  inferInstanceAs (Decidable (∀ c ∈ l.goes, ∀ e ∈ (s.clients c).pc.lastEntry,
    s.dev.handlers.reserved e = false))

section Steps

variable {s s' : Sys} {c : Nat}

theorem Op.request_eq {op : Op} {t : Tag} (hop : ∀ buffer, op ≠ .queue buffer) :
    op.request t = some t := by
  cases op with
  | queue buffer => exact absurd rfl (hop buffer)
  | _ => rfl

/-- The pool of mappings is not part of the rule. -/
theorem ownInv_of_mappings (h : OwnInv s) (hclients : s'.clients = s.clients)
    (hrch : s'.dev.rch = s.dev.rch) (hlist : s'.dev.list = s.dev.list)
    (hhandlers : s'.dev.handlers = s.dev.handlers)
    (howner : s'.dev.owner = s.dev.owner) (hallocs : s'.dev.allocs = s.dev.allocs) :
    OwnInv s' := by
  refine ⟨h.dev.of_eq hrch hlist hhandlers howner hallocs, fun other => ?_⟩
  rw [hclients]
  refine (h.client other).mono ⟨?_, ?_⟩
  · intro e t _ hlive
    rw [Live, hrch, hlist, howner]
    exact hlive
  · intro e t _ ho hm
    rw [hrch, hlist, howner]
    exact ⟨rfl, ho, hm⟩

/-- A handler for an AB buffer goes into `rchAB` at once. -/
theorem clientInv_allocQueue {d : Device} {slots : Buffer → Option (Nat × Tag)}
    {buffer : Buffer} {e : Nat} {t₀ : Tag} (hunbuilt : Unbuilt d e t₀)
    (hclient : t₀.client = c)
    (hslot : ∀ other e' t, slots other = some (e', t) → t.client = c ∧ t ≠ t₀ ∧
      Live d e' t .handleReadMessageFile) :
    ClientInv d c (.build (.queue buffer) e t₀ (some .other))
      (Function.update slots buffer (some (e, t₀))) := by
  have hself : Function.update slots buffer (some (e, t₀)) buffer = some (e, t₀) :=
    Function.update_self buffer _ slots
  have hother : ∀ other e' t, other ≠ buffer →
      Function.update slots buffer (some (e, t₀)) other = some (e', t) →
      t.client = c ∧ t ≠ t₀ ∧ Live d e' t .handleReadMessageFile := by
    intro other e' t hne hs
    rw [Function.update_of_ne hne] at hs
    exact hslot other e' t hs
  refine ⟨⟨hclient, hunbuilt, ?_⟩, ?_, fun _ ht => (by cases ht), ?_⟩
  · intro other hq
    cases hq
    exact hself
  · intro _ other e' t hs
    by_cases heq : other = buffer
    · rw [heq, hself] at hs
      cases hs
      refine ⟨hclient, fun hq => ?_⟩
      rw [heq] at hq
      simp [Pc.queueing] at hq
    · have hold := hother other e' t heq hs
      exact ⟨hold.1, fun _ => hold.2.2⟩
  · intro a t b ha hb
    cases buffer with
    | bufferA =>
      rw [hself] at ha
      cases ha
      exact (hother .bufferB b _ (by decide) hb).2.1 rfl
    | bufferB =>
      rw [hself] at hb
      cases hb
      exact (hother .bufferA a _ (by decide) ha).2.1 rfl

/-- A handler is allocated. -/
theorem ownInv_allocRch {op : Op} {asleep : Option Nat} {e : Nat}
    {client : Client} (h : OwnInv s)
    (hpc : (s.clients c).pc = .allocRch op asleep)
    (hfree : s.dev.handlers.reserved e = false)
    (hlt : e < s.dev.handlers.maxEntries)
    (hnext : client.pc = Sys.afterAllocRch op e ⟨c, s.dev.allocs⟩)
    (hslots : client.rchAB =
      Sys.slotsAfterAlloc op (s.clients c).rchAB e ⟨c, s.dev.allocs⟩) :
    OwnInv ({ s with dev := s.dev.poolAllocRch e c }.setClient c client) := by
  have hnone := h.dev.owner_none hfree
  have hunbuilt := h.dev.unbuilt_alloc hfree c
  have hk := keepsOthers_alloc s.dev e c
  have hold := h.client c
  rw [hpc] at hold
  -- The handlers in `rchAB` are linked, so the new one is none of them.
  have hslot : ∀ buffer e' t, (s.clients c).rchAB buffer = some (e', t) →
      t.client = c ∧ t ≠ ⟨c, s.dev.allocs⟩ ∧
        Live (s.dev.poolAllocRch e c) e' t .handleReadMessageFile := by
    intro buffer e' t hs
    obtain ⟨hclient, hlive⟩ := hold.slot rfl buffer e' t hs
    have hlive := hlive rfl
    refine ⟨hclient, ?_, hlive.of_keeps hk ?_⟩
    · rintro rfl
      exact Nat.lt_irrefl _ (h.dev.owner_lt e' _ hlive.1).2
    · rintro rfl
      exact absurd (hnone.symm.trans hlive.1) (by simp)
  refine ownInv_of_client (k := e) (c := c) h (h.dev.alloc hfree hlt c) hk ?_
    (fun other hne => Sys.setClient_of_ne _ hne _) ?_
  · intro t ho
    exact absurd (hnone.symm.trans ho) (by simp)
  · rw [Sys.setClient_self, hnext, hslots]
    have hplain : ∀ pc : Pc,
        PcInv (s.dev.poolAllocRch e c) c (s.clients c).rchAB pc →
        (∀ t, pc.request = some t → t = ⟨c, s.dev.allocs⟩) →
        ClientInv (s.dev.poolAllocRch e c) c pc (s.clients c).rchAB := by
      intro pc hpcInv hreq
      refine ⟨hpcInv, ?_, ?_, hold.slots_ne⟩
      · intro _ buffer e' t hs
        exact ⟨(hslot buffer e' t hs).1, fun _ => (hslot buffer e' t hs).2.2⟩
      · intro t ht buffer e' hs
        exact (hslot buffer e' t hs).2.1 (hreq t ht)
    cases op with
    | read | write =>
      exact hplain _ ⟨rfl, hunbuilt, fun _ hq => by cases hq⟩
        fun t ht => (Option.some.inj ht).symm
    | readAB =>
      exact hplain _ ⟨rfl, hunbuilt, fun _ hq => by cases hq⟩
        fun t ht => (Option.some.inj ht).symm
    | release =>
      exact hplain _ ⟨rfl, hunbuilt, fun _ hq => by cases hq⟩
        fun t ht => (Option.some.inj ht).symm
    | queue buffer => exact clientInv_allocQueue hunbuilt rfl hslot

/-- The handler of a client's own request is built. -/
theorem ownInv_build {op : Op} {e : Nat} {t : Tag} {kbuf : Option Kbuf}
    {client : Client} {predicted : Predicted} (h : OwnInv s)
    (hpc : (s.clients c).pc = .build op e t kbuf)
    (hnext : client.pc = .append op e t kbuf predicted)
    (hslots : client.rchAB = (s.clients c).rchAB) :
    OwnInv ({ s with
      dev := s.dev.buildRch e op.handler c kbuf op.flags t }.setClient c client) := by
  have hold := h.client c
  rw [hpc] at hold
  obtain ⟨hclient, hunbuilt, hqueue⟩ := hold.pcInv
  have hk : KeepsOthers s.dev (s.dev.buildRch e op.handler c kbuf op.flags t) e :=
    keepsOthers_setRch s.dev e _
  have hbuilt := hunbuilt.build op.handler kbuf op.flags
  rw [hclient] at hbuilt
  refine ownInv_of_client (k := e) (c := c) h ?_ hk ?_
    (fun other hne => Sys.setClient_of_ne _ hne _) ?_
  · exact h.dev.setRch hunbuilt.1 hunbuilt.2.1 (Int.zero_le_ofNat 1)
  · intro t' ho
    obtain rfl := Option.some.inj (hunbuilt.1.symm.trans ho)
    exact hclient
  · rw [Sys.setClient_self, hnext, hslots]
    refine ⟨⟨hclient, hbuilt, hqueue⟩, ?_, hold.slot_ne, hold.slots_ne⟩
    intro _ buffer e' t' hs
    obtain ⟨hc', hlive⟩ := hold.slot rfl buffer e' t' hs
    refine ⟨hc', fun hq => ?_⟩
    have hsame : (Pc.build op e t kbuf).queueing buffer = false := by
      cases op <;> exact hq
    refine (hlive hsame).of_keeps hk ?_
    rintro rfl
    exact hunbuilt.2.1 (hlive hsame).2.1

/-- The handler is linked. -/
theorem ownInv_append {op : Op} {e : Nat} {t : Tag} {kbuf : Option Kbuf}
    {predicted : Predicted} {d : Device} (h : OwnInv s)
    (hpc : (s.clients c).pc = .append op e t kbuf predicted)
    (hd : s.dev.rchAppend e = some d) :
    OwnInv ({ s with dev := d }.setPc c (.send op e t kbuf predicted)) := by
  have hold := h.client c
  rw [hpc] at hold
  obtain ⟨hclient, hbuilt, hqueue⟩ := hold.pcInv
  obtain ⟨hdev, hk, hlive⟩ := hbuilt.append h.dev hd
  refine ownInv_of_client (k := e) (c := c) h hdev hk ?_
    (fun other hne => Sys.setClient_of_ne _ hne _) ?_
  · intro t' ho
    obtain rfl := Option.some.inj (hbuilt.1.symm.trans ho)
    exact hclient
  · rw [Sys.setPc_self]
    refine ⟨?_, ?_, hold.slot_ne, hold.slots_ne⟩
    · rintro (rfl | rfl)
      · exact ⟨hclient, hlive⟩
      · exact ⟨hclient, hlive⟩
    · intro _ buffer e' t' hs
      obtain ⟨hc', hlive'⟩ := hold.slot rfl buffer e' t' hs
      refine ⟨hc', fun _ => ?_⟩
      by_cases hop : op = .queue buffer
      · obtain ⟨rfl, rfl⟩ := Prod.mk.inj
          (Option.some.inj (hs.symm.trans (hqueue buffer hop)))
        rw [hop] at hlive
        exact hlive
      · have hq : (Pc.append op e t kbuf predicted).queueing buffer = false := by
          cases op with
          | queue other =>
            refine decide_eq_false fun heq => ?_
            exact hop (heq ▸ rfl)
          | _ => rfl
        refine (hlive' hq).of_keeps hk ?_
        rintro rfl
        exact hbuilt.2.1 (hlive' hq).2.1

/-- The message is sent. -/
theorem ownInv_send {op : Op} {e : Nat} {t : Tag} {kbuf : Option Kbuf}
    {predicted : Predicted} {mfa : Bool} (h : OwnInv s)
    (hpc : (s.clients c).pc = .send op e t kbuf predicted) :
    OwnInv ((s.sendI2OKbuf e t kbuf predicted mfa).setPc c
      (Sys.afterSend op e t)) := by
  have hsent : OwnInv (s.sendI2OKbuf e t kbuf predicted mfa) := by
    rw [Sys.sendI2OKbuf]
    split
    · exact ownInv_of_mappings h rfl rfl rfl rfl rfl rfl
    · exact h
  have hclients : (s.sendI2OKbuf e t kbuf predicted mfa).clients = s.clients := by
    rw [Sys.sendI2OKbuf]
    split <;> rfl
  have hpc' : ((s.sendI2OKbuf e t kbuf predicted mfa).clients c).pc
      = .send op e t kbuf predicted := by
    rw [hclients]
    exact hpc
  have hinv := (hsent.client c).pcInv
  rw [hpc'] at hinv
  cases op with
  | read =>
    exact ownInv_setPc hsent hpc' (hinv (Or.inl rfl)) (fun _ => rfl)
      (fun _ hq => by cases hq) (fun _ ht => ht)
  | readAB =>
    exact ownInv_setPc hsent hpc' (hinv (Or.inr rfl)) (fun _ => rfl)
      (fun _ hq => by cases hq) (fun _ ht => ht)
  | write | release =>
    exact ownInv_setPc hsent hpc' trivial (fun _ => rfl)
      (fun _ hq => by cases hq) (fun _ ht => by cases ht)
  | queue buffer =>
    cases buffer <;>
      exact ownInv_setPc hsent hpc' trivial (fun _ => rfl)
        (fun _ hq => by cases hq) (fun _ ht => by cases ht)

/-- A client recycles a handler that is its own or nobody's. -/
theorem ownInv_recycled {d : Device} {e : Nat} {caller : Tag} {client : Client}
    (h : OwnInv s) (hrec : Recycled s.dev d e caller)
    (hown : ∀ t, s.dev.owner e = some t → t.client = c)
    (hpc : PcInv d c client.rchAB client.pc) (hreq : client.pc.request = none)
    (hslot : client.pc.closing = false → ∀ buffer e' t,
      client.rchAB buffer = some (e', t) → t.client = c ∧ e' ≠ e ∧
        Live s.dev e' t .handleReadMessageFile)
    (hne : ∀ e t other, client.rchAB .bufferA = some (e, t) →
      client.rchAB .bufferB ≠ some (other, t)) :
    OwnInv ({ s with dev := d }.setClient c client) := by
  refine ownInv_of_client (k := e) (c := c) h (hrec.devInv h.dev) hrec.keeps hown
    (fun other hne => Sys.setClient_of_ne _ hne _) ?_
  rw [Sys.setClient_self]
  refine ⟨hpc, ?_, fun t ht => ?_, hne⟩
  · intro hclosing buffer e' t hs
    obtain ⟨hclient, hother, hlive⟩ := hslot hclosing buffer e' t hs
    exact ⟨hclient, fun _ => hlive.of_keeps hrec.keeps hother⟩
  · rw [hreq] at ht
    cases ht

/-- The handlers in `rchAB` of a client that has another one in hand. -/
theorem slot_of_request {e : Nat} {t : Tag} {pc : Pc} (h : OwnInv s)
    (hpc : (s.clients c).pc = pc) (hopen : pc.closing = false)
    (hq : ∀ buffer, pc.queueing buffer = false) (hreq : pc.request = some t)
    (ho : s.dev.owner e = some t) :
    ∀ buffer e' t', (s.clients c).rchAB buffer = some (e', t') →
      t'.client = c ∧ e' ≠ e ∧ Live s.dev e' t' .handleReadMessageFile := by
  intro buffer e' t' hs
  have hold := h.client c
  rw [hpc] at hold
  obtain ⟨hclient, hlive⟩ := hold.slot hopen buffer e' t' hs
  have hlive := hlive (hq buffer)
  refine ⟨hclient, ?_, hlive⟩
  rintro rfl
  obtain rfl := Option.some.inj (ho.symm.trans hlive.1)
  exact hold.slot_ne t hreq buffer e' hs

theorem ownInv_recycleUnbuilt {e : Nat} {t : Tag} {kbuf : Option Kbuf}
    {d : Device} (h : OwnInv s) (hpc : (s.clients c).pc = .recycleUnbuilt e t kbuf)
    (hd : s.dev.i2oRecycleRch e t = some d) :
    OwnInv ({ s with dev := d }.setPc c (Sys.afterRecycleUnbuilt kbuf)) := by
  have hold := h.client c
  rw [hpc] at hold
  obtain ⟨hclient, hunbuilt⟩ := hold.pcInv
  refine ownInv_recycled h (recycled hd) ?_ ?_ ?_ ?_ hold.slots_ne
  · intro t' ho
    obtain rfl := Option.some.inj (hunbuilt.1.symm.trans ho)
    exact hclient
  · cases kbuf <;> trivial
  · cases kbuf <;> rfl
  · intro _
    exact slot_of_request h hpc rfl (fun _ => rfl) rfl hunbuilt.1

theorem ownInv_recycleRead {e : Nat} {t : Tag} {d : Device} (h : OwnInv s)
    (hpc : (s.clients c).pc = .recycleRead e t)
    (hd : s.dev.i2oRecycleRch e t = some d) :
    OwnInv ({ s with dev := d }.setPc c .idle) := by
  have hold := h.client c
  rw [hpc] at hold
  obtain ⟨hclient, hheld⟩ := hold.pcInv
  have ho : s.dev.owner e = some t := by
    rcases hheld with hlive | hunlinked
    · exact hlive.1
    · exact hunlinked.1
  refine ownInv_recycled h (recycled hd) ?_ trivial rfl ?_ hold.slots_ne
  · intro t' ho'
    obtain rfl := Option.some.inj (ho.symm.trans ho')
    exact hclient
  · intro _
    exact slot_of_request h hpc rfl (fun _ => rfl) rfl ho

/-- The second recycle of a release.  The handler is nobody's. -/
theorem ownInv_recycleLast {e : Nat} {t : Tag} {d : Device} (h : OwnInv s)
    (hfree : s.dev.handlers.reserved e = false)
    (hd : s.dev.i2oRecycleRch e t = some d) :
    OwnInv ({ s with dev := d }.setPc c .cleanup) := by
  have hnone := h.dev.owner_none hfree
  refine ownInv_recycled h (recycled hd) ?_ trivial rfl (fun hc => by cases hc)
    (h.client c).slots_ne
  intro t' ho
  exact absurd (hnone.symm.trans ho) (by simp)

/-- A round of the cleanup on close.  What is on the list with the path of
the client belongs to it. -/
theorem ownInv_cleanup {e : Nat} {caller : Tag} {d : Device} (h : OwnInv s)
    (hpc : (s.clients c).pc = .cleanup) (he : s.dev.cleanupRch c = some e)
    (hd : s.dev.i2oRecycleRch e caller = some d) : OwnInv { s with dev := d } := by
  have hrec := recycled hd
  obtain ⟨hm, hpath⟩ := cleanupRch_mem he
  obtain ⟨ho, hpath'⟩ := h.dev.listed e hm
  refine ownInv_of_client (k := e) (c := c) h (hrec.devInv h.dev) hrec.keeps ?_
    (fun _ _ => rfl) ?_
  · intro t ht
    obtain rfl := Option.some.inj (ho.symm.trans ht)
    exact Option.some.inj (hpath'.symm.trans hpath)
  · have hold := h.client c
    rw [hpc] at hold
    show ClientInv d c (s.clients c).pc (s.clients c).rchAB
    rw [hpc]
    exact ⟨trivial, (fun hc => by cases hc), (fun _ ht => by cases ht),
      hold.slots_ne⟩

theorem ownInv_recycleAB {buffer : Buffer} {recycleA recycleB : Bool} {e : Nat}
    {t : Tag} {d : Device} {client : Client} (h : OwnInv s)
    (hpc : (s.clients c).pc = .recycleAB buffer recycleA recycleB)
    (hslot : (s.clients c).rchAB buffer = some (e, t))
    (hd : s.dev.i2oRecycleRch e t = some d)
    (hslots : client.rchAB = Function.update (s.clients c).rchAB buffer none)
    (hfree : client.pc.entryFree = true) :
    OwnInv ({ s with dev := d }.setClient c client) := by
  have hold := h.client c
  rw [hpc] at hold
  obtain ⟨hclient, hlive⟩ := hold.slot rfl buffer e t hslot
  have hlive := hlive rfl
  have hother : ∀ other e' t', client.rchAB other = some (e', t') →
      other ≠ buffer ∧ (s.clients c).rchAB other = some (e', t') := by
    intro other e' t' hs
    rw [hslots] at hs
    by_cases heq : other = buffer
    · rw [heq, Function.update_self] at hs
      cases hs
    · rw [Function.update_of_ne heq] at hs
      exact ⟨heq, hs⟩
  refine ownInv_recycled h (recycled hd) ?_ (PcInv.of_entryFree hfree)
    (Pc.request_of_entryFree hfree) ?_ ?_
  · intro t' ho
    obtain rfl := Option.some.inj (hlive.1.symm.trans ho)
    exact hclient
  · intro _ other e' t' hs
    obtain ⟨hne, hs⟩ := hother other e' t' hs
    obtain ⟨hc', hlive'⟩ := hold.slot rfl other e' t' hs
    have hlive' := hlive' rfl
    refine ⟨hc', ?_, hlive'⟩
    rintro rfl
    obtain rfl := Option.some.inj (hlive.1.symm.trans hlive'.1)
    cases buffer with
    | bufferA =>
      cases other with
      | bufferA => exact hne rfl
      | bufferB => exact hold.slots_ne e' t e' hslot hs
    | bufferB =>
      cases other with
      | bufferA => exact hold.slots_ne e' t e' hs hslot
      | bufferB => exact hne rfl
  · intro a t' b ha hb
    exact hold.slots_ne a t' b (hother _ _ _ ha).2 (hother _ _ _ hb).2

theorem ownInv_removeIfNotValid {e : Nat} {t : Tag} {d : Device} {valid : Int}
    (h : OwnInv s) (hpc : (s.clients c).pc = .removeIfNotValid e t)
    (hd : s.dev.rchRemoveIfNotValid e = some (d, valid)) :
    OwnInv ({ s with dev := d }.setPc c
      (if valid = 0 then .idle else .recycleRead e t)) := by
  have hold := h.client c
  rw [hpc] at hold
  obtain ⟨hclient, hlive⟩ := hold.pcInv
  obtain ⟨hdev, hk, hvalid, hcases⟩ := removeIfNotValid_cases h.dev hlive hd
  have hslot : ∀ buffer e' t', (s.clients c).rchAB buffer = some (e', t') →
      t'.client = c ∧ Live d e' t' .handleReadMessageFile := by
    intro buffer e' t' hs
    obtain ⟨hc', hne, hlive'⟩ :=
      slot_of_request h hpc rfl (fun _ => rfl) rfl hlive.1 buffer e' t' hs
    exact ⟨hc', hlive'.of_keeps hk hne⟩
  refine ownInv_of_client (k := e) (c := c) h hdev hk ?_
    (fun other hne => Sys.setClient_of_ne _ hne _) ?_
  · intro t' ho
    obtain rfl := Option.some.inj (hlive.1.symm.trans ho)
    exact hclient
  · rw [Sys.setPc_self]
    split
    · refine ⟨trivial, ?_, (fun _ ht => by cases ht), hold.slots_ne⟩
      intro _ buffer e' t' hs
      exact ⟨(hslot buffer e' t' hs).1, fun _ => (hslot buffer e' t' hs).2⟩
    · rename_i hzero
      refine ⟨⟨hclient, ?_⟩, ?_, hold.slot_ne, hold.slots_ne⟩
      · rcases hcases with ⟨_, rfl⟩ | ⟨hone, ho, hrch, hlist⟩
        · exact Or.inl hlive
        · have hle := h.dev.valid_le e
          have hneg : valid < 0 := by omega
          rw [if_pos hneg] at hlist
          refine Or.inr ⟨ho, ?_, ?_⟩
          · show e ∉ d.list
            rw [hlist]
            exact fun hm => (h.dev.list_nodup.mem_erase_iff.mp hm).1 rfl
          · show (d.rch e).path.isSome = true
            rw [hrch]
            exact hlive.2.2.1 ▸ rfl
      · intro _ buffer e' t' hs
        exact ⟨(hslot buffer e' t' hs).1, fun _ => (hslot buffer e' t' hs).2⟩

/-- A reply recycles no handler that a client relies on. -/
theorem ownInv_dispatch {id : BitVec 16} {start nsamples : BitVec 32} {d : Device}
    {replies : List Posted} (h : OwnInv s)
    (hd : s.dev.processCommandMessageReturn id start nsamples = some d) :
    OwnInv { s with dev := d, replies := replies } := by
  rcases dispatch_cases h.dev hd with ⟨_, rfl⟩ | ⟨e, hfind, hcase⟩
  · exact ⟨h.dev, h.client⟩
  · obtain ⟨hm, _⟩ := findRch_mem hfind
    rcases hcase with ⟨hread, rfl⟩ | ⟨hread, hrec⟩
    · refine ⟨h.dev.setReturn (valid_setSamples _ _ _), fun c => ?_⟩
      refine (h.client c).mono ⟨fun _ _ _ hlive => hlive.setReturn _, ?_⟩
      intro other t _ ho hoff
      have hne : other ≠ e := fun heq => hoff (heq ▸ hm)
      exact ⟨(keepsOthers_setRch s.dev e _ other hne).1, ho, hoff⟩
    · refine ⟨hrec.devInv h.dev, fun c => (h.client c).mono ⟨?_, ?_⟩⟩
      · intro other t _ hlive
        refine hlive.of_keeps hrec.keeps ?_
        rintro rfl
        exact hread hlive.2.2.2.2
      · intro other t _ ho hoff
        have hne : other ≠ e := fun heq => hoff (heq ▸ hm)
        obtain ⟨hrch, howner, hlist⟩ := hrec.keeps other hne
        exact ⟨hrch, howner.trans ho, fun hmem => hoff (hlist.mp hmem)⟩

end Steps

/-- Every step keeps the rule, as long as the second recycle of a release
finds its handler unreserved. -/
theorem ownInv_step {l : Label} {s s' : Sys} (h : OwnInv s)
    (hok : SecondRecycleHarmless l s) (ht : Trans l s s') : OwnInv s' := by
  cases ht with
  | oops => exact ⟨h.dev, h.client⟩
  | @neutral _ _ c client busy hl hslots hfree hposting hclosing =>
    refine ownInv_setClient (c := c) h rfl
      (fun other hne => Sys.setClient_of_ne _ hne _) ?_
    rw [Sys.setClient_self, hslots]
    refine (h.client c).move (PcInv.of_entryFree hfree) ?_ ?_ ?_
    · intro hopen
      cases hold : (s.clients c).pc.closing with
      | false => rfl
      | true =>
        rw [hclosing hold] at hopen
        cases hopen
    · intro buffer hq
      rw [Pc.queueing_of_posting hposting] at hq
      cases hq
    · intro t ht
      rw [Pc.request_of_entryFree hfree] at ht
      cases ht
  | sleepMapping hl hpc =>
    have hinv := h.pcInv hpc
    exact ownInv_setPc h hpc hinv (fun _ => rfl)
      (fun _ hq => by cases hq) (fun _ ht => ht)
  | failMapping hl hpc =>
    obtain ⟨hclient, hunbuilt, hop⟩ := h.pcInv hpc
    exact ownInv_setPc h hpc ⟨hclient, hunbuilt⟩ (fun _ => rfl)
      (fun _ hq => by cases hq) (fun _ ht => (Op.request_eq hop).trans ht)
  | failLen hl hpc =>
    obtain ⟨hclient, hunbuilt, hop⟩ := h.pcInv hpc
    exact ownInv_setPc h hpc ⟨hclient, hunbuilt⟩ (fun _ => rfl)
      (fun _ hq => by cases hq) (fun _ ht => (Op.request_eq hop).trans ht)
  | passLen hl hpc =>
    obtain ⟨hclient, hunbuilt, hop⟩ := h.pcInv hpc
    exact ownInv_setPc h hpc
      ⟨hclient, hunbuilt, fun buffer hq => absurd hq (hop buffer)⟩ (fun _ => rfl)
      (fun _ hq => by cases hq) (fun _ ht => ht)
  | endWaitRead hl hpc =>
    have hinv := h.pcInv hpc
    exact ownInv_setPc h hpc hinv (fun _ => rfl)
      (fun _ hq => by cases hq) (fun _ ht => ht)
  | endWaitLast hl hpc =>
    exact ownInv_setPc h hpc trivial (fun _ => rfl) (fun _ hq => by cases hq)
      (fun _ ht => by cases ht)
  | foundValid hpc hvalid =>
    exact ownInv_setPc h hpc trivial (fun _ => rfl) (fun _ hq => by cases hq)
      (fun _ ht => by cases ht)
  | allocRch hl hpc hfree hlt hnext hslots =>
    exact ownInv_allocRch h hpc hfree hlt hnext hslots
  | @allocMapping _ _ c op e t asleep m hl hpc hfree hlt =>
    have hmap : OwnInv { s with dev := s.dev.poolAllocMapping m t } :=
      ownInv_of_mappings h rfl rfl rfl rfl rfl rfl
    have hinv := hmap.pcInv (c := c) hpc
    exact ownInv_setPc hmap hpc hinv (fun _ => rfl)
      (fun _ hq => by cases hq) (fun _ ht => ht)
  | @freeMapping _ c kbuf hpc =>
    have hmap : OwnInv { s with dev := s.dev.poolFreeMapping kbuf } := by
      cases kbuf with
      | mapping m => exact ownInv_of_mappings h rfl rfl rfl rfl rfl rfl
      | other => exact h
    exact ownInv_setPc hmap hpc trivial (fun _ => rfl)
      (fun _ hq => by cases hq) (fun _ ht => by cases ht)
  | build hpc hnext hslots => exact ownInv_build h hpc hnext hslots
  | append hpc hd => exact ownInv_append h hpc hd
  | send hpc => exact ownInv_send h hpc
  | removeIfNotValid hpc hd => exact ownInv_removeIfNotValid h hpc hd
  | recycleUnbuilt hpc hd => exact ownInv_recycleUnbuilt h hpc hd
  | recycleRead hpc hd => exact ownInv_recycleRead h hpc hd
  | @recycleLast _ c e t d hpc hd =>
    exact ownInv_recycleLast h (hok c rfl e (by rw [hpc]; rfl)) hd
  | cleanup hpc he hd => exact ownInv_cleanup h hpc he hd
  | recycleAB hpc hslot hd hslots hfree hopen =>
    exact ownInv_recycleAB h hpc hslot hd hslots hfree
  | answer hp => exact ⟨h.dev, h.client⟩
  | dispatch hp hd => exact ownInv_dispatch h hd

end Acq200.Rch
