import Acq200.Rch.MessageId
import Acq200.Rch.Ownership

/-!
# Which handler a reply goes to

`acq200_processCommandMessageReturn` hands a reply to the first handler on
the list that has its id.  This module asks when that is the handler that
was built for the very request.  As the question is about ids, each
sequence of `buildRch`, `rchAppend` and `acq200_sendI2O_kbuf` is taken as
one step here, and every send finds a free frame.

An id has seven bits, and a handler may stay on the list, or a message
unanswered, for any number of later messages.  `IdNotTaken` excludes that
a request is built while one that was sent a multiple of 128 messages
before is still around.  `replies_routed` proves the contract `Routed` for
every run that meets it, and `id_comes_round` is a run in which the reply
to a read that was left behind goes to the 128th request after it.
-/

namespace Acq200.Rch

open Acq200.Lib Device

/-! ## Requests in one step -/

/-- The step function in which a client that has come to `buildRch` goes on
to the end of its send. -/
def atomicStep (l : Label) (s : Sys) : Option Sys :=
  match l with
  | .go c =>
    match (s.clients c).pc with
    | .build _ _ _ _ =>
      (Sys.step (.go c) s).bind fun s =>
        (Sys.step (.go c) s).bind (Sys.step (.send c true))
    | _ => Sys.step (.go c) s
  | l => Sys.step l s

/-! ## The contract -/

/-- The handler that was built for the message is on the list. -/
def HandlerListed (s : Sys) (p : Posted) : Prop :=
  ∃ e ∈ s.dev.list, (s.dev.rch e).request = p.request

/-- The messages whose reply has not been dispatched. -/
def Outstanding (s : Sys) (p : Posted) : Prop :=
  p ∈ s.unanswered ∨ p ∈ s.replies

/-- The ids on the list differ from each other and from those of the
outstanding messages whose handler has been removed, and a reply goes to
the handler built for its request or, if that was removed, to none. -/
structure Routed (s : Sys) : Prop where
  distinct : ∀ e ∈ s.dev.list, ∀ other ∈ s.dev.list,
    (s.dev.rch e).commandId = (s.dev.rch other).commandId → e = other
  removed : ∀ p, Outstanding s p → ¬ HandlerListed s p →
    ∀ e ∈ s.dev.list, (s.dev.rch e).commandId ≠ p.id
  found : ∀ p, Outstanding s p → HandlerListed s p →
    ∃ e, s.dev.findRch p.id = some e ∧ (s.dev.rch e).request = p.request
  none : ∀ p, Outstanding s p → ¬ HandlerListed s p →
    s.dev.findRch p.id = Option.none

/-- The message, or its handler, is still around. -/
def Active (s : Sys) (p : Posted) : Prop := Outstanding s p ∨ HandlerListed s p

/-- The client is at `buildRch`. -/
def Pc.builds : Pc → Bool
  | .build _ _ _ _ => true
  | _ => false

/-- When a request is built, no message that was sent a multiple of 128
messages before is still around. -/
def IdNotTaken (l : Label) (s : Sys) : Prop :=
  ∀ c ∈ l.goes, (s.clients c).pc.builds = true →
    ∀ p ∈ s.sent, Active s p → (s.sent.length - p.serial) % 128 ≠ 0

instance (l : Label) (s : Sys) : Decidable (IdNotTaken l s) :=
  inferInstanceAs (Decidable (∀ c ∈ l.goes, (s.clients c).pc.builds = true →
    ∀ p ∈ s.sent,
      (p ∈ s.unanswered ∨ p ∈ s.replies) ∨
        (∃ e ∈ s.dev.list, (s.dev.rch e).request = p.request) →
      (s.sent.length - p.serial) % 128 ≠ 0))

/-! ## The invariant -/

/-- The request of a client that has not built its handler yet. -/
def Pc.unbuiltTag : Pc → Option Tag
  | .allocMapping _ _ t _ | .checkLen _ _ t _ | .build _ _ t _ => some t
  | _ => none

structure RouteInv (lastId : BitVec 16) (s : Sys) : Prop where
  own : OwnInv s
  id : IdInv lastId s
  /-- No client stands between `buildRch` and the send. -/
  boundary : ∀ c, (s.clients c).pc.predicted = none
  serial_lt : ∀ p ∈ s.sent, p.serial < s.sent.length
  request_lt : ∀ p ∈ s.sent, p.request.seq < s.dev.allocs
  request_inj : ∀ p ∈ s.sent, ∀ q ∈ s.sent, p.request = q.request → p = q
  unbuilt : ∀ c, ∀ t ∈ (s.clients c).pc.unbuiltTag, ∀ p ∈ s.sent, p.request ≠ t
  outstanding : ∀ p, Outstanding s p → p ∈ s.sent
  listed : ∀ e ∈ s.dev.list, ∃ p ∈ s.sent,
    p.request = (s.dev.rch e).request ∧ p.id = (s.dev.rch e).commandId
  unique : ∀ p ∈ s.sent, ∀ q ∈ s.sent, Active s p → Active s q →
    p.id = q.id → p = q

theorem routeInv_initial (lastId : BitVec 16) :
    RouteInv lastId (initial lastId) where
  own := ownInv_initial lastId
  id := idInv_initial lastId
  boundary := fun _ => rfl
  serial_lt := fun _ h => by cases h
  request_lt := fun _ h => by cases h
  request_inj := fun _ h => by cases h
  unbuilt := fun _ _ h => by cases h
  outstanding := by
    rintro p (h | h)
    · cases h
    · cases h
  listed := fun _ h => by cases h
  unique := fun _ h => by cases h

/-- The invariant gives the contract. -/
theorem RouteInv.routed {lastId : BitVec 16} {s : Sys} (h : RouteInv lastId s) :
    Routed s := by
  have hsame : ∀ p, Outstanding s p → ∀ e ∈ s.dev.list,
      (s.dev.rch e).commandId = p.id → (s.dev.rch e).request = p.request := by
    intro p hp e he hid
    obtain ⟨q, hq, hreq, hqid⟩ := h.listed e he
    have heq := h.unique p (h.outstanding p hp) q hq (Or.inl hp)
      (Or.inr ⟨e, he, hreq.symm⟩) (hid.symm.trans hqid.symm)
    rw [heq, hreq]
  have hnone : ∀ p, Outstanding s p → ¬ HandlerListed s p →
      ∀ e ∈ s.dev.list, (s.dev.rch e).commandId ≠ p.id := by
    intro p hp hgone e he hid
    exact hgone ⟨e, he, hsame p hp e he hid⟩
  refine ⟨?_, hnone, ?_, ?_⟩
  · intro e he other hother hid
    obtain ⟨p, hp, hpreq, hpid⟩ := h.listed e he
    obtain ⟨q, hq, hqreq, hqid⟩ := h.listed other hother
    have heq := h.unique p hp q hq (Or.inr ⟨e, he, hpreq.symm⟩)
      (Or.inr ⟨other, hother, hqreq.symm⟩) (hpid.trans (hid.trans hqid.symm))
    rw [heq, hqreq] at hpreq
    have howner := (h.own.dev.listed e he).1
    rw [← hpreq] at howner
    exact h.own.dev.owner_inj e other _ howner (h.own.dev.listed other hother).1
  · rintro p hp ⟨e, he, hreq⟩
    obtain ⟨q, hq, hqreq, hqid⟩ := h.listed e he
    have hpq := h.request_inj q hq p (h.outstanding p hp) (hqreq.trans hreq)
    have hsome : (s.dev.findRch p.id).isSome = true := by
      rw [findRch, List.find?_isSome]
      exact ⟨e, he, by rw [← hpq, hqid]; simp⟩
    obtain ⟨found, hfound⟩ := Option.isSome_iff_exists.mp hsome
    obtain ⟨hmem, hid⟩ := findRch_mem hfound
    exact ⟨found, hfound, hsame p hp found hmem hid⟩
  · intro p hp hgone
    rw [findRch, List.find?_eq_none]
    intro e he
    simpa using hnone p hp hgone e he

/-! ## Steps that post nothing -/

/-- The handlers on the list were there before. -/
def ListShrinks (d d' : Device) : Prop :=
  ∀ e ∈ d'.list, e ∈ d.list ∧ (d'.rch e).request = (d.rch e).request ∧
    (d'.rch e).commandId = (d.rch e).commandId

/-- A step that posts nothing and links nothing. -/
structure Quiet (s s' : Sys) : Prop where
  sent : s'.sent = s.sent
  list : ListShrinks s.dev s'.dev
  outstanding : ∀ p, Outstanding s' p → Outstanding s p
  allocs : s.dev.allocs ≤ s'.dev.allocs
  boundary : ∀ c, (s'.clients c).pc.predicted = none
  unbuilt : ∀ c, ∀ t ∈ (s'.clients c).pc.unbuiltTag,
    t ∈ (s.clients c).pc.unbuiltTag ∨ t.seq = s.dev.allocs

section Quiet

variable {s s' : Sys} {d d' : Device} {e : Nat} {caller : Tag}

theorem ListShrinks.refl (d : Device) : ListShrinks d d :=
  fun _ he => ⟨he, rfl, rfl⟩

theorem Device.Recycled.listShrinks (h : Recycled d d' e caller) (hinv : DevInv d) :
    ListShrinks d d' := by
  intro other hother
  have hne : other ≠ e := fun heq => h.not_mem hinv (heq ▸ hother)
  obtain ⟨hrch, _, hlist⟩ := h.keeps other hne
  rw [hrch]
  exact ⟨hlist.mp hother, rfl, rfl⟩

theorem listShrinks_setReturn (d : Device) (e : Nat) (r : RchReturn) :
    ListShrinks d (d.setRch e { d.rch e with rchReturn := r }) := by
  intro other hother
  by_cases heq : other = e
  · rw [heq, setRch_rch_self]
    exact ⟨heq ▸ hother, rfl, rfl⟩
  · rw [(keepsOthers_setRch d e _ other heq).1]
    exact ⟨hother, rfl, rfl⟩

theorem listShrinks_dispatch {id : BitVec 16} {start nsamples : BitVec 32}
    (hinv : DevInv d)
    (h : d.processCommandMessageReturn id start nsamples = some d') :
    ListShrinks d d' ∧ d'.allocs = d.allocs := by
  rcases dispatch_cases hinv h with ⟨_, rfl⟩ | ⟨e, _, ⟨_, rfl⟩ | ⟨_, hrec⟩⟩
  · exact ⟨ListShrinks.refl d', rfl⟩
  · exact ⟨listShrinks_setReturn d e _, rfl⟩
  · exact ⟨hrec.listShrinks hinv, hrec.allocs⟩

theorem listShrinks_removeIfNotValid {t : Tag} {valid : Int} (hinv : DevInv d)
    (hlive : Live d e t .handleReadMessageFile)
    (h : d.rchRemoveIfNotValid e = some (d', valid)) : ListShrinks d d' := by
  obtain ⟨_, hk, _, hcases⟩ := removeIfNotValid_cases hinv hlive h
  intro other hother
  by_cases heq : other = e
  · rw [heq] at hother ⊢
    rcases hcases with ⟨_, rfl⟩ | ⟨_, _, hrch, _⟩
    · exact ⟨hother, rfl, rfl⟩
    · rw [hrch]
      exact ⟨hlive.2.1, rfl, rfl⟩
  · obtain ⟨hrch, _, hlist⟩ := hk other heq
    rw [hrch]
    exact ⟨hlist.mp hother, rfl, rfl⟩

/-- A client that moves, with what its step did to the device. -/
theorem quiet_setClient {c : Nat} {client : Client} {b : Bool}
    (hboundary : ∀ c, (s.clients c).pc.predicted = none)
    (hlist : ListShrinks s.dev d) (hallocs : s.dev.allocs ≤ d.allocs)
    (hpredicted : client.pc.predicted = none)
    (hunbuilt : ∀ t ∈ client.pc.unbuiltTag,
      t ∈ (s.clients c).pc.unbuiltTag ∨ t.seq = s.dev.allocs) :
    Quiet s ({ s with dev := d, busyFree := b }.setClient c client) := by
  refine ⟨rfl, hlist, fun _ hp => hp, hallocs, ?_, ?_⟩
  · intro other
    by_cases heq : other = c
    · rw [heq, Sys.setClient_self]
      exact hpredicted
    · rw [Sys.setClient_of_ne _ heq]
      exact hboundary other
  · intro other
    by_cases heq : other = c
    · rw [heq, Sys.setClient_self]
      exact hunbuilt
    · rw [Sys.setClient_of_ne _ heq]
      exact fun _ ht => Or.inl ht

theorem Pc.unbuiltTag_of_entryFree {pc : Pc} (h : pc.entryFree = true) :
    pc.unbuiltTag = none := by
  cases pc <;> first | rfl | cases h

/-- Every step is quiet that is not part of a post. -/
theorem quiet_of_trans {l : Label} (h : OwnInv s)
    (hboundary : ∀ c, (s.clients c).pc.predicted = none)
    (hbuilds : ∀ c ∈ l.goes, (s.clients c).pc.builds = false)
    (ht : Trans l s s') : Quiet s s' := by
  have hgone : ∀ {c : Nat} {pc : Pc}, pc.unbuiltTag = none →
      ∀ t ∈ pc.unbuiltTag, t ∈ (s.clients c).pc.unbuiltTag ∨ t.seq = s.dev.allocs := by
    intro c pc hpc t ht
    rw [hpc] at ht
    cases ht
  have hkept : ∀ {c : Nat} {pc pc' : Pc}, (s.clients c).pc = pc →
      pc'.unbuiltTag = pc.unbuiltTag → ∀ t ∈ pc'.unbuiltTag,
        t ∈ (s.clients c).pc.unbuiltTag ∨ t.seq = s.dev.allocs := by
    intro c pc pc' hpc heq t ht
    rw [hpc, ← heq]
    exact Or.inl ht
  have hmove : ∀ {c : Nat} {client : Client} {b : Bool},
      client.pc.predicted = none →
      (∀ t ∈ client.pc.unbuiltTag,
        t ∈ (s.clients c).pc.unbuiltTag ∨ t.seq = s.dev.allocs) →
      Quiet s ({ s with busyFree := b }.setClient c client) :=
    fun hp hu => quiet_setClient hboundary (ListShrinks.refl _) (Nat.le_refl _) hp hu
  cases ht with
  | oops =>
    exact ⟨rfl, ListShrinks.refl _, fun _ hp => hp, Nat.le_refl _, hboundary,
      fun _ _ ht => Or.inl ht⟩
  | neutral hl hslots hfree hposting hclosing =>
    exact hmove (Pc.predicted_of_entryFree hfree)
      (hgone (Pc.unbuiltTag_of_entryFree hfree))
  | sleepMapping hl hpc =>
    exact hmove (b := s.busyFree) rfl (hkept hpc rfl)
  | failMapping hl hpc => exact hmove (b := s.busyFree) rfl (hgone rfl)
  | failLen hl hpc => exact hmove (b := s.busyFree) rfl (hgone rfl)
  | passLen hl hpc => exact hmove (b := s.busyFree) rfl (hkept hpc rfl)
  | endWaitRead hl hpc => exact hmove (b := s.busyFree) rfl (hgone rfl)
  | endWaitLast hl hpc => exact hmove (b := s.busyFree) rfl (hgone rfl)
  | foundValid hpc hvalid => exact hmove (b := s.busyFree) rfl (hgone rfl)
  | @allocRch _ _ c op asleep e client hl hpc hfree hlt hnext hslots =>
    refine quiet_setClient (b := s.busyFree) hboundary (ListShrinks.refl s.dev)
      (Nat.le_succ _) ?_ ?_
    · rw [hnext]
      cases op <;> rfl
    · rw [hnext]
      intro t ht
      refine Or.inr ?_
      cases op <;> exact (Option.some.inj ht) ▸ rfl
  | allocMapping hl hpc hfree hlt =>
    exact quiet_setClient (b := s.busyFree) hboundary (ListShrinks.refl s.dev)
      (Nat.le_refl _) rfl (hkept hpc rfl)
  | @freeMapping _ c kbuf hpc =>
    cases kbuf with
    | mapping m =>
      exact quiet_setClient (b := s.busyFree) hboundary (ListShrinks.refl s.dev)
        (Nat.le_refl _) rfl (hgone rfl)
    | other => exact hmove (b := s.busyFree) rfl (hgone rfl)
  | @build _ c op e t kbuf client hpc hnext hslots =>
    have hfalse := hbuilds c rfl
    rw [hpc] at hfalse
    cases hfalse
  | @append _ c op e t kbuf predicted d hpc hd =>
    have hfalse := hboundary c
    rw [hpc] at hfalse
    cases hfalse
  | @send _ c op e t kbuf predicted mfa hpc =>
    have hfalse := hboundary c
    rw [hpc] at hfalse
    cases hfalse
  | @removeIfNotValid _ c e t d valid hpc hd =>
    refine quiet_setClient (b := s.busyFree) hboundary
      (listShrinks_removeIfNotValid h.dev (h.pcInv hpc).2 hd)
      (Nat.le_of_eq (samePools_removeIfNotValid hd).allocs.symm) ?_ (hgone ?_)
    · show Pc.predicted (if valid = 0 then .idle else .recycleRead e t) = none
      split <;> rfl
    · show Pc.unbuiltTag (if valid = 0 then .idle else .recycleRead e t) = none
      split <;> rfl
  | @recycleUnbuilt _ c e t kbuf d hpc hd =>
    refine quiet_setClient (b := s.busyFree) hboundary
      ((recycled hd).listShrinks h.dev) (Nat.le_of_eq (recycled hd).allocs.symm) ?_
      (hgone ?_)
    · cases kbuf <;> rfl
    · cases kbuf <;> rfl
  | recycleRead hpc hd =>
    exact quiet_setClient (b := s.busyFree) hboundary
      ((recycled hd).listShrinks h.dev) (Nat.le_of_eq (recycled hd).allocs.symm) rfl
      (hgone rfl)
  | recycleLast hpc hd =>
    exact quiet_setClient (b := s.busyFree) hboundary
      ((recycled hd).listShrinks h.dev) (Nat.le_of_eq (recycled hd).allocs.symm) rfl
      (hgone rfl)
  | recycleAB hpc hslot hd hslots hfree hopen =>
    exact quiet_setClient (b := s.busyFree) hboundary
      ((recycled hd).listShrinks h.dev) (Nat.le_of_eq (recycled hd).allocs.symm)
      (Pc.predicted_of_entryFree hfree) (hgone (Pc.unbuiltTag_of_entryFree hfree))
  | cleanup hpc he hd =>
    exact ⟨rfl, (recycled hd).listShrinks h.dev, fun _ hp => hp,
      Nat.le_of_eq (recycled hd).allocs.symm, hboundary, fun _ _ ht => Or.inl ht⟩
  | answer hp =>
    refine ⟨rfl, ListShrinks.refl _, ?_, Nat.le_refl _, hboundary,
      fun _ _ ht => Or.inl ht⟩
    rintro q (hq | hq)
    · exact Or.inl (List.mem_of_mem_eraseIdx hq)
    · rcases List.mem_append.mp hq with hq | hq
      · exact Or.inr hq
      · rw [List.mem_singleton.mp hq]
        exact Or.inl (List.mem_of_getElem? hp)
  | dispatch hp hd =>
    obtain ⟨hlist, hallocs⟩ := listShrinks_dispatch h.dev hd
    refine ⟨rfl, hlist, ?_, Nat.le_of_eq hallocs.symm, hboundary,
      fun _ _ ht => Or.inl ht⟩
    rintro q (hq | hq)
    · exact Or.inl hq
    · exact Or.inr (List.mem_of_mem_eraseIdx hq)

theorem Quiet.active (h : Quiet s s') {p : Posted} (hp : Active s' p) :
    Active s p := by
  rcases hp with hp | ⟨e, he, hreq⟩
  · exact Or.inl (h.outstanding p hp)
  · obtain ⟨hmem, hreq', _⟩ := h.list e he
    exact Or.inr ⟨e, hmem, hreq'.symm.trans hreq⟩

theorem RouteInv.quiet {lastId : BitVec 16} (h : RouteInv lastId s)
    (hown : OwnInv s') (hid : IdInv lastId s') (hq : Quiet s s') :
    RouteInv lastId s' := by
  refine ⟨hown, hid, hq.boundary, ?_, ?_, ?_, ?_, ?_, ?_, ?_⟩
  · rw [hq.sent]
    exact h.serial_lt
  · rw [hq.sent]
    exact fun p hp => Nat.lt_of_lt_of_le (h.request_lt p hp) hq.allocs
  · rw [hq.sent]
    exact h.request_inj
  · rw [hq.sent]
    intro c t ht p hp heq
    rcases hq.unbuilt c t ht with hold | hnew
    · exact h.unbuilt c t hold p hp heq
    · have hlt := h.request_lt p hp
      rw [heq, hnew] at hlt
      exact Nat.lt_irrefl _ hlt
  · rw [hq.sent]
    exact fun p hp => h.outstanding p (hq.outstanding p hp)
  · rw [hq.sent]
    intro e he
    obtain ⟨hmem, hreq, hcommand⟩ := hq.list e he
    rw [hreq, hcommand]
    exact h.listed e hmem
  · rw [hq.sent]
    intro p hp q hq' hap haq
    exact h.unique p hp q hq' (hq.active hap) (hq.active haq)

end Quiet

/-! ## Posts -/

section Post

variable {s s' : Sys} {c e : Nat} {op : Op} {t : Tag} {kbuf : Option Kbuf}

theorem not_oopsed {l : Label} (h : Sys.step l s = some s') : s.oopsed = false := by
  cases ho : s.oopsed with
  | false => rfl
  | true =>
    unfold Sys.step at h
    rw [ho] at h
    cases h

/-- Client `c` has moved to `pc`, and no message has. -/
structure Moved (s s' : Sys) (c : Nat) (pc : Pc) : Prop where
  pc : (s'.clients c).pc = pc
  others : ∀ other, other ≠ c → s'.clients other = s.clients other
  oopsed : s'.oopsed = s.oopsed
  sent : s'.sent = s.sent
  unanswered : s'.unanswered = s.unanswered
  replies : s'.replies = s.replies

theorem Moved.trans {s₁ : Sys} {pc pc₁ : Pc} (h₁ : Moved s s₁ c pc₁)
    (h₂ : Moved s₁ s' c pc) : Moved s s' c pc where
  pc := h₂.pc
  others := fun other hne => (h₂.others other hne).trans (h₁.others other hne)
  oopsed := h₂.oopsed.trans h₁.oopsed
  sent := h₂.sent.trans h₁.sent
  unanswered := h₂.unanswered.trans h₁.unanswered
  replies := h₂.replies.trans h₁.replies

theorem moved_setClient (s : Sys) (c : Nat) (d : Device) (client : Client) :
    Moved s ({ s with dev := d }.setClient c client) c client.pc where
  pc := by rw [Sys.setClient_self]
  others := fun _ hne => Sys.setClient_of_ne _ hne _
  oopsed := rfl
  sent := rfl
  unanswered := rfl
  replies := rfl

theorem step_build (hoops : s.oopsed = false)
    (hpc : (s.clients c).pc = .build op e t kbuf) :
    ∃ s', Sys.step (.go c) s = some s' ∧
      s'.dev = s.dev.buildRch e op.handler c kbuf op.flags t ∧
      ∃ predicted, Moved s s' c (.append op e t kbuf predicted) := by
  refine ⟨_, ?_, rfl, _, moved_setClient s c
    (s.dev.buildRch e op.handler c kbuf op.flags t)
    { s.clients c with
      pc := .append op e t kbuf
        ⟨((s.dev.buildRch e op.handler c kbuf op.flags t).rch e).commandId,
          s.sent.length⟩
      directed := true }⟩
  simp [Sys.step, hoops, Sys.clientStep, hpc, Sys.goRequest]

theorem step_append {predicted : Predicted} (hoops : s.oopsed = false)
    (hpc : (s.clients c).pc = .append op e t kbuf predicted)
    (he : e ∉ s.dev.list) :
    ∃ s', Sys.step (.go c) s = some s' ∧
      s'.dev = { s.dev with list := s.dev.list ++ [e] } ∧
      Moved s s' c (.send op e t kbuf predicted) := by
  refine ⟨_, ?_, rfl, moved_setClient s c
    { s.dev with list := s.dev.list ++ [e] }
    { s.clients c with pc := .send op e t kbuf predicted }⟩
  simp [Sys.step, hoops, Sys.clientStep, hpc, Sys.goRequest, rchAppend, he,
    Sys.orOops, Sys.setPc]

theorem step_send {predicted : Predicted} (mfa : Bool) (hoops : s.oopsed = false)
    (hpc : (s.clients c).pc = .send op e t kbuf predicted) :
    Sys.step (.send c mfa) s = some
      ((s.sendI2OKbuf e t kbuf predicted mfa).setPc c (Sys.afterSend op e t)) := by
  simp [Sys.step, hoops, Sys.clientStep, hpc]

/-- The three steps of a post. -/
theorem post_steps (hoops : s.oopsed = false)
    (hpc : (s.clients c).pc = .build op e t kbuf) (he : e ∉ s.dev.list) :
    ∃ s₁ s₂ predicted, Sys.step (.go c) s = some s₁ ∧
      Sys.step (.go c) s₁ = some s₂ ∧
      s₂.dev = { s.dev.buildRch e op.handler c kbuf op.flags t with
        list := s.dev.list ++ [e] } ∧
      Moved s s₁ c (.append op e t kbuf predicted) ∧
      Moved s s₂ c (.send op e t kbuf predicted) ∧
      atomicStep (.go c) s = some
        ((s₂.sendI2OKbuf e t kbuf predicted true).setPc c (Sys.afterSend op e t)) := by
  obtain ⟨s₁, h₁, hdev₁, predicted, hm₁⟩ := step_build hoops hpc
  have he₁ : e ∉ s₁.dev.list := by
    rw [hdev₁]
    exact he
  obtain ⟨s₂, h₂, hdev₂, hm₂⟩ := step_append (hm₁.oopsed.trans hoops) hm₁.pc he₁
  have hoops₂ : s₂.oopsed = false := hm₂.oopsed.trans (hm₁.oopsed.trans hoops)
  refine ⟨s₁, s₂, predicted, h₁, h₂, ?_, hm₁, hm₁.trans hm₂, ?_⟩
  · rw [hdev₂, hdev₁]
    rfl
  · simp only [atomicStep, hpc, h₁, Option.bind_some, h₂]
    exact step_send true hoops₂ hm₂.pc

/-- What a post leaves behind. -/
structure Post (s s' : Sys) (c e : Nat) (t : Tag) (p : Posted) : Prop where
  sent : s'.sent = s.sent ++ [p]
  unanswered : s'.unanswered = s.unanswered ++ [p]
  replies : s'.replies = s.replies
  list : s'.dev.list = s.dev.list ++ [e]
  rch : ∀ other, other ≠ e → s'.dev.rch other = s.dev.rch other
  request : (s'.dev.rch e).request = t
  commandId : (s'.dev.rch e).commandId = p.id
  allocs : s'.dev.allocs = s.dev.allocs
  message : p.request = t ∧ p.serial = s.sent.length
  others : ∀ other, other ≠ c → s'.clients other = s.clients other
  boundary : (s'.clients c).pc.predicted = none
  unbuilt : (s'.clients c).pc.unbuiltTag = none

/-- A client inside a post is not about to recycle. -/
theorem harmless_of_pc {l : Label} (hl : ∀ other ∈ l.goes, other = c)
    (hlast : (s.clients c).pc.lastEntry = none) : SecondRecycleHarmless l s := by
  intro other hgoes e he
  rw [hl other hgoes, hlast] at he
  cases he

/-- A post keeps the rule of ownership and sends the message of its handler. -/
theorem post_of_atomicStep {lastId : BitVec 16} (hown : OwnInv s)
    (hid : IdInv lastId s) (hpc : (s.clients c).pc = .build op e t kbuf)
    (h : atomicStep (.go c) s = some s') :
    OwnInv s' ∧ IdInv lastId s' ∧ ∃ p, Post s s' c e t p := by
  have hoops : s.oopsed = false := by
    simp only [atomicStep, hpc] at h
    obtain ⟨_, h₁, _⟩ := Option.bind_eq_some_iff.mp h
    exact not_oopsed h₁
  have hgoes : ∀ other ∈ (Label.go c).goes, other = c :=
    fun other ho => (Option.some.inj ho).symm
  obtain ⟨s₁, s₂, predicted, h₁, h₂, hdev, hm₁, hm₂, hpost⟩ :=
    post_steps hoops hpc (hown.pcInv hpc).2.1.2.1
  have h₃ := step_send true (hm₂.oopsed.trans hoops) hm₂.pc
  obtain rfl := Option.some.inj (hpost.symm.trans h)
  have hown₁ := ownInv_step hown (harmless_of_pc hgoes (by rw [hpc]; rfl))
    (trans_of_step h₁)
  have hown₂ := ownInv_step hown₁ (harmless_of_pc hgoes (by rw [hm₁.pc]; rfl))
    (trans_of_step h₂)
  have hown₃ := ownInv_step hown₂
    (harmless_of_pc (c := c) (fun _ ho => by cases ho) (by rw [hm₂.pc]; rfl))
    (trans_of_step h₃)
  have hid₃ := idInv_step _ _ _ (idInv_step _ _ _ (idInv_step _ _ _ hid h₁) h₂) h₃
  have hafter : (Sys.afterSend op e t).predicted = none ∧
      (Sys.afterSend op e t).unbuiltTag = none := by
    rcases op with _ | _ | _ | (_ | _) | _ <;> exact ⟨rfl, rfl⟩
  refine ⟨hown₃, hid₃, s₂.nextMessage e t kbuf predicted, ?_, ?_, hm₂.replies, ?_, ?_,
    ?_, ?_, ?_, ⟨rfl, congrArg List.length hm₂.sent⟩, ?_, ?_, ?_⟩
  · exact congrArg (· ++ [_]) hm₂.sent
  · exact congrArg (· ++ [_]) hm₂.unanswered
  · show s₂.dev.list = _
    rw [hdev]
  · intro other hne
    show s₂.dev.rch other = _
    rw [hdev]
    exact Function.update_of_ne hne _ _
  · show (s₂.dev.rch e).request = t
    rw [hdev]
    show ((s.dev.setRch e _).rch e).request = t
    rw [setRch_rch_self]
  · show (s₂.dev.rch e).commandId = makeIdDtacq ((s₂.dev.i2oLastIdOut + 1).signExtend 32)
    rw [hdev]
    show ((s.dev.setRch e _).rch e).commandId = _
    rw [setRch_rch_self, makeIdDtacq_incremented]
    exact makeIdDtacq_next s.dev.i2oLastIdOut
  · show s₂.dev.allocs = _
    rw [hdev]
    rfl
  · intro other hne
    rw [Sys.setPc, Sys.setClient_of_ne _ hne]
    exact hm₂.others other hne
  · rw [Sys.setPc_self]
    exact hafter.1
  · rw [Sys.setPc_self]
    exact hafter.2

theorem unbuiltTag_client {other : Nat} {t' : Tag} (h : OwnInv s)
    (ht : t' ∈ (s.clients other).pc.unbuiltTag) : t'.client = other := by
  have hinv := h.pcInv (c := other) rfl
  cases hpc : (s.clients other).pc with
  | allocMapping _ _ _ _ | checkLen _ _ _ _ | build _ _ _ _ =>
    rw [hpc] at ht hinv
    obtain rfl := Option.some.inj ht
    exact hinv.1
  | _ =>
    rw [hpc] at ht
    cases ht

/-- An old message that is around after the post was around before it. -/
theorem Post.active {p : Posted} (hpost : Post s s' c e t p)
    (hnew : ∀ q ∈ s.sent, q.request ≠ t) : ∀ q ∈ s.sent, Active s' q → Active s q := by
  rintro q hq ((hun | hrep) | ⟨other, hother, hreq⟩)
  · rw [hpost.unanswered, List.mem_append, List.mem_singleton] at hun
    rcases hun with hun | rfl
    · exact Or.inl (Or.inl hun)
    · exact absurd hpost.message.1 (hnew q hq)
  · rw [hpost.replies] at hrep
    exact Or.inl (Or.inr hrep)
  · by_cases heq : other = e
    · rw [heq, hpost.request] at hreq
      exact absurd hreq.symm (hnew q hq)
    · rw [hpost.list, List.mem_append, List.mem_singleton] at hother
      rw [hpost.rch other heq] at hreq
      exact Or.inr ⟨other, hother.resolve_right heq, hreq⟩

/-- A post whose id is not taken. -/
theorem RouteInv.post {lastId : BitVec 16} {p : Posted} (h : RouteInv lastId s)
    (hpc : (s.clients c).pc = .build op e t kbuf)
    (hfresh : ∀ p ∈ s.sent, Active s p → (s.sent.length - p.serial) % 128 ≠ 0)
    (hown : OwnInv s') (hid : IdInv lastId s') (hpost : Post s s' c e t p) :
    RouteInv lastId s' := by
  obtain ⟨hclient, hunbuilt, _⟩ := h.own.pcInv hpc
  have htag : t ∈ (s.clients c).pc.unbuiltTag := by
    rw [hpc]
    exact rfl
  have hnew : ∀ q ∈ s.sent, q.request ≠ t := h.unbuilt c t htag
  have hmem : p ∈ s'.sent := by
    rw [hpost.sent]
    exact List.mem_append_right _ List.mem_cons_self
  have hcases : ∀ q ∈ s'.sent, q ∈ s.sent ∨ q = p := by
    intro q hq
    rw [hpost.sent, List.mem_append, List.mem_singleton] at hq
    exact hq
  have hactive := hpost.active hnew
  -- The new id is that of no old message that is around.
  have hdiffers : ∀ q ∈ s.sent, Active s' q → q.id ≠ p.id := by
    intro q hq hqact heq
    have hlt := h.serial_lt q hq
    have hqid := (h.id.sent q hq).1
    have hpid := (hid.sent p hmem).1
    rw [hqid, hpid, idOf_inj, hpost.message.2] at heq
    exact hfresh q hq (hactive q hq hqact) (by omega)
  refine ⟨hown, hid, ?_, ?_, ?_, ?_, ?_, ?_, ?_, ?_⟩
  · intro other
    by_cases heq : other = c
    · rw [heq]
      exact hpost.boundary
    · rw [hpost.others other heq]
      exact h.boundary other
  · intro q hq
    rw [hpost.sent, List.length_append, List.length_singleton]
    rcases hcases q hq with hq | rfl
    · exact Nat.lt_succ_of_lt (h.serial_lt q hq)
    · rw [hpost.message.2]
      exact Nat.lt_succ_self _
  · intro q hq
    rw [hpost.allocs]
    rcases hcases q hq with hq | rfl
    · exact h.request_lt q hq
    · rw [hpost.message.1]
      exact (h.own.dev.owner_lt e t hunbuilt.1).2
  · intro a ha b hb hreq
    rcases hcases a ha with ha | rfl
    · rcases hcases b hb with hb | rfl
      · exact h.request_inj a ha b hb hreq
      · exact absurd (hreq.trans hpost.message.1) (hnew a ha)
    · rcases hcases b hb with hb | rfl
      · exact absurd (hreq.symm.trans hpost.message.1) (hnew b hb)
      · rfl
  · intro other t' ht' q hq
    by_cases heq : other = c
    · rw [heq, hpost.unbuilt] at ht'
      cases ht'
    · rw [hpost.others other heq] at ht'
      rcases hcases q hq with hq | rfl
      · exact h.unbuilt other t' ht' q hq
      · rw [hpost.message.1]
        rintro rfl
        exact heq ((unbuiltTag_client h.own ht').symm.trans hclient)
  · intro q hq
    rw [hpost.sent, List.mem_append, List.mem_singleton]
    rcases hq with hun | hrep
    · rw [hpost.unanswered, List.mem_append, List.mem_singleton] at hun
      rcases hun with hun | rfl
      · exact Or.inl (h.outstanding q (Or.inl hun))
      · exact Or.inr rfl
    · rw [hpost.replies] at hrep
      exact Or.inl (h.outstanding q (Or.inr hrep))
  · intro other hother
    by_cases heq : other = e
    · rw [heq, hpost.request, hpost.commandId]
      exact ⟨p, hmem, hpost.message.1, rfl⟩
    · rw [hpost.list, List.mem_append, List.mem_singleton] at hother
      obtain ⟨q, hq, hreq, hqid⟩ := h.listed other (hother.resolve_right heq)
      rw [hpost.rch other heq, hpost.sent]
      exact ⟨q, List.mem_append_left _ hq, hreq, hqid⟩
  · intro a ha b hb haact hbact hab
    rcases hcases a ha with ha | rfl
    · rcases hcases b hb with hb | rfl
      · exact h.unique a ha b hb (hactive a ha haact) (hactive b hb hbact) hab
      · exact absurd hab (hdiffers a ha haact)
    · rcases hcases b hb with hb | rfl
      · exact absurd hab.symm (hdiffers b hb hbact)
      · rfl

end Post

/-! ## Runs -/

/-- A step that is no post is a step of the system. -/
theorem step_of_atomicStep {l : Label} {s s' : Sys}
    (hbuilds : ∀ c ∈ l.goes, (s.clients c).pc.builds = false)
    (h : atomicStep l s = some s') : Sys.step l s = some s' := by
  cases l with
  | go c =>
    have hfalse := hbuilds c rfl
    simp only [atomicStep] at h
    split at h
    · rename_i hpc
      rw [hpc] at hfalse
      cases hfalse
    · exact h
  | _ => exact h

theorem routeInv_step {lastId : BitVec 16} (l : Label) (s s' : Sys)
    (h : RouteInv lastId s) (hok : IdNotTaken l s ∧ SecondRecycleHarmless l s)
    (hs : atomicStep l s = some s') : RouteInv lastId s' := by
  obtain ⟨hfresh, hharmless⟩ := hok
  by_cases hbuilds : ∀ c ∈ l.goes, (s.clients c).pc.builds = false
  · have hstep := step_of_atomicStep hbuilds hs
    have ht := trans_of_step hstep
    exact h.quiet (ownInv_step h.own hharmless ht) (idInv_step _ _ _ h.id hstep)
      (quiet_of_trans h.own h.boundary hbuilds ht)
  · push Not at hbuilds
    obtain ⟨c, hc, hpc⟩ := hbuilds
    have hpc : (s.clients c).pc.builds = true := by simpa using hpc
    have hl : l = .go c := by
      cases l with
      | go other => rw [Option.some.inj hc]
      | _ => cases hc
    subst hl
    cases hbuild : (s.clients c).pc with
    | build op e t kbuf =>
      obtain ⟨hown, hid, p, hpost⟩ := post_of_atomicStep h.own h.id hbuild hs
      exact h.post hbuild (hfresh c rfl hpc) hown hid hpost
    | _ =>
      rw [hbuild] at hpc
      cases hpc

/-- In every run in which no request takes the id of one that is still
around, and no second recycle of a release hits another request, each reply
goes to the handler of its own request or to none. -/
theorem replies_routed {lastId : BitVec 16} {labels : List Label} {s : Sys}
    (hok : RunMeets atomicStep
      (fun l s => IdNotTaken l s ∧ SecondRecycleHarmless l s) labels (initial lastId))
    (hrun : runFrom atomicStep labels (initial lastId) = some s) : Routed s :=
  (runFrom_inv routeInv_step (routeInv_initial lastId) hok hrun).routed

/-- A write, up to its post. -/
def writePosted : List Label :=
  [.call 0 .write, .go 0, .go 0, .check 0 false, .go 0]

/-- A write that the card answers at once. -/
def answeredWrite : List Label := writePosted ++ [.answer 1, .dispatch 0 0#32 0#32]

/-- A read that a signal interrupts, whose message stays with the card. -/
def interruptedRead : List Label :=
  [.openFile 0 .bridge, .call 0 .read, .go 0, .go 0, .check 0 false, .go 0, .signal 0,
    .go 0]

/-- A read is interrupted, a write is answered, and then the read is. -/
def lateRead : List Label :=
  interruptedRead ++ answeredWrite ++ [.answer 0, .dispatch 0 0#32 0#32]

theorem replies_routed_lateRead :
    ∃ s, runFrom atomicStep lateRead (initial 0) = some s ∧ Routed s :=
  ⟨_, rfl, @replies_routed 0 lateRead _ (by decide) rfl⟩

/-! ## A handler that is left behind -/

section Behind

variable {s : Sys} {e m n : Nat} {t : Tag}

theorem step_callWrite (hoops : s.oopsed = false) (hpc : (s.clients 0).pc = .idle) :
    ∃ s', atomicStep (.call 0 .write) s = some s' ∧ s'.dev = s.dev ∧
      Moved s s' 0 (.allocRch .write none) := by
  refine ⟨s.setPc 0 (.allocRch .write none), ?_, rfl, moved_setClient s 0 s.dev _⟩
  simp [atomicStep, Sys.step, hoops, Sys.clientStep, hpc, Sys.call]

theorem step_allocRch (hoops : s.oopsed = false)
    (hpc : (s.clients 0).pc = .allocRch .write none)
    (hfound : s.dev.handlers.stretch none = some (.found e)) :
    ∃ s', atomicStep (.go 0) s = some s' ∧ s'.dev = s.dev.poolAllocRch e 0 ∧
      Moved s s' 0 (.allocMapping .write e ⟨0, s.dev.allocs⟩ none) := by
  refine ⟨_, ?_, rfl, moved_setClient s 0 (s.dev.poolAllocRch e 0)
    { s.clients 0 with pc := .allocMapping .write e ⟨0, s.dev.allocs⟩ none }⟩
  simp [atomicStep, Sys.step, hoops, Sys.clientStep, hpc, Sys.goRequest,
    Sys.goAllocRch, hfound, Sys.afterAllocRch, Sys.slotsAfterAlloc]

theorem step_allocMapping (hoops : s.oopsed = false)
    (hpc : (s.clients 0).pc = .allocMapping .write e t none)
    (hfound : s.dev.mappings.stretch none = some (.found m)) :
    ∃ s', atomicStep (.go 0) s = some s' ∧ s'.dev = s.dev.poolAllocMapping m t ∧
      Moved s s' 0 (.checkLen .write e t (.mapping m)) := by
  refine ⟨_, ?_, rfl, moved_setClient s 0 (s.dev.poolAllocMapping m t)
    { s.clients 0 with pc := .checkLen .write e t (.mapping m) }⟩
  simp [atomicStep, Sys.step, hoops, Sys.clientStep, hpc, Sys.goRequest,
    Sys.goAllocMapping, hfound, Sys.setPc]

theorem step_checkWrite (hoops : s.oopsed = false)
    (hpc : (s.clients 0).pc = .checkLen .write e t (.mapping m)) :
    ∃ s', atomicStep (.check 0 false) s = some s' ∧ s'.dev = s.dev ∧
      Moved s s' 0 (.build .write e t (some (.mapping m))) := by
  refine ⟨s.setPc 0 (.build .write e t (some (.mapping m))), ?_, rfl,
    moved_setClient s 0 s.dev _⟩
  simp [atomicStep, Sys.step, hoops, Sys.clientStep, hpc, Sys.check]

/-- The device after the post of a write. -/
def postedWrite (d : Device) (e m : Nat) : Device :=
  let t : Tag := ⟨0, d.allocs⟩
  let d := (d.poolAllocRch e 0).poolAllocMapping m t
  { d.buildRch e .recycleRchWrapper 0 (some (.mapping m)) RCH_KB_POOL t with
    list := d.list ++ [e]
    i2oLastIdOut := d.i2oLastIdOut + 1
    i2oPacketsOutgoing := d.i2oPacketsOutgoing + 1 }

/-- What is left of a write after its post. -/
structure Written (s s' : Sys) (e m : Nat) (p : Posted) : Prop where
  dev : s'.dev = postedWrite s.dev e m
  pc : (s'.clients 0).pc = .idle
  oopsed : s'.oopsed = false
  unanswered : s'.unanswered = s.unanswered ++ [p]
  replies : s'.replies = s.replies
  id : p.id = idOf (s.dev.i2oLastIdOut.toNat + 1)

theorem run_writePosted (hoops : s.oopsed = false) (hpc : (s.clients 0).pc = .idle)
    (hrch : s.dev.handlers.stretch none = some (.found e))
    (hmapping : s.dev.mappings.stretch none = some (.found m))
    (he : e ∉ s.dev.list) :
    ∃ s' p, runFrom atomicStep writePosted s = some s' ∧ Written s s' e m p := by
  obtain ⟨s₁, h₁, hd₁, hm₁⟩ := step_callWrite hoops hpc
  have ho₁ := hm₁.oopsed.trans hoops
  obtain ⟨s₂, h₂, hd₂, hm₂⟩ := step_allocRch ho₁ hm₁.pc (by rw [hd₁]; exact hrch)
  have ho₂ := hm₂.oopsed.trans ho₁
  rw [hd₁] at hd₂ hm₂
  obtain ⟨s₃, h₃, hd₃, hm₃⟩ := step_allocMapping (m := m) ho₂ hm₂.pc
    (by rw [hd₂]; exact hmapping)
  have ho₃ := hm₃.oopsed.trans ho₂
  obtain ⟨s₄, h₄, hd₄, hm₄⟩ := step_checkWrite ho₃ hm₃.pc
  have ho₄ := hm₄.oopsed.trans ho₃
  rw [hd₃, hd₂] at hd₄
  have hm := ((hm₁.trans hm₂).trans hm₃).trans hm₄
  have hlist : e ∉ s₄.dev.list := by
    rw [hd₄]
    exact he
  obtain ⟨_, s₅, predicted, _, _, hdev, _, hm₅, h₅⟩ := post_steps ho₄ hm₄.pc hlist
  refine ⟨_, s₅.nextMessage e ⟨0, s.dev.allocs⟩ (some (.mapping m)) predicted,
    ?_, (?_ : Written s ((s₅.sendI2OKbuf e ⟨0, s.dev.allocs⟩ (some (.mapping m))
      predicted true).setPc 0 .idle) e m _)⟩
  · simp only [writePosted, runFrom, h₁, h₂, h₃, h₄, h₅, Option.bind_some]
    rfl
  · refine ⟨?_, by rw [Sys.setPc_self], hm₅.oopsed.trans ho₄, ?_, ?_, ?_⟩
    · show { s₅.dev with
        i2oLastIdOut := s₅.dev.i2oLastIdOut + 1
        i2oPacketsOutgoing := s₅.dev.i2oPacketsOutgoing + 1 } = _
      rw [hdev, hd₄]
      rfl
    · exact congrArg (· ++ [_]) (hm₅.unanswered.trans hm.unanswered)
    · exact hm₅.replies.trans hm.replies
    · show makeIdDtacq ((s₅.dev.i2oLastIdOut + 1).signExtend 32) = _
      rw [hdev, hd₄]
      exact makeIdDtacq_incremented s.dev.i2oLastIdOut

theorem recycle_listed {d : Device} {c : Nat} {kbuf : Kbuf} (he : e ∈ d.list)
    (hpath : (d.rch e).path = some c) (hdevice : (d.rch e).device = true)
    (hkbuf : poolKbuf (d.rch e).rchReturn = some kbuf) :
    d.i2oRecycleRch e t = some
      (((setRch { d with list := d.list.erase e } e
        { d.rch e with path := none, handler := none }).poolFreeMapping
          kbuf).poolFreeRch e t) := by
  simp [i2oRecycleRch, hpath, rchRemove, listDel, he, hdevice, hkbuf]

theorem postedWrite_rch (d : Device) (e m : Nat) :
    (postedWrite d e m).rch e =
      { handler := some .recycleRchWrapper, path := some 0, device := true
        commandId := idOf (d.i2oLastIdOut.toNat + 1)
        rchReturn := { (d.rch e).rchReturn with
          valid := 0, nbytes := 0, kbuf := some (.mapping m), flags := RCH_KB_POOL }
        request := ⟨0, d.allocs⟩ } := by
  rw [← makeIdDtacq_next]
  exact setRch_rch_self _ e _

theorem postedWrite_rch_of_ne (d : Device) {e other : Nat} (h : other ≠ e) (m : Nat) :
    (postedWrite d e m).rch other = d.rch other :=
  Function.update_of_ne h _ _

/-- The reply to the write finds its handler behind the one in entry `1`. -/
theorem dispatch_write {d : Device} (hne : e ≠ 1) (hlist : d.list = [1])
    (hother : (d.rch 1).commandId ≠ idOf (d.i2oLastIdOut.toNat + 1)) :
    ∃ d', (postedWrite d e m).processCommandMessageReturn
        (idOf (d.i2oLastIdOut.toNat + 1)) 0#32 0#32 = some d' ∧
      d'.list = [1] ∧ d'.rch 1 = d.rch 1 ∧
      d'.handlers = (d.handlers.take e).free e ∧
      d'.mappings = (d.mappings.take m).free m ∧
      d'.i2oLastIdOut = d.i2oLastIdOut + 1 := by
  have hnew := postedWrite_rch d e m
  have hold := postedWrite_rch_of_ne d (Ne.symm hne) m
  have hmem : (postedWrite d e m).list = [1, e] := congrArg (· ++ [e]) hlist
  have hfind :
      (postedWrite d e m).findRch (idOf (d.i2oLastIdOut.toNat + 1)) = some e := by
    simp [findRch, hmem, hold, hother, hnew]
  have hkbuf : poolKbuf ((postedWrite d e m).rch e).rchReturn = some (.mapping m) := by
    rw [hnew]
    simp [poolKbuf, RCH_KB_POOL]
  have hrecycle := recycle_listed (e := e) (t := ⟨0, d.allocs⟩) (by simp [hmem])
    (by rw [hnew]) (by rw [hnew]) hkbuf
  have hprocess : (postedWrite d e m).processCommandMessageReturn
      (idOf (d.i2oLastIdOut.toNat + 1)) 0#32 0#32 =
        (postedWrite d e m).i2oRecycleRch e ⟨0, d.allocs⟩ := by
    simp only [processCommandMessageReturn, hfind, hnew, handle]
  refine ⟨_, hprocess.trans hrecycle, ?_, ?_, rfl, rfl, rfl⟩
  · show (postedWrite d e m).list.erase e = [1]
    rw [hmem]
    simp [Ne.symm hne]
  · exact (Function.update_of_ne (Ne.symm hne) _ _).trans hold

/-- Client `0` has no call in progress after `n` messages.  The handler of
the first of them is still on the list, in entry `1`, and that message is
the only one that the card has not answered. -/
structure Behind (n : Nat) (s : Sys) : Prop where
  oopsed : s.oopsed = false
  pc : (s.clients 0).pc = .idle
  list : s.dev.list = [1]
  commandId : (s.dev.rch 1).commandId = idOf 1
  listed : s.dev.handlers.reserved 1 = true
  handlers : s.dev.handlers.cursor < s.dev.handlers.maxEntries ∧
    ∃ e < s.dev.handlers.maxEntries, s.dev.handlers.reserved e = false
  mappings : s.dev.mappings.cursor < s.dev.mappings.maxEntries ∧
    ∃ m < s.dev.mappings.maxEntries, s.dev.mappings.reserved m = false
  counter : s.dev.i2oLastIdOut = BitVec.ofNat 16 n
  unanswered : s.unanswered.length = 1
  replies : s.replies = []

theorem Behind.write (h : Behind n s) :
    ∃ e m s' p, e ≠ 1 ∧
      (s.dev.handlers.reserved e = false ∧ e < s.dev.handlers.maxEntries) ∧
      (s.dev.mappings.reserved m = false ∧ m < s.dev.mappings.maxEntries) ∧
      runFrom atomicStep writePosted s = some s' ∧ Written s s' e m p := by
  obtain ⟨hcursor, free, hfree, hres⟩ := h.handlers
  obtain ⟨e, hrch⟩ := Pool.stretch_finds hcursor hfree hres
  obtain ⟨hcursor, free, hfree, hres⟩ := h.mappings
  obtain ⟨m, hmapping⟩ := Pool.stretch_finds hcursor hfree hres
  have he := Pool.stretch_found hrch
  have hne : e ≠ 1 := by
    rintro rfl
    rw [h.listed] at he
    cases he.1
  obtain ⟨s', p, hrun, hw⟩ := run_writePosted h.oopsed h.pc hrch hmapping
    (by rw [h.list]; simpa using hne)
  exact ⟨e, m, s', p, hne, he, Pool.stretch_found hmapping, hrun, hw⟩

theorem idOf_ofNat (n : Nat) : idOf ((BitVec.ofNat 16 n).toNat + 1) = idOf (n + 1) := by
  rw [idOf_inj, BitVec.toNat_ofNat]
  omega

theorem Behind.round (h : Behind n s) (hn : n % 128 ≠ 0) :
    ∃ s', runFrom atomicStep answeredWrite s = some s' ∧ Behind (n + 1) s' := by
  obtain ⟨e, m, s₁, p, hne, he, hm, hrun, hw⟩ := h.write
  have hother : (s.dev.rch 1).commandId ≠ idOf (s.dev.i2oLastIdOut.toNat + 1) := by
    rw [h.commandId, h.counter, idOf_ofNat, Ne, idOf_inj]
    omega
  obtain ⟨d, hd, hlist, hrch, hhandlers, hmappings, hcounter⟩ :=
    dispatch_write (m := m) hne h.list hother
  rw [← hw.id, ← hw.dev] at hd
  obtain ⟨first, hfirst⟩ := List.length_eq_one_iff.mp h.unanswered
  refine ⟨{ s₁ with dev := d, unanswered := [first], replies := [] }, ?_, ?_⟩
  · rw [answeredWrite, runFrom_append, hrun]
    simp [runFrom, atomicStep, Sys.step, hw.oopsed, hw.unanswered, hfirst, hw.replies,
      h.replies, hd, Sys.orOops]
  · refine ⟨hw.oopsed, hw.pc, hlist, ?_, ?_, ?_, ?_, ?_, rfl, rfl⟩
    · rw [hrch]
      exact h.commandId
    · rw [hhandlers, Pool.take_free_reserved he]
      exact h.listed
    · rw [hhandlers, Pool.take_free_reserved he]
      exact ⟨Pool.take_free_cursor he.2, e, by simpa using he.2, he.1⟩
    · rw [hmappings, Pool.take_free_reserved hm]
      exact ⟨Pool.take_free_cursor hm.2, m, by simpa using hm.2, hm.1⟩
    · rw [hcounter, h.counter]
      exact (BitVec.ofNat_add n 1).symm

/-- The writes up to the message that takes the id of the first one. -/
theorem Behind.rounds (h : Behind 1 s) (n : Nat) (hn : n < 128) :
    ∃ labels s', runFrom atomicStep labels s = some s' ∧ Behind (n + 1) s' := by
  induction n with
  | zero => exact ⟨[], s, rfl, h⟩
  | succ n ih =>
    obtain ⟨labels, s₁, hrun, hbehind⟩ := ih (by omega)
    obtain ⟨s', hround, hnext⟩ := hbehind.round (by omega)
    exact ⟨labels ++ answeredWrite, s', by rw [runFrom_append, hrun]; exact hround, hnext⟩

theorem behind_interruptedRead :
    ∃ s, runFrom atomicStep interruptedRead (initial 0) = some s ∧ Behind 1 s :=
  ⟨_, rfl, rfl, rfl, by decide, by decide, by decide, by decide, by decide, by decide,
    by decide, by decide⟩

/-- The write that follows has the id of the handler that is left behind. -/
theorem Behind.not_routed (h : Behind 128 s) :
    ∃ s', runFrom atomicStep writePosted s = some s' ∧ ¬ Routed s' := by
  obtain ⟨e, m, s', p, hne, _, _, hrun, hw⟩ := h.write
  refine ⟨s', hrun, fun hrouted => ?_⟩
  have hlist : s'.dev.list = [1, e] := by
    rw [hw.dev]
    exact congrArg (· ++ [e]) h.list
  have hold : (s'.dev.rch 1).commandId = idOf 1 := by
    rw [hw.dev, postedWrite_rch_of_ne _ (Ne.symm hne)]
    exact h.commandId
  have hnew : (s'.dev.rch e).commandId = idOf 1 := by
    rw [hw.dev, postedWrite_rch, h.counter]
    exact idOf_ofNat 128
  exact hne (hrouted.distinct e (by simp [hlist]) 1 (by simp [hlist])
    (hnew.trans hold.symm))

/-- The id of a read that was left behind comes round. -/
theorem id_comes_round :
    ¬ ∀ labels s, runFrom atomicStep labels (initial 0) = some s → Routed s := by
  intro hall
  obtain ⟨s₀, hread, hbehind⟩ := behind_interruptedRead
  obtain ⟨labels, s₁, hrounds, hlast⟩ := hbehind.rounds 127 (by decide)
  obtain ⟨s₂, hpost, hnot⟩ := hlast.not_routed
  refine hnot (hall (interruptedRead ++ (labels ++ writePosted)) s₂ ?_)
  rw [runFrom_append, hread, Option.bind_some, runFrom_append, hrounds]
  exact hpost

end Behind

end Acq200.Rch
