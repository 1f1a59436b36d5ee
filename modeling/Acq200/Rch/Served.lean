import Acq200.Rch.Routing

/-!
# No request is forgotten

A handler on the list waits for the reply to its message.  `ServeInv` says
that it never waits for nothing: either the reply has been filled in, or the
message is with the card or the reply with the bottom half.  A reply that is
dispatched always goes to the handler of its own request, since the ids do not
clash (see `Routed`), so no reply is spent on another request.

The conditions on the run are those under which the replies are routed.
-/

namespace Acq200.Rch

open Acq200.Lib Device

/-- The reply has come, or it is still to come. -/
def Served (s : Sys) (e : Nat) : Prop :=
  (s.dev.rch e).rchReturn.valid ≠ 0 ∨
    ∃ p, Outstanding s p ∧ p.request = (s.dev.rch e).request

structure ServeInv (lastId : BitVec 16) (s : Sys) : Prop where
  route : RouteInv lastId s
  device : ∀ e ∈ s.dev.list, (s.dev.rch e).device = true
  served : ∀ e ∈ s.dev.list, Served s e

theorem serveInv_initial (lastId : BitVec 16) : ServeInv lastId (initial lastId) where
  route := routeInv_initial lastId
  device := fun _ h => by cases h
  served := fun _ h => by cases h

/-! ## Steps that dispatch nothing -/

/-- The handlers on the list were there before, with what a reply fills in. -/
def ListKept (d d' : Device) : Prop :=
  ∀ e ∈ d'.list, e ∈ d.list ∧ (d'.rch e).request = (d.rch e).request ∧
    (d'.rch e).rchReturn = (d.rch e).rchReturn ∧ (d'.rch e).device = (d.rch e).device

section Steps

variable {s s' : Sys} {d d' : Device} {c e : Nat} {t : Tag} {caller : Tag} {l : Label}

theorem ListKept.refl (d : Device) : ListKept d d :=
  fun _ he => ⟨he, rfl, rfl, rfl⟩

theorem Device.Recycled.listKept (h : Recycled d d' e caller) (hinv : DevInv d) :
    ListKept d d' := by
  intro other hother
  have hne : other ≠ e := fun heq => h.not_mem hinv (heq ▸ hother)
  obtain ⟨hrch, _, hlist⟩ := h.keeps other hne
  rw [hrch]
  exact ⟨hlist.mp hother, rfl, rfl, rfl⟩

theorem listKept_removeIfNotValid {valid : Int} (hinv : DevInv d)
    (hlive : Live d e t .handleReadMessageFile)
    (h : d.rchRemoveIfNotValid e = some (d', valid)) : ListKept d d' := by
  obtain ⟨_, hk, _, hcases⟩ := removeIfNotValid_cases hinv hlive h
  intro other hother
  by_cases heq : other = e
  · rw [heq] at hother ⊢
    rcases hcases with ⟨_, rfl⟩ | ⟨_, _, hrch, _⟩
    · exact ⟨hother, rfl, rfl, rfl⟩
    · rw [hrch]
      exact ⟨hlive.2.1, rfl, rfl, rfl⟩
  · obtain ⟨hrch, _, hlist⟩ := hk other heq
    rw [hrch]
    exact ⟨hlist.mp hother, rfl, rfl, rfl⟩

/-- Taking one element out leaves the others. -/
theorem eq_or_mem_eraseIdx {α : Type} {xs : List α} {n : Nat} {x y : α} (hx : xs[n]? = some x)
    (hy : y ∈ xs) : y = x ∨ y ∈ xs.eraseIdx n := by
  obtain ⟨i, hi⟩ := List.mem_iff_getElem?.mp hy
  by_cases hin : i = n
  · rw [hin, hx] at hi
    exact Or.inl (Option.some.inj hi).symm
  · exact Or.inr (List.mem_eraseIdx_iff_getElem?.mpr ⟨i, hin, hi⟩)

/-- A step that neither posts nor dispatches takes nothing away. -/
theorem kept_of_trans (h : OwnInv s) (hboundary : ∀ c, (s.clients c).pc.predicted = none)
    (hbuilds : ∀ c ∈ l.goes, (s.clients c).pc.builds = false)
    (hdispatch : ∀ n start nsamples, l ≠ .dispatch n start nsamples)
    (ht : Trans l s s') :
    ListKept s.dev s'.dev ∧ ∀ p, Outstanding s p → Outstanding s' p := by
  have hmove : ∀ {d : Device} {b : Bool} {c : Nat} {client : Client}, ListKept s.dev d →
      ListKept s.dev ({ s with dev := d, busyFree := b }.setClient c client).dev ∧
        ∀ p, Outstanding s p →
          Outstanding ({ s with dev := d, busyFree := b }.setClient c client) p :=
    fun hlist => ⟨hlist, fun _ hp => hp⟩
  have hsame := ListKept.refl s.dev
  cases ht with
  | oops => exact ⟨hsame, fun _ hp => hp⟩
  | neutral hl hslots hfree hposting hclosing => exact hmove hsame
  | sleepMapping hl hpc => exact hmove (b := s.busyFree) hsame
  | failMapping hl hpc => exact hmove (b := s.busyFree) hsame
  | failLen hl hpc => exact hmove (b := s.busyFree) hsame
  | passLen hl hpc => exact hmove (b := s.busyFree) hsame
  | endWaitRead hl hpc => exact hmove (b := s.busyFree) hsame
  | endWaitLast hl hpc => exact hmove (b := s.busyFree) hsame
  | foundValid hpc hvalid => exact hmove (b := s.busyFree) hsame
  | allocRch hl hpc hfree hlt hnext hslots => exact hmove (b := s.busyFree) hsame
  | allocMapping hl hpc hfree hlt => exact hmove (b := s.busyFree) hsame
  | @freeMapping _ c kbuf hpc =>
    cases kbuf with
    | mapping m => exact hmove (b := s.busyFree) hsame
    | other => exact hmove (b := s.busyFree) hsame
  | @build _ c op e t kbuf client hpc hnext hslots =>
    have hfalse := hbuilds c rfl
    rw [hpc] at hfalse
    cases hfalse
  | @append _ c op e t kbuf predicted d hpc hd =>
    have hfalse := hboundary c
    rw [hpc] at hfalse
    cases hfalse
  | @send _ c op e t kbuf predicted mfa hpc =>
    have hfalse := hboundary c
    rw [hpc] at hfalse
    cases hfalse
  | removeIfNotValid hpc hd =>
    exact hmove (b := s.busyFree) (listKept_removeIfNotValid h.dev (h.pcInv hpc).2 hd)
  | recycleUnbuilt hpc hd => exact hmove (b := s.busyFree) ((recycled hd).listKept h.dev)
  | recycleRead hpc hd => exact hmove (b := s.busyFree) ((recycled hd).listKept h.dev)
  | recycleLast hpc hd => exact hmove (b := s.busyFree) ((recycled hd).listKept h.dev)
  | recycleAB hpc hslot hd hslots hfree hopen =>
    exact hmove (b := s.busyFree) ((recycled hd).listKept h.dev)
  | cleanup hpc he hd => exact ⟨(recycled hd).listKept h.dev, fun _ hp => hp⟩
  | @answer _ n p hp =>
    refine ⟨hsame, fun q hq => ?_⟩
    rcases hq with hq | hq
    · rcases eq_or_mem_eraseIdx hp hq with rfl | hrest
      · exact Or.inr (List.mem_append_right _ List.mem_cons_self)
      · exact Or.inl hrest
    · exact Or.inr (List.mem_append_left _ hq)
  | @dispatch _ n p d start nsamples hp hd => exact absurd rfl (hdispatch n start nsamples)

theorem ServeInv.kept {lastId : BitVec 16} (h : ServeInv lastId s) (hroute : RouteInv lastId s')
    (hlist : ListKept s.dev s'.dev) (hout : ∀ p, Outstanding s p → Outstanding s' p) :
    ServeInv lastId s' := by
  refine ⟨hroute, fun e he => ?_, fun e he => ?_⟩
  · obtain ⟨hmem, _, _, hdevice⟩ := hlist e he
    rw [hdevice]
    exact h.device e hmem
  · obtain ⟨hmem, hrequest, hreturn, _⟩ := hlist e he
    unfold Served
    rw [hrequest, hreturn]
    rcases h.served e hmem with hvalid | ⟨p, hp, hreq⟩
    · exact Or.inl hvalid
    · exact Or.inr ⟨p, hout p hp, hreq⟩

/-! ## The dispatch of a reply -/

/-- The handler of an outstanding message is the one that its reply finds. -/
theorem RouteInv.findRch {lastId : BitVec 16} {p : Posted} (h : RouteInv lastId s)
    (hp : Outstanding s p) (he : e ∈ s.dev.list) (hreq : p.request = (s.dev.rch e).request) :
    s.dev.findRch p.id = some e := by
  obtain ⟨found, hfound, hrequest⟩ := h.routed.found p hp ⟨e, he, hreq.symm⟩
  have howner := (h.own.dev.listed found (findRch_mem hfound).1).1
  rw [hrequest, hreq] at howner
  rw [hfound, h.own.dev.owner_inj found e _ howner (h.own.dev.listed e he).1]

theorem setSamples_valid (r : RchReturn) (start nsamples : BitVec 32) :
    (setSamples r start nsamples).valid ≠ 0 := by
  rw [setSamples]
  split
  · exact Int.neg_ne_zero.mpr Int.one_ne_zero
  · exact Int.one_ne_zero

theorem ServeInv.dispatch {lastId : BitVec 16} {n : Nat} {p : Posted}
    {start nsamples : BitVec 32} (h : ServeInv lastId s)
    (hroute : RouteInv lastId { s with dev := d, replies := s.replies.eraseIdx n })
    (hp : s.replies[n]? = some p)
    (hd : s.dev.processCommandMessageReturn p.id start nsamples = some d) :
    ServeInv lastId { s with dev := d, replies := s.replies.eraseIdx n } := by
  have hout : Outstanding s p := Or.inr (List.mem_of_getElem? hp)
  -- A handler that the reply does not find keeps what it has.
  have hother : ∀ e ∈ s.dev.list, s.dev.findRch p.id ≠ some e → d.rch e = s.dev.rch e →
      Served { s with dev := d, replies := s.replies.eraseIdx n } e := by
    intro e he hne hrch
    unfold Served
    rw [hrch]
    rcases h.served e he with hvalid | ⟨q, hq, hreq⟩
    · exact Or.inl hvalid
    · refine Or.inr ⟨q, ?_, hreq⟩
      rcases hq with hq | hq
      · exact Or.inl hq
      · rcases eq_or_mem_eraseIdx hp hq with rfl | hrest
        · exact absurd (h.route.findRch hout he hreq) hne
        · exact Or.inr hrest
  rcases dispatch_cases h.route.own.dev hd with ⟨hnone, rfl⟩ | ⟨k, hfind, ⟨_, rfl⟩ | ⟨_, hrec⟩⟩
  · refine ⟨hroute, h.device, fun e he => hother e he ?_ rfl⟩
    rw [hnone]
    exact (Option.some_ne_none e).symm
  · refine ⟨hroute, fun e he => ?_, fun e he => ?_⟩
    · by_cases heq : e = k
      · rw [heq, setRch_rch_self]
        exact h.device k (heq ▸ he)
      · rw [(keepsOthers_setRch s.dev k _ e heq).1]
        exact h.device e he
    · by_cases heq : e = k
      · refine Or.inl ?_
        rw [heq, setRch_rch_self]
        exact setSamples_valid _ _ _
      · refine hother e he ?_ (keepsOthers_setRch s.dev k _ e heq).1
        rw [hfind]
        exact fun hk => heq (Option.some.inj hk).symm
  · have hkept := hrec.listKept h.route.own.dev
    refine ⟨hroute, fun e he => ?_, fun e he => ?_⟩
    · obtain ⟨hmem, _, _, hdevice⟩ := hkept e he
      rw [hdevice]
      exact h.device e hmem
    · have hne : e ≠ k := fun heq => hrec.not_mem h.route.own.dev (heq ▸ he)
      refine hother e (hkept e he).1 ?_ (hrec.keeps e hne).1
      rw [hfind]
      exact fun hk => hne (Option.some.inj hk).symm

/-! ## Posts -/

/-- The new handler waits for the new message. -/
theorem ServeInv.post {lastId : BitVec 16} {p : Posted}
    (h : ServeInv lastId s) (hroute : RouteInv lastId s') (hpost : Post s s' c e t p)
    (hdevice : (s'.dev.rch e).device = true) : ServeInv lastId s' := by
  have hout : ∀ q, Outstanding s q → Outstanding s' q := by
    rintro q (hq | hq)
    · exact Or.inl (hpost.unanswered ▸ List.mem_append_left _ hq)
    · exact Or.inr (hpost.replies ▸ hq)
  have hcases : ∀ other ∈ s'.dev.list, other ≠ e → other ∈ s.dev.list := by
    intro other hother hne
    rw [hpost.list, List.mem_append, List.mem_singleton] at hother
    exact hother.resolve_right hne
  refine ⟨hroute, fun other hother => ?_, fun other hother => ?_⟩
  · by_cases heq : other = e
    · rw [heq]
      exact hdevice
    · rw [hpost.rch other heq]
      exact h.device other (hcases other hother heq)
  · by_cases heq : other = e
    · refine Or.inr ⟨p, Or.inl ?_, ?_⟩
      · rw [hpost.unanswered]
        exact List.mem_append_right _ List.mem_cons_self
      · rw [heq, hpost.request]
        exact hpost.message.1
    · unfold Served
      rw [hpost.rch other heq]
      rcases h.served other (hcases other hother heq) with hvalid | ⟨q, hq, hreq⟩
      · exact Or.inl hvalid
      · exact Or.inr ⟨q, hout q hq, hreq⟩

/-- A post, with the handler that it links and where its client goes on. -/
structure Posting (s s' : Sys) (c e : Nat) (op : Op) (t : Tag) (kbuf : Option Kbuf)
    (p : Posted) : Prop where
  pc : (s.clients c).pc = .build op e t kbuf
  post : Post s s' c e t p
  rch : s'.dev.rch e = (s.dev.buildRch e op.handler c kbuf op.flags t).rch e
  next : (s'.clients c).pc = Sys.afterSend op e t

/-- A step is a post, or it is a step of the system that posts nothing. -/
theorem atomicStep_cases {lastId : BitVec 16} (h : RouteInv lastId s)
    (hs : atomicStep l s = some s') :
    (∀ c ∈ l.goes, (s.clients c).pc.builds = false) ∧ Sys.step l s = some s' ∨
      ∃ c e op t kbuf p, l = .go c ∧ Posting s s' c e op t kbuf p := by
  by_cases hbuilds : ∀ c ∈ l.goes, (s.clients c).pc.builds = false
  · exact Or.inl ⟨hbuilds, step_of_atomicStep hbuilds hs⟩
  · refine Or.inr ?_
    push Not at hbuilds
    obtain ⟨c, hc, hpc⟩ := hbuilds
    have hl : l = .go c := by
      cases l with
      | go other => rw [Option.some.inj hc]
      | _ => cases hc
    subst hl
    cases hbuild : (s.clients c).pc with
    | build op e t kbuf =>
      obtain ⟨_, _, p, hpost⟩ := post_of_atomicStep h.own h.id hbuild hs
      have hunlinked := (h.own.pcInv hbuild).2.1.2.1
      have hoops : s.oopsed = false := by
        simp only [atomicStep, hbuild] at hs
        obtain ⟨_, hfirst, _⟩ := Option.bind_eq_some_iff.mp hs
        exact not_oopsed hfirst
      obtain ⟨_, s₂, _, _, _, hdev, _, _, hlast⟩ := post_steps hoops hbuild hunlinked
      obtain rfl := Option.some.inj (hlast.symm.trans hs)
      refine ⟨c, e, op, t, kbuf, p, rfl, hbuild, hpost, ?_, ?_⟩
      · show s₂.dev.rch e = _
        rw [hdev]
      · rw [Sys.setPc_self]
    | _ =>
      rw [hbuild] at hpc
      exact absurd rfl hpc

theorem Posting.device {op : Op} {kbuf : Option Kbuf} {p : Posted}
    (h : Posting s s' c e op t kbuf p) : (s'.dev.rch e).device = true := by
  rw [h.rch]
  show ((s.dev.setRch e _).rch e).device = true
  rw [setRch_rch_self]

theorem serveInv_step {lastId : BitVec 16} (l : Label) (s s' : Sys) (h : ServeInv lastId s)
    (hok : IdNotTaken l s ∧ SecondRecycleHarmless l s) (hs : atomicStep l s = some s') :
    ServeInv lastId s' := by
  have hroute := routeInv_step l s s' h.route hok hs
  rcases atomicStep_cases h.route hs with ⟨hbuilds, hstep⟩ | ⟨_, _, _, _, _, _, _, hposting⟩
  · have ht := trans_of_step hstep
    by_cases hdispatch : ∀ n start nsamples, l ≠ .dispatch n start nsamples
    · obtain ⟨hlist, hout⟩ :=
        kept_of_trans h.route.own h.route.boundary hbuilds hdispatch ht
      exact h.kept hroute hlist hout
    · push Not at hdispatch
      obtain ⟨n, start, nsamples, rfl⟩ := hdispatch
      cases ht with
      | oops => exact ⟨hroute, h.device, h.served⟩
      | neutral hl _ _ _ _ => cases hl
      | sleepMapping hl _ => cases hl
      | failMapping hl _ => cases hl
      | failLen hl _ => cases hl
      | passLen hl _ => cases hl
      | endWaitRead hl _ => cases hl
      | endWaitLast hl _ => cases hl
      | allocRch hl _ _ _ _ _ => cases hl
      | allocMapping hl _ _ _ => cases hl
      | dispatch hp hd => exact h.dispatch hroute hp hd
  · exact h.post hroute hposting.post hposting.device

/-! ## Messages that were answered -/

/-- A message that was sent stays so, and once its reply has been dispatched it
does not come back. -/
theorem sent_step {lastId : BitVec 16} {p : Posted} (h : RouteInv lastId s)
    (hs : atomicStep l s = some s') (hp : p ∈ s.sent) :
    p ∈ s'.sent ∧ (Outstanding s' p → Outstanding s p) := by
  rcases atomicStep_cases h hs with ⟨hbuilds, hstep⟩ | ⟨c, e, _, t, _, q, _, hpc, hpost, _, _⟩
  · have hquiet := quiet_of_trans h.own h.boundary hbuilds (trans_of_step hstep)
    rw [hquiet.sent]
    exact ⟨hp, hquiet.outstanding p⟩
  · rw [hpost.sent]
    refine ⟨List.mem_append_left _ hp, ?_⟩
    rintro (hout | hout)
    · rw [hpost.unanswered, List.mem_append, List.mem_singleton] at hout
      rcases hout with hout | rfl
      · exact Or.inl hout
      · exact absurd hpost.message.1 (h.unbuilt c t (by rw [hpc]; exact rfl) p hp)
    · rw [hpost.replies] at hout
      exact Or.inr hout

end Steps

end Acq200.Rch
