import Acq200.Lib.Behaviour
import Acq200.Rch.Served

/-!
# Every call that waits for a reply returns

A read sleeps until its handler has a reply, and `acq200_bufferABaction` until
the handler of the next AB buffer has one.  Neither asks the card again, so a
reply that went elsewhere, or a flag that was cleared under it, would leave the
caller asleep for ever.

`waiting_calls_return` says that this does not happen.  The run is any infinite
one with atomic posts, whose requests take no id that is in use and whose
releases recycle no handler of another request, and that has no fault.  It
has to be fair in two ways: the reply to a message that was sent is dispatched
at some time, and a thread that can always move does move.
-/

namespace Acq200.Rch

open Acq200.Lib Device

/-! ## The end of a call -/

/-- How many statements a call that has sent its request still has at most. -/
def Pc.remaining : Pc → Nat
  | .waitRead _ _ | .waitAB => 3
  | .removeIfNotValid _ _ | .fillAB false => 2
  | .recycleRead _ _ | .fillAB true => 1
  | _ => 0

/-- The call is over, or nearer to its end. -/
def Pc.Nearer (pc pc' : Pc) : Prop :=
  pc' = .idle ∨ 0 < pc'.remaining ∧ pc'.remaining < pc.remaining

section Steps

variable {s s' : Sys} {c e : Nat} {t : Tag} {l : Label} {pc : Pc}

/-- Only the steps of a client change it. -/
theorem clients_of_step (h : Sys.step l s = some s') (hl : l.client ≠ some c) :
    s'.clients c = s.clients c := by
  have hne : ∀ {other : Nat}, l.client = some other → c ≠ other :=
    fun hother heq => hl (heq ▸ hother)
  cases trans_of_step h with
  | oops => rfl
  | neutral hother _ _ _ _ => exact Sys.setClient_of_ne _ (hne hother) _
  | sleepMapping hother _ => exact Sys.setClient_of_ne _ (hne hother) _
  | failMapping hother _ => exact Sys.setClient_of_ne _ (hne hother) _
  | failLen hother _ => exact Sys.setClient_of_ne _ (hne hother) _
  | passLen hother _ => exact Sys.setClient_of_ne _ (hne hother) _
  | endWaitRead hother _ => exact Sys.setClient_of_ne _ (hne hother) _
  | endWaitLast hother _ => exact Sys.setClient_of_ne _ (hne hother) _
  | foundValid _ _ => exact Sys.setClient_of_ne _ (hne rfl) _
  | allocRch hother _ _ _ _ _ => exact Sys.setClient_of_ne _ (hne hother) _
  | allocMapping hother _ _ _ => exact Sys.setClient_of_ne _ (hne hother) _
  | freeMapping _ => exact Sys.setClient_of_ne _ (hne rfl) _
  | build _ _ _ => exact Sys.setClient_of_ne _ (hne rfl) _
  | append _ _ => exact Sys.setClient_of_ne _ (hne rfl) _
  | send _ =>
    refine (Sys.setClient_of_ne _ (hne rfl) _).trans ?_
    unfold Sys.sendI2OKbuf
    split <;> rfl
  | removeIfNotValid _ _ => exact Sys.setClient_of_ne _ (hne rfl) _
  | recycleUnbuilt _ _ => exact Sys.setClient_of_ne _ (hne rfl) _
  | recycleRead _ _ => exact Sys.setClient_of_ne _ (hne rfl) _
  | recycleLast _ _ => exact Sys.setClient_of_ne _ (hne rfl) _
  | recycleAB _ _ _ _ _ _ => exact Sys.setClient_of_ne _ (hne rfl) _
  | cleanup _ _ _ => rfl
  | answer _ => rfl
  | dispatch _ _ => rfl

theorem clients_of_atomicStep (h : atomicStep l s = some s') (hl : l.client ≠ some c) :
    s'.clients c = s.clients c := by
  cases l with
  | go other =>
    simp only [atomicStep] at h
    split at h
    · obtain ⟨s₁, h₁, h⟩ := Option.bind_eq_some_iff.mp h
      obtain ⟨s₂, h₂, h₃⟩ := Option.bind_eq_some_iff.mp h
      rw [clients_of_step h₃ hl, clients_of_step h₂ hl, clients_of_step h₁ hl]
    · exact clients_of_step h hl
  | _ =>
    refine clients_of_step ?_ hl
    exact h

/-- A client near the end of its call makes its steps one by one. -/
theorem step_of_remaining (hpc : 0 < (s.clients c).pc.remaining) (hl : l.client = some c)
    (h : atomicStep l s = some s') :
    s.oopsed = false ∧ s.clientStep c l = some s' := by
  have hstep : Sys.step l s = some s' := by
    refine step_of_atomicStep ?_ h
    intro other hother
    have hgoes : other = c := by
      cases l with
      | go k =>
        rw [← Option.some.inj hother]
        exact Option.some.inj hl
      | _ => cases hother
    rw [hgoes]
    cases hbuild : (s.clients c).pc with
    | build _ _ _ _ =>
      rw [hbuild] at hpc
      exact absurd hpc (Nat.lt_irrefl 0)
    | _ => rfl
  refine ⟨not_oopsed hstep, ?_⟩
  unfold Sys.step at hstep
  rw [not_oopsed hstep, if_neg Bool.false_ne_true] at hstep
  cases l with
  | answer n => cases hl
  | dispatch n start nsamples => cases hl
  | _ =>
    obtain rfl := Option.some.inj hl
    exact hstep

theorem nearer_idle {client : Client} {b : Bool} (hclient : client.pc = .idle) :
    pc.Nearer (({ s with busyFree := b }.setClient c client).clients c).pc := by
  rw [Sys.setClient_self]
  exact Or.inl hclient

theorem nearer_setPc {d : Device} {pc' : Pc} (h : pc.Nearer pc') :
    pc.Nearer (({ s with dev := d }.setPc c pc').clients c).pc := by
  rw [Sys.setPc_self]
  exact h

/-- Every step of the client brings its call nearer to the end. -/
theorem nearer_of_clientStep (hpc : (s.clients c).pc = pc) (hremaining : 0 < pc.remaining)
    (h : s.clientStep c l = some s') (hoops : s'.oopsed = false) :
    pc.Nearer (s'.clients c).pc := by
  unfold Sys.clientStep at h
  rw [hpc] at h
  cases pc with
  | waitRead e t =>
    have hnext : (Pc.waitRead e t).Nearer (.removeIfNotValid e t) :=
      Or.inr ⟨Nat.succ_pos 1, Nat.lt_succ_self 2⟩
    cases l with
    | wake k =>
      simp only [Sys.wake] at h
      split at h
      · obtain rfl := Option.some.inj h
        exact nearer_setPc (d := s.dev) hnext
      · cases h
    | signal k =>
      obtain rfl := Option.some.inj h
      exact nearer_setPc (d := s.dev) hnext
    | _ => cases h
  | waitAB =>
    cases l with
    | wake k =>
      simp only [Sys.wake] at h
      split at h
      · obtain rfl := Option.some.inj h
        cases hoops
      · split at h
        · obtain rfl := Option.some.inj h
          exact nearer_setPc (d := s.dev) (Or.inr ⟨Nat.succ_pos 1, Nat.lt_succ_self 2⟩)
        · cases h
    | timeout k =>
      obtain rfl := Option.some.inj h
      exact nearer_idle rfl
    | signal k =>
      obtain rfl := Option.some.inj h
      exact nearer_idle rfl
    | _ => cases h
  | removeIfNotValid e t =>
    cases l with
    | go k =>
      cases hremove : s.dev.rchRemoveIfNotValid e with
      | none =>
        simp only [Sys.goRequest, hremove] at h
        obtain rfl := Option.some.inj h
        cases hoops
      | some result =>
        simp only [Sys.goRequest, hremove] at h
        obtain rfl := Option.some.inj h
        refine nearer_setPc ?_
        split
        · exact Or.inl rfl
        · exact Or.inr ⟨Nat.succ_pos 0, Nat.lt_succ_self 1⟩
    | _ => cases h
  | recycleRead e t =>
    cases l with
    | go k =>
      cases hrecycle : s.dev.i2oRecycleRch e t with
      | none =>
        simp only [Sys.goRequest, hrecycle] at h
        obtain rfl := Option.some.inj h
        cases hoops
      | some d =>
        simp only [Sys.goRequest, hrecycle] at h
        obtain rfl := Option.some.inj h
        exact nearer_setPc (Or.inl rfl)
    | _ => cases h
  | fillAB second =>
    cases l with
    | go k =>
      have hgo : s.goAB c (.fillAB second) = some s' := h
      simp only [Sys.goAB] at hgo
      split at hgo
      · obtain rfl := Option.some.inj hgo
        cases hoops
      · split at hgo
        · cases second with
          | true =>
            obtain rfl := Option.some.inj hgo
            exact nearer_idle rfl
          | false =>
            obtain rfl := Option.some.inj hgo
            rw [Sys.setClient_self]
            exact Or.inr ⟨Nat.succ_pos 0, Nat.lt_succ_self 1⟩
        · obtain rfl := Option.some.inj hgo
          exact nearer_idle rfl
    | _ => cases h
  | _ => exact absurd hremaining (Nat.lt_irrefl 0)

/-- A client near the end of its call stays where it is or gets nearer. -/
theorem nearer_of_step (hremaining : 0 < (s.clients c).pc.remaining)
    (h : atomicStep l s = some s') (hoops : s'.oopsed = false) :
    l.client ≠ some c ∧ s'.clients c = s.clients c ∨
      l.client = some c ∧ (s.clients c).pc.Nearer (s'.clients c).pc := by
  by_cases hl : l.client = some c
  · exact Or.inr ⟨hl,
      nearer_of_clientStep rfl hremaining (step_of_remaining hremaining hl h).2 hoops⟩
  · exact Or.inl ⟨hl, clients_of_atomicStep h hl⟩

/-! ## What a call waits for -/

/-- The handler whose reply a sleeping call waits for, and its request. -/
def Client.awaits (client : Client) : Option (Nat × Tag) :=
  match client.pc with
  | .waitRead e t => some (e, t)
  | .waitAB => client.rchAB client.abNext
  | _ => none

/-- A client that waits has its handler on the list. -/
theorem OwnInv.awaits (h : OwnInv s) (hwait : (s.clients c).awaits = some (e, t)) :
    e ∈ s.dev.list ∧ (s.dev.rch e).request = t := by
  unfold Client.awaits at hwait
  cases hpc : (s.clients c).pc with
  | waitRead e₀ t₀ =>
    rw [hpc] at hwait
    cases hwait
    obtain ⟨_, _, hlist, _, hrequest, _⟩ := h.pcInv hpc
    exact ⟨hlist, hrequest⟩
  | waitAB =>
    rw [hpc] at hwait
    have hslot := (h.client c).slot (by rw [hpc]; rfl) _ e t hwait
    obtain ⟨_, hlist, _, hrequest, _⟩ := hslot.2 (by rw [hpc]; rfl)
    exact ⟨hlist, hrequest⟩
  | _ =>
    rw [hpc] at hwait
    cases hwait

/-- The thread of the client can move. -/
def Ready (s : Sys) (c : Nat) : Prop :=
  (atomicStep (.go c) s).isSome = true ∨ (atomicStep (.wake c) s).isSome = true

theorem atomicStep_go (hoops : s.oopsed = false) (hremaining : 0 < (s.clients c).pc.remaining) :
    atomicStep (.go c) s = s.clientStep c (.go c) := by
  simp only [atomicStep]
  split
  · rename_i hpc
    rw [hpc] at hremaining
    exact absurd hremaining (Nat.lt_irrefl 0)
  · unfold Sys.step
    rw [hoops]
    rfl

theorem atomicStep_wake (hoops : s.oopsed = false) :
    atomicStep (.wake c) s = s.wake c (s.clients c).pc := by
  show Sys.step (.wake c) s = _
  unfold Sys.step
  rw [hoops]
  rfl

/-- A call near its end can go on, once the reply that it waits for is there. -/
theorem ready_of_valid (hoops : s.oopsed = false)
    (hremaining : 0 < (s.clients c).pc.remaining)
    (hvalid : ∀ e t, (s.clients c).awaits = some (e, t) → s.validOf e = true) : Ready s c := by
  unfold Ready
  rw [atomicStep_go hoops hremaining, atomicStep_wake hoops]
  unfold Client.awaits at hvalid
  cases hpc : (s.clients c).pc with
  | waitRead e t =>
    rw [hpc] at hvalid
    refine Or.inr ?_
    simp only [Sys.wake]
    rw [if_pos (hvalid e t rfl)]
    rfl
  | waitAB =>
    rw [hpc] at hvalid
    refine Or.inr ?_
    simp only [Sys.wake, Sys.nextAB]
    cases hslot : (s.clients c).rchAB (s.clients c).abNext with
    | none => rfl
    | some slot =>
      show (if s.validOf slot.1 then _ else none : Option Sys).isSome = true
      rw [if_pos (hvalid slot.1 slot.2 hslot)]
      rfl
  | removeIfNotValid e t =>
    refine Or.inl ?_
    simp only [Sys.clientStep, hpc, Sys.goRequest]
    split <;> rfl
  | recycleRead e t =>
    refine Or.inl ?_
    simp only [Sys.clientStep, hpc, Sys.goRequest]
    rfl
  | fillAB second =>
    refine Or.inl ?_
    simp only [Sys.clientStep, hpc, Sys.goRequest, Sys.goRelease, Sys.goAB]
    split
    · rfl
    · split
      · split <;> rfl
      · rfl
  | _ =>
    rw [hpc] at hremaining
    exact absurd hremaining (Nat.lt_irrefl 0)

end Steps

/-! ## Fair runs -/

/-- The card and the bottom half get round to every message, and a thread that
can always move does move. -/
structure Fair (labels : Nat → Option Label) (states : Nat → Sys) : Prop where
  card : ∀ n p, Outstanding (states n) p → ∃ m, n ≤ m ∧ ¬ Outstanding (states m) p
  clients : ∀ n c, (∀ m, n ≤ m → Ready (states m) c) →
    ∃ m, n ≤ m ∧ (labels m = some (.go c) ∨ labels m = some (.wake c))

section Runs

variable {lastId : BitVec 16} {labels : Nat → Option Label} {states : Nat → Sys} {n c : Nat}
  {client : Client}

theorem Fair.moves (hfair : Fair labels states) (hready : ∀ m, n ≤ m → Ready (states m) c) :
    ∃ m, n ≤ m ∧ ∃ l, labels m = some l ∧ l.client = some c := by
  obtain ⟨m, hle, hlabel⟩ := hfair.clients n c hready
  rcases hlabel with h | h
  · exact ⟨m, hle, _, h, rfl⟩
  · exact ⟨m, hle, _, h, rfl⟩

/-- The reply to a request comes.  From then on its handler, for as long as it is
on the list, has the reply in it. -/
theorem reply_comes {ok : Label → Sys → Prop} {e : Nat} {t : Tag}
    (hrun : Behaviour atomicStep ok labels states) (hinv : ∀ n, ServeInv lastId (states n))
    (hfair : Fair labels states) (hmem : e ∈ (states n).dev.list)
    (hrequest : ((states n).dev.rch e).request = t) :
    ∃ m, n ≤ m ∧ ∀ k, m ≤ k → e ∈ (states k).dev.list → ((states k).dev.rch e).request = t →
      (states k).validOf e = true := by
  obtain ⟨p, hp, hreq, _⟩ := (hinv n).route.listed e hmem
  rw [hrequest] at hreq
  have hsent : ∀ m, n ≤ m → p ∈ (states m).sent := fun m hm =>
    hrun.stable (P := fun s => p ∈ s.sent)
      (fun k l hk _ hl => (sent_step (hinv k).route hl hk).1) hm hp
  obtain ⟨m, hnm, hgone⟩ : ∃ m, n ≤ m ∧ ¬ Outstanding (states m) p := by
    by_cases hout : Outstanding (states n) p
    · exact hfair.card n p hout
    · exact ⟨n, Nat.le_refl n, hout⟩
  refine ⟨m, hnm, fun k hmk hmem' hrequest' => ?_⟩
  have hgone' : p ∈ (states k).sent ∧ ¬ Outstanding (states k) p :=
    hrun.stable (P := fun s => p ∈ s.sent ∧ ¬ Outstanding s p)
      (fun j l hj _ hl =>
        have hstep := sent_step (hinv j).route hl hj.1
        ⟨hstep.1, fun hout => hj.2 (hstep.2 hout)⟩)
      hmk ⟨hsent m hnm, hgone⟩
  rcases (hinv k).served e hmem' with hvalid | ⟨q, hq, hqreq⟩
  · exact decide_eq_true hvalid
  · -- The only message of the request is `p`.
    have heq := (hinv k).route.request_inj q ((hinv k).route.outstanding q hq) p hgone'.1
      (hqreq.trans (hrequest'.trans hreq.symm))
    exact absurd (heq ▸ hq) hgone'.2

/-- The reply that a sleeping call waits for comes, and stays. -/
theorem awaited_reply_comes {ok : Label → Sys → Prop}
    (hrun : Behaviour atomicStep ok labels states) (hinv : ∀ n, ServeInv lastId (states n))
    (hfair : Fair labels states) (hsleeps : ∀ m, n ≤ m → (states m).clients c = client) :
    ∃ m, n ≤ m ∧ ∀ k, m ≤ k → ∀ e t, client.awaits = some (e, t) →
      (states k).validOf e = true := by
  cases hwait : client.awaits with
  | none => exact ⟨n, Nat.le_refl n, fun _ _ _ _ h => by cases h⟩
  | some awaited =>
    obtain ⟨e, t⟩ := awaited
    have hlisted : ∀ m, n ≤ m →
        e ∈ (states m).dev.list ∧ ((states m).dev.rch e).request = t :=
      fun m hm => (hinv m).route.own.awaits (c := c) (by rw [hsleeps m hm, hwait])
    obtain ⟨hmem, hrequest⟩ := hlisted n (Nat.le_refl n)
    obtain ⟨m, hnm, hvalid⟩ := reply_comes hrun hinv hfair hmem hrequest
    refine ⟨m, hnm, fun k hmk e' t' he => ?_⟩
    cases he
    obtain ⟨hmem', hrequest'⟩ := hlisted k (Nat.le_trans hnm hmk)
    exact hvalid k hmk hmem' hrequest'

/-- In a fair run that has no fault, a call that has sent its request returns. -/
theorem waiting_calls_return
    (hrun : Behaviour atomicStep (fun l s => IdNotTaken l s ∧ SecondRecycleHarmless l s)
      labels states)
    (hstart : states 0 = initial lastId) (hfair : Fair labels states)
    (hoops : ∀ n, (states n).oopsed = false) (c : Nat) :
    LeadsTo states (fun s => 0 < (s.clients c).pc.remaining)
      (fun s => (s.clients c).pc = .idle) := by
  have hinv : ∀ n, ServeInv lastId (states n) :=
    hrun.inv serveInv_step (hstart ▸ serveInv_initial lastId)
  refine leadsTo_of_rank (fun s => (s.clients c).pc.remaining) fun k n ⟨hremaining, hk⟩ => ?_
  -- As long as the client does not move it has the same handler in hand.
  suffices h : LeadsTo states (fun s => s.clients c = (states n).clients c) fun s =>
      (s.clients c).pc = .idle ∨
        0 < (s.clients c).pc.remaining ∧ (s.clients c).pc.remaining < k from h n rfl
  refine leadsTo_of_until ?_ ?_
  · intro m hm
    rcases hrun.next m with hidle | ⟨l, _, _, hl⟩
    · rw [hidle]
      exact Or.inl hm
    · rcases nearer_of_step (hm ▸ hremaining) hl (hoops (m + 1)) with ⟨_, hsame⟩ | ⟨_, hnearer⟩
      · exact Or.inl (hsame.trans hm)
      · rw [hm] at hnearer
        rcases hnearer with hdone | ⟨hpos, hlt⟩
        · exact Or.inr (Or.inl hdone)
        · exact Or.inr (Or.inr ⟨hpos, hk ▸ hlt⟩)
  · intro m hm
    by_contra hnever
    have hsleeps : ∀ j, m ≤ j → (states j).clients c = (states n).clients c := by
      intro j hj
      by_contra hmoved
      exact hnever ⟨j, hj, hmoved⟩
    obtain ⟨m₁, hle, hvalid⟩ := awaited_reply_comes hrun hinv hfair hsleeps
    have hready : ∀ j, m₁ ≤ j → Ready (states j) c := by
      intro j hj
      have hsame := hsleeps j (Nat.le_trans hle hj)
      exact ready_of_valid (hoops j) (hsame ▸ hremaining) (hsame ▸ hvalid j hj)
    obtain ⟨j, hj, l, hl, hclient⟩ := hfair.moves hready
    have hmj := Nat.le_trans hle hj
    have hsame := hsleeps j hmj
    rcases nearer_of_step (hsame ▸ hremaining) (hrun.step j l hl).2 (hoops (j + 1)) with
      ⟨hother, _⟩ | ⟨_, hnearer⟩
    · exact hother hclient
    · rw [hsleeps (j + 1) (Nat.le_succ_of_le hmj), hsame] at hnearer
      rcases hnearer with hdone | ⟨_, hlt⟩
      · rw [hdone] at hremaining
        exact Nat.lt_irrefl 0 hremaining
      · exact Nat.lt_irrefl _ hlt

end Runs

/-! ## Finite runs -/

/-- No call is in progress. -/
def Pc.atRest : Pc → Bool
  | .unopened | .idle | .closed => true
  | _ => false

theorem not_ready {s : Sys} {c : Nat} (h : (s.clients c).pc.atRest = true) : ¬ Ready s c := by
  have hnone : ∀ l : Label, l = .go c ∨ l = .wake c → Sys.step l s = none := by
    intro l hl
    unfold Sys.step
    split
    · rfl
    · cases hpc : (s.clients c).pc with
      | unopened | idle | closed =>
        rcases hl with rfl | rfl
        · simp [Sys.clientStep, hpc, Sys.goRequest, Sys.goRelease, Sys.goAB]
        · simp [Sys.clientStep, hpc, Sys.wake]
      | _ =>
        rw [hpc] at h
        cases h
  have hgo : atomicStep (.go c) s = none := by
    simp only [atomicStep]
    split
    · rename_i hbuild
      rw [hbuild] at h
      cases h
    · exact hnone _ (Or.inl rfl)
  rintro (hready | hready)
  · rw [hgo] at hready
    cases hready
  · have hwake : atomicStep (.wake c) s = none := hnone _ (Or.inr rfl)
    rw [hwake] at hready
    cases hready

/-- A run that ends with every message answered and no call in progress is fair. -/
theorem fair_padded {ls : List Label} {s t : Sys} (hrun : runFrom atomicStep ls s = some t)
    (hunanswered : t.unanswered = []) (hreplies : t.replies = [])
    (hrest : ∀ c, (t.clients c).pc.atRest = true) :
    Fair (fun n => ls[n]?) (padded atomicStep ls s) := by
  have hend : ∀ n, padded atomicStep ls s (max n ls.length) = t :=
    fun n => padded_of_length_le hrun (Nat.le_max_right n ls.length)
  refine ⟨fun n p _ => ⟨max n ls.length, Nat.le_max_left n ls.length, ?_⟩, fun n c hready => ?_⟩
  · rw [hend, Outstanding, hunanswered, hreplies]
    rintro (h | h) <;> cases h
  · have hmove := hready (max n ls.length) (Nat.le_max_left n ls.length)
    rw [hend] at hmove
    exact absurd hmove (not_ready (hrest c))

theorem not_oopsed_atomicStep {l : Label} {s s' : Sys} (h : atomicStep l s = some s') :
    s.oopsed = false := by
  cases l with
  | go c =>
    simp only [atomicStep] at h
    split at h
    · obtain ⟨_, hfirst, _⟩ := Option.bind_eq_some_iff.mp h
      exact not_oopsed hfirst
    · exact not_oopsed h
  | _ => exact not_oopsed (step_of_atomicStep (fun _ hc => by cases hc) h)

/-- A run that ends without a fault has none. -/
theorem padded_not_oopsed {ls : List Label} {s t : Sys} (hrun : runFrom atomicStep ls s = some t)
    (hoops : t.oopsed = false) (n : Nat) : (padded atomicStep ls s n).oopsed = false := by
  have hall : Behaviour atomicStep (fun _ _ => True) (fun n => ls[n]?) (padded atomicStep ls s) :=
    behaviour_padded (runMeets_of_forall (fun _ _ _ => trivial) s) hrun
  cases hl : ls[n]? with
  | none =>
    rw [padded_of_length_le hrun (List.getElem?_eq_none_iff.mp hl)]
    exact hoops
  | some l => exact not_oopsed_atomicStep (hall.step n l hl).2

/-- A read that the card answers. -/
def servedRead : List Label :=
  [.openFile 0 .bridge, .call 0 .read, .go 0, .go 0, .check 0 false, .go 0, .answer 0,
    .dispatch 0 0#32 1#32, .wake 0, .go 0, .go 0]

theorem waiting_calls_return_servedRead :
    ((padded atomicStep servedRead (initial 0) 6).clients 0).pc.remaining = 3 ∧
      LeadsTo (padded atomicStep servedRead (initial 0))
        (fun s => 0 < (s.clients 0).pc.remaining) (fun s => (s.clients 0).pc = .idle) := by
  have hrun : runFrom atomicStep servedRead (initial 0) = some _ := rfl
  have hfair := fair_padded hrun rfl rfl fun c => by cases c <;> rfl
  exact ⟨rfl, @waiting_calls_return 0 _ _ (behaviour_padded (by decide) hrun) rfl hfair
    (padded_not_oopsed hrun rfl) 0⟩

end Acq200.Rch
