import Acq200.Rch.DoubleFree
import Acq200.Rch.Rebase

/-!
# No handler and no mapping is left behind

A pool entry that is reserved has to come back some day.  `Holder` says who
is to give a handler back: a client with the handler in hand, or the file
on whose behalf it is on the list, since the close of the file recycles
what it finds there.  `handlers_kept` is the invariant, and it holds in
every run in which no write is empty.  A write of no bytes returns with its
handler and its mapping reserved and tells nobody.

The mappings of the DMA buffer go with their handlers, see `Rch.PoolsFree`.
-/

namespace Acq200.Rch

open Acq200.Lib Device

/-! ## Who holds a handler -/

/-- The handler that the client has in hand, before it is built or when it is
about to be recycled. -/
def Pc.grips : Pc → Option Nat
  | .allocMapping _ e _ _ | .checkLen _ e _ _ | .recycleUnbuilt e _ _ | .build _ e _ _
  | .recycleRead e _ | .recycleLast e _ => some e
  | _ => none

/-- The handler that the client has built and is about to link. -/
def Pc.appends : Pc → Option Nat
  | .append _ e _ _ _ => some e
  | _ => none

def Pc.isOpen : Pc → Bool
  | .unopened | .closed => false
  | _ => true

/-- Somebody is to give the handler back. -/
inductive Holder (s : Sys) (e : Nat) : Prop where
  | grips {c : Nat} (hgrips : (s.clients c).pc.grips = some e)
  | appends {c : Nat} (happends : (s.clients c).pc.appends = some e)
      (hpath : (s.dev.rch e).path = some c)
  | listed {c : Nat} (hmem : e ∈ s.dev.list) (hpath : (s.dev.rch e).path = some c)
      (hopen : (s.clients c).pc.isOpen = true)

/-- The test of `count` in a write finds no bytes. -/
def emptyWrite (l : Label) (s : Sys) : Bool :=
  match l with
  | .check c true =>
    match (s.clients c).pc with
    | .checkLen .write _ _ _ => true
    | _ => false
  | _ => false

structure HandlersKept (s : Sys) : Prop where
  reserved_lt : ∀ e, s.dev.handlers.reserved e = true → e < s.dev.handlers.maxEntries
  held : ∀ e, s.dev.handlers.reserved e = true → Holder s e

/-- What is still reserved is linked as before, with its path. -/
structure KeepsHeld (d d' : Device) : Prop where
  maxEntries : d'.handlers.maxEntries = d.handlers.maxEntries
  reserved : ∀ e, d'.handlers.reserved e = true → d.handlers.reserved e = true
  list : ∀ e, d'.handlers.reserved e = true → e ∈ d.list → e ∈ d'.list
  path : ∀ e, d'.handlers.reserved e = true → (d'.rch e).path = (d.rch e).path

section Device

variable {d d' d₁ : Device} {e : Nat} {t caller : Tag}

theorem keepsHeld_refl (d : Device) : KeepsHeld d d :=
  ⟨rfl, fun _ h => h, fun _ _ h => h, fun _ _ => rfl⟩

theorem KeepsHeld.trans (h : KeepsHeld d d₁) (h' : KeepsHeld d₁ d') : KeepsHeld d d' where
  maxEntries := h'.maxEntries.trans h.maxEntries
  reserved := fun e he => h.reserved e (h'.reserved e he)
  list := fun e he hm => h'.list e he (h.list e (h'.reserved e he) hm)
  path := fun e he => (h'.path e he).trans (h.path e (h'.reserved e he))

/-- A change of a handler that leaves its path. -/
theorem keepsHeld_setRch {rch : ReturnCommandHandler} (hpath : rch.path = (d.rch e).path) :
    KeepsHeld d (d.setRch e rch) where
  maxEntries := rfl
  reserved := fun _ h => h
  list := fun _ _ h => h
  path := by
    intro other _
    by_cases heq : other = e
    · rw [heq, setRch_rch_self, hpath]
    · rw [(keepsOthers_setRch d e rch other heq).1]

theorem keepsHeld_recycle (hlt : ∀ e, d.handlers.reserved e = true → e < d.handlers.maxEntries)
    (h : d.i2oRecycleRch e caller = some d') :
    KeepsHeld d d' ∧ d'.handlers.reserved e = false := by
  have hrec := recycled h
  have hfree : d'.handlers.reserved e = false := by
    rw [hrec.handlers]
    by_cases he : e < d.handlers.maxEntries
    · exact Pool.free_reserved_self _ he
    · rw [Pool.free, if_neg he]
      exact Bool.eq_false_iff.mpr fun hres => he (hlt e hres)
  have hne : ∀ other, d'.handlers.reserved other = true → other ≠ e := by
    rintro other hres rfl
    rw [hfree] at hres
    cases hres
  refine ⟨⟨?_, ?_, ?_, ?_⟩, hfree⟩
  · rw [hrec.handlers, Pool.free_maxEntries]
  · intro other hres
    rw [hrec.handlers] at hres
    exact Pool.reserved_of_free hres
  · intro other hres hm
    exact ((hrec.keeps other (hne other hres)).2.2).mpr hm
  · intro other hres
    rw [(hrec.keeps other (hne other hres)).1]

/-- The dispatch of a reply. -/
theorem keepsHeld_dispatch {id : BitVec 16} {start nsamples : BitVec 32}
    (hlt : ∀ e, d.handlers.reserved e = true → e < d.handlers.maxEntries)
    (h : d.processCommandMessageReturn id start nsamples = some d') : KeepsHeld d d' := by
  rw [processCommandMessageReturn] at h
  cases hfind : d.findRch id with
  | none =>
    rw [hfind] at h
    obtain rfl := Option.some.inj h
    exact keepsHeld_refl d
  | some e =>
    rw [hfind] at h
    cases hhandler : (d.rch e).handler with
    | none =>
      simp only [hhandler] at h
      obtain ⟨d₁, hrec, rfl⟩ := Option.map_eq_some_iff.mp h
      obtain ⟨hmax, hreserved, hlist, hpath⟩ := (keepsHeld_recycle hlt hrec).1
      exact ⟨hmax, hreserved, hlist, hpath⟩
    | some handler =>
      simp only [hhandler] at h
      cases handler with
      | recycleRchWrapper => exact (keepsHeld_recycle hlt h).1
      | handleReadMessageFile =>
        have hset : KeepsHeld d (d.rchSetSamplesAndGetPath e start nsamples).1 :=
          keepsHeld_setRch rfl
        rw [handle] at h
        split at h
        · rename_i d₁ path heq
          obtain rfl := Option.some.inj h
          rw [heq] at hset
          exact hset
        · rename_i d₁ heq
          rw [heq] at hset
          exact hset.trans (keepsHeld_recycle (fun e he => hset.maxEntries ▸
            hlt e (hset.reserved e he)) h).1
      | handleLastMessage =>
        have hset : KeepsHeld d (d.setRch e { d.rch e with
            rchReturn := { (d.rch e).rchReturn with valid := 1 } }) := keepsHeld_setRch rfl
        simp only [handle] at h
        split at h
        · exact hset.trans (keepsHeld_recycle (fun e he => hset.maxEntries ▸
            hlt e (hset.reserved e he)) h).1
        · cases h

end Device

/-! ## What a client puts down -/

section Settling

variable {s s' s₁ : Sys} {c e : Nat} {t : Tag} {l : Label} {pc pc' : Pc}

/-- What a step of client `c` from `pc` does about its file and about the
handler in its hand.  The file is closed only when there is nothing left to
recycle, and the handler is put down only to be freed. -/
structure Settles (s s' : Sys) (c : Nat) (pc : Pc) : Prop where
  isOpen : (s'.clients c).pc.isOpen = true ∨ (s'.clients c).pc = pc ∨
    s.dev.cleanupRch c = none
  grips : pc.grips = none ∨ (s'.clients c).pc.entryFree = false ∨ s'.oopsed = true ∨
    s'.dev.frees ≠ s.dev.frees

theorem settles_setClient {client : Client} (hopen : client.pc.isOpen = true)
    (hgrips : pc.grips = none ∨ client.pc.entryFree = false) :
    Settles s (s₁.setClient c client) c pc := by
  have hclient := s₁.setClient_self c client
  constructor
  · rw [hclient]
    exact Or.inl hopen
  · rw [hclient]
    exact hgrips.imp_right Or.inl

theorem settles_setPc (hopen : pc'.isOpen = true)
    (hgrips : pc.grips = none ∨ pc'.entryFree = false) :
    Settles s (s₁.setPc c pc') c pc :=
  settles_setClient hopen hgrips

theorem settles_oops (hpc : (s.clients c).pc = pc) :
    Settles s { s with oopsed := true } c pc :=
  ⟨Or.inr (Or.inl hpc), Or.inr (Or.inr (Or.inl rfl))⟩

/-- A call that may fault, and frees a handler if it does not. -/
theorem settles_recycle (hpc : (s.clients c).pc = pc) {next : Device → Sys}
    (hopen : ∀ d, ((next d).clients c).pc.isOpen = true ∨ ((next d).clients c).pc = pc)
    (hdev : ∀ d, (next d).dev = d) :
    Settles s (s.orOops (s.dev.i2oRecycleRch e t) next) c pc := by
  cases hd : s.dev.i2oRecycleRch e t with
  | none => exact settles_oops hpc
  | some d =>
    refine ⟨(hopen d).imp_right Or.inl, Or.inr (Or.inr (Or.inr ?_))⟩
    show (next d).dev.frees ≠ s.dev.frees
    rw [hdev, (recycled hd).frees]
    exact fun heq => by simp at heq

theorem settles_goAllocRch {op : Op} {asleep : Option Nat}
    (h : s.goAllocRch c op asleep = some s') : Settles s s' c (.allocRch op asleep) := by
  rw [Sys.goAllocRch] at h
  split at h
  · cases h
  · obtain rfl := Option.some.inj h
    exact settles_setPc rfl (Or.inl rfl)
  · obtain rfl := Option.some.inj h
    exact settles_setClient (by cases op <;> rfl) (Or.inl rfl)

theorem settles_goAllocMapping {op : Op} {asleep : Option Nat}
    (h : s.goAllocMapping c op e t asleep = some s') :
    Settles s s' c (.allocMapping op e t asleep) := by
  rw [Sys.goAllocMapping] at h
  split at h
  · cases h
  · obtain rfl := Option.some.inj h
    exact settles_setPc rfl (Or.inr rfl)
  · obtain rfl := Option.some.inj h
    exact settles_setPc rfl (Or.inr rfl)

theorem settles_goRequest (hpc : (s.clients c).pc = pc) (h : s.goRequest c pc = some s') :
    Settles s s' c pc := by
  cases pc with
  | allocRch op asleep =>
    cases asleep with
    | none => exact settles_goAllocRch h
    | some ibuf => cases h
  | allocMapping op e t asleep =>
    cases asleep with
    | none => exact settles_goAllocMapping h
    | some ibuf => cases h
  | recycleUnbuilt e t kbuf =>
    obtain rfl := Option.some.inj h
    refine settles_recycle hpc (fun d => Or.inl ?_) fun _ => rfl
    rw [Sys.setPc_self]
    cases kbuf <;> rfl
  | freeMapping kbuf =>
    obtain rfl := Option.some.inj h
    exact settles_setPc rfl (Or.inl rfl)
  | build op e t kbuf =>
    obtain rfl := Option.some.inj h
    exact settles_setClient rfl (Or.inr rfl)
  | append op e t kbuf predicted =>
    obtain rfl := Option.some.inj h
    cases s.dev.rchAppend e with
    | none => exact settles_oops hpc
    | some d => exact settles_setPc rfl (Or.inl rfl)
  | removeIfNotValid e t =>
    simp only [Sys.goRequest] at h
    split at h
    · obtain rfl := Option.some.inj h
      exact settles_oops hpc
    · obtain rfl := Option.some.inj h
      exact settles_setPc (by split <;> rfl) (Or.inl rfl)
  | recycleRead e t =>
    obtain rfl := Option.some.inj h
    refine settles_recycle hpc (fun d => Or.inl ?_) fun _ => rfl
    rw [Sys.setPc_self]
    rfl
  | _ => cases h

theorem settles_goRelease (hpc : (s.clients c).pc = pc) (h : s.goRelease c pc = some s') :
    Settles s s' c pc := by
  cases pc with
  | testLast e t =>
    obtain rfl := Option.some.inj h
    exact settles_setPc (by split <;> rfl) (Or.inl rfl)
  | recycleLast e t =>
    obtain rfl := Option.some.inj h
    refine settles_recycle hpc (fun d => Or.inl ?_) fun _ => rfl
    rw [Sys.setPc_self]
    rfl
  | cleanup =>
    simp only [Sys.goRelease] at h
    split at h
    · obtain rfl := Option.some.inj h
      exact settles_recycle hpc (fun _ => Or.inr hpc) fun _ => rfl
    · rename_i hnone
      obtain rfl := Option.some.inj h
      exact ⟨Or.inr (Or.inr hnone), Or.inl rfl⟩
  | _ => cases h

theorem settles_goAB (hpc : (s.clients c).pc = pc) (h : s.goAB c pc = some s') :
    Settles s s' c pc := by
  cases pc with
  | recycleAB buffer recycleA recycleB =>
    simp only [Sys.goAB] at h
    split at h
    · obtain rfl := Option.some.inj h
      refine settles_recycle hpc (fun d => Or.inl ?_) fun _ => rfl
      rw [Sys.setClient_self]
      cases buffer <;> rfl
    · obtain rfl := Option.some.inj h
      exact settles_setPc (by cases buffer <;> rfl) (Or.inl rfl)
  | queueAB buffer =>
    simp only [Sys.goAB] at h
    split at h
    all_goals
      obtain rfl := Option.some.inj h
      exact settles_setPc rfl (Or.inl rfl)
  | fillAB second =>
    simp only [Sys.goAB] at h
    split at h
    · obtain rfl := Option.some.inj h
      exact settles_oops hpc
    · split at h
      · split at h
        · obtain rfl := Option.some.inj h
          exact settles_setClient rfl (Or.inl rfl)
        · obtain rfl := Option.some.inj h
          exact settles_setClient rfl (Or.inl rfl)
      · obtain rfl := Option.some.inj h
        exact settles_setClient rfl (Or.inl rfl)
  | _ => cases h

theorem settles_wake (hpc : (s.clients c).pc = pc) (h : s.wake c pc = some s') :
    Settles s s' c pc := by
  cases pc with
  | allocRch op asleep =>
    cases asleep with
    | none => cases h
    | some ibuf => exact settles_goAllocRch h
  | allocMapping op e t asleep =>
    cases asleep with
    | none => cases h
    | some ibuf => exact settles_goAllocMapping h
  | waitRead e t =>
    simp only [Sys.wake] at h
    split at h
    · obtain rfl := Option.some.inj h
      exact settles_setPc rfl (Or.inl rfl)
    · cases h
  | waitLast e t =>
    simp only [Sys.wake] at h
    split at h
    · obtain rfl := Option.some.inj h
      exact settles_setPc rfl (Or.inl rfl)
    · cases h
  | waitAB =>
    simp only [Sys.wake] at h
    split at h
    · obtain rfl := Option.some.inj h
      exact settles_oops hpc
    · split at h
      · obtain rfl := Option.some.inj h
        exact settles_setPc rfl (Or.inl rfl)
      · cases h
  | _ => cases h

theorem settles_timeout (hpc : (s.clients c).pc = pc) (h : s.timeout c pc = some s') :
    Settles s s' c pc := by
  cases pc with
  | allocRch op asleep =>
    cases asleep with
    | none => cases op <;> cases h
    | some ibuf =>
      cases op with
      | queue buffer =>
        obtain rfl := Option.some.inj h
        exact settles_oops hpc
      | _ =>
        obtain rfl := Option.some.inj h
        exact settles_setPc rfl (Or.inl rfl)
  | allocMapping op e t asleep =>
    cases asleep with
    | none => cases h
    | some ibuf =>
      obtain rfl := Option.some.inj h
      exact settles_setPc rfl (Or.inr rfl)
  | waitAB =>
    obtain rfl := Option.some.inj h
    exact settles_setClient rfl (Or.inl rfl)
  | _ => cases h

theorem settles_signal (h : s.signal c pc = some s') : Settles s s' c pc := by
  cases pc with
  | waitRead e t =>
    obtain rfl := Option.some.inj h
    exact settles_setPc rfl (Or.inl rfl)
  | waitLast e t =>
    obtain rfl := Option.some.inj h
    exact settles_setPc rfl (Or.inl rfl)
  | waitAB =>
    obtain rfl := Option.some.inj h
    exact settles_setClient rfl (Or.inl rfl)
  | _ => cases h

/-- The test of the length.  An empty write puts its handler down unfreed. -/
theorem settles_check {zero : Bool} (hpc : (s.clients c).pc = pc)
    (hne : emptyWrite (.check c zero) s = false) (h : s.check c zero pc = some s') :
    Settles s s' c pc := by
  cases pc with
  | checkLen op e t kbuf =>
    simp only [Sys.check] at h
    split at h
    · rename_i hzero
      split at h
      · rename_i hop
        subst hzero hop
        simp only [emptyWrite, hpc] at hne
        cases hne
      · obtain rfl := Option.some.inj h
        exact settles_setPc rfl (Or.inr rfl)
    · obtain rfl := Option.some.inj h
      exact settles_setPc rfl (Or.inr rfl)
  | _ => cases h

theorem settles_call {call : Call} (h : s.call c (s.clients c) call = some s') :
    Settles s s' c .idle := by
  cases call with
  | read =>
    obtain rfl := Option.some.inj h
    exact settles_setPc rfl (Or.inl rfl)
  | write =>
    obtain rfl := Option.some.inj h
    exact settles_setPc rfl (Or.inl rfl)
  | ioctlAB copied recycleA recycleB =>
    simp only [Sys.call] at h
    split at h
    · obtain rfl := Option.some.inj h
      exact settles_setClient (by cases copied <;> rfl) (Or.inl rfl)
    · cases h
  | release =>
    obtain rfl := Option.some.inj h
    exact settles_setPc (by cases (s.clients c).directed <;> rfl) (Or.inl rfl)

theorem settles_openFile {kind : Kind} (h : s.openFile c kind = some s') :
    Settles s s' c .unopened := by
  cases kind with
  | bridge =>
    simp only [Sys.openFile] at h
    split at h
    · obtain rfl := Option.some.inj h
      exact settles_setClient rfl (Or.inl rfl)
    · cases h
  | bufferAB =>
    obtain rfl := Option.some.inj h
    exact settles_setClient rfl (Or.inl rfl)

theorem settles_step (hl : l.client = some c) (hne : emptyWrite l s = false)
    (hs : Sys.step l s = some s') : Settles s s' c (s.clients c).pc := by
  cases hoops : s.oopsed with
  | true =>
    unfold Sys.step at hs
    rw [hoops, if_pos rfl] at hs
    cases hs
  | false =>
    rw [Sys.step_client hl hoops] at hs
    cases l with
    | openFile c' kind =>
      simp only [Sys.clientStep] at hs
      split at hs
      · rename_i hpc
        rw [hpc]
        exact settles_openFile hs
      · cases hs
    | call c' call =>
      simp only [Sys.clientStep] at hs
      split at hs
      · rename_i hpc
        rw [hpc]
        exact settles_call hs
      · cases hs
    | go c' =>
      simp only [Sys.clientStep] at hs
      cases hrequest : s.goRequest c (s.clients c).pc with
      | some s₁ =>
        rw [hrequest] at hs
        obtain rfl := Option.some.inj hs
        exact settles_goRequest rfl hrequest
      | none =>
        rw [hrequest] at hs
        cases hrelease : s.goRelease c (s.clients c).pc with
        | some s₁ =>
          rw [hrelease] at hs
          obtain rfl := Option.some.inj hs
          exact settles_goRelease rfl hrelease
        | none =>
          rw [hrelease] at hs
          exact settles_goAB rfl hs
    | check c' zero =>
      obtain rfl := Option.some.inj hl
      exact settles_check rfl hne hs
    | send c' mfa =>
      simp only [Sys.clientStep] at hs
      split at hs
      · rename_i op e t kbuf predicted hpc
        obtain rfl := Option.some.inj hs
        rw [hpc]
        refine settles_setPc ?_ (Or.inl rfl)
        cases op with
        | queue buffer => cases buffer <;> rfl
        | _ => rfl
      · cases hs
    | wake c' => exact settles_wake rfl hs
    | timeout c' => exact settles_timeout rfl hs
    | signal c' => exact settles_signal hs
    | answer n => cases hl
    | dispatch n start nsamples => cases hl

end Settling

/-! ## One step -/

section Steps

variable {s s' : Sys} {c e : Nat} {l : Label}

/-- A handler that a step of client `c` leaves where it is. -/
theorem Holder.carry (h : Holder s e) (hlist : e ∈ s.dev.list → e ∈ s'.dev.list)
    (hpath : (s'.dev.rch e).path = (s.dev.rch e).path)
    (hothers : ∀ o, o ≠ c → s'.clients o = s.clients o)
    (hgrips : (s.clients c).pc.grips = some e → Holder s' e)
    (happends : (s.clients c).pc.appends = some e → (s.dev.rch e).path = some c → Holder s' e)
    (hopen : (s.clients c).pc.isOpen = true →
      (s'.clients c).pc.isOpen = true ∨ s.dev.cleanupRch c = none) : Holder s' e := by
  cases h with
  | @grips o ho =>
    by_cases heq : o = c
    · exact hgrips (heq ▸ ho)
    · exact .grips (by rw [hothers o heq]; exact ho)
  | @appends o ho hp =>
    by_cases heq : o = c
    · exact happends (heq ▸ ho) (heq ▸ hp)
    · exact .appends (by rw [hothers o heq]; exact ho) (hpath.trans hp)
  | @listed o hmem hp ho =>
    by_cases heq : o = c
    · rw [heq] at ho hp
      rcases hopen ho with hopen' | hnone
      · exact .listed (hlist hmem) (hpath.trans hp) hopen'
      · have hfound := List.find?_eq_none.mp hnone e hmem
        rw [hp] at hfound
        exact absurd (beq_self_eq_true (some c)) hfound
    · exact .listed (hlist hmem) (hpath.trans hp) (by rw [hothers o heq]; exact ho)

/-- A step of client `c` that leaves what is reserved where it is. -/
theorem HandlersKept.move (h : HandlersKept s) (hkeep : KeepsHeld s.dev s'.dev)
    (hothers : ∀ o, o ≠ c → s'.clients o = s.clients o)
    (hgrips : ∀ e, (s.clients c).pc.grips = some e → s'.dev.handlers.reserved e = true →
      Holder s' e)
    (happends : ∀ e, (s.clients c).pc.appends = some e → (s.dev.rch e).path = some c →
      s'.dev.handlers.reserved e = true → Holder s' e)
    (hopen : (s.clients c).pc.isOpen = true →
      (s'.clients c).pc.isOpen = true ∨ s.dev.cleanupRch c = none) : HandlersKept s' where
  reserved_lt := by
    intro e he
    rw [hkeep.maxEntries]
    exact h.reserved_lt e (hkeep.reserved e he)
  held := by
    intro e he
    exact (h.held e (hkeep.reserved e he)).carry (hkeep.list e he) (hkeep.path e he) hothers
      (fun hg => hgrips e hg he) (fun ha hp => happends e ha hp he) hopen

theorem no_entry {o : Option Nat} (h : o = none) {P : Prop} (e : Nat) (he : o = some e) : P := by
  rw [h] at he
  cases he

/-- The client goes on with the handler that it has in hand. -/
theorem HandlersKept.setPc (h : HandlersKept s) {pc : Pc}
    (hgrips : (s.clients c).pc.grips = none ∨ pc.grips = (s.clients c).pc.grips)
    (happends : (s.clients c).pc.appends = none) (hopen : pc.isOpen = true) :
    HandlersKept (s.setPc c pc) := by
  refine h.move (c := c) (keepsHeld_refl _) (fun o ho => s.setClient_of_ne ho _) ?_
    (fun e he => no_entry happends e he) ?_
  · intro e he _
    rcases hgrips with hnone | hsame
    · rw [hnone] at he
      cases he
    · refine .grips (c := c) ?_
      rw [Sys.setPc_self]
      exact hsame.trans he
  · intro _
    rw [Sys.setPc_self]
    exact Or.inl hopen

/-- A handler is freed and the client puts it down. -/
theorem HandlersKept.recycle (h : HandlersKept s) {t : Tag} {d : Device} {client : Client}
    (hd : s.dev.i2oRecycleRch e t = some d)
    (hgrips : (s.clients c).pc.grips = none ∨ (s.clients c).pc.grips = some e)
    (happends : (s.clients c).pc.appends = none)
    (hopen : client.pc.isOpen = true ∨ s.dev.cleanupRch c = none) :
    HandlersKept ({ s with dev := d }.setClient c client) := by
  obtain ⟨hkeep, hfree⟩ := keepsHeld_recycle h.reserved_lt hd
  refine h.move (c := c) hkeep (fun o ho => Sys.setClient_of_ne _ ho _) ?_
    (fun e he => no_entry happends e he) ?_
  · intro e' he' hres
    rcases hgrips with hnone | hsame
    · rw [hnone] at he'
      cases he'
    · rw [hsame] at he'
      obtain rfl := Option.some.inj he'
      exact absurd (hfree.symm.trans hres) (by decide)
  · intro _
    rw [Sys.setClient_self]
    exact hopen

theorem HandlersKept.allocRch (h : HandlersKept s) {op : Op} {asleep : Option Nat}
    {client : Client} (hpc : (s.clients c).pc = .allocRch op asleep)
    (hlt : e < s.dev.handlers.maxEntries)
    (hnext : client.pc = Sys.afterAllocRch op e ⟨c, s.dev.allocs⟩) :
    HandlersKept ({ s with dev := s.dev.poolAllocRch e c }.setClient c client) := by
  have hclient := Sys.setClient_self { s with dev := s.dev.poolAllocRch e c } c client
  have hgrips : client.pc.grips = some e ∧ client.pc.isOpen = true := by
    rw [hnext]
    cases op <;> exact ⟨rfl, rfl⟩
  have hold : ∀ other, other ≠ e → (s.dev.poolAllocRch e c).handlers.reserved other
      = s.dev.handlers.reserved other :=
    fun other hne => Function.update_of_ne hne _ _
  refine ⟨?_, ?_⟩
  · intro other hres
    by_cases heq : other = e
    · rw [heq]
      exact hlt
    · exact h.reserved_lt other ((hold other heq).symm.trans hres)
  · intro other hres
    by_cases heq : other = e
    · rw [heq]
      refine .grips (c := c) ?_
      rw [hclient]
      exact hgrips.1
    · refine (h.held other ((hold other heq).symm.trans hres)).carry (c := c) id rfl
        (fun o ho => Sys.setClient_of_ne _ ho _) ?_ ?_ ?_
      · intro hg
        rw [hpc] at hg
        cases hg
      · intro ha
        rw [hpc] at ha
        cases ha
      · intro _
        rw [hclient]
        exact Or.inl hgrips.2

theorem HandlersKept.build (h : HandlersKept s) {op : Op} {t : Tag} {kbuf : Option Kbuf}
    {client : Client} {predicted : Predicted} (hpc : (s.clients c).pc = .build op e t kbuf)
    (hnext : client.pc = .append op e t kbuf predicted) :
    HandlersKept ({ s with
      dev := s.dev.buildRch e op.handler c kbuf op.flags t }.setClient c client) := by
  have hclient := Sys.setClient_self
    { s with dev := s.dev.buildRch e op.handler c kbuf op.flags t } c client
  refine ⟨h.reserved_lt, ?_⟩
  intro other hres
  by_cases heq : other = e
  · rw [heq]
    refine .appends (c := c) ?_ ?_
    · rw [hclient, hnext]
      rfl
    · show ((s.dev.buildRch e op.handler c kbuf op.flags t).rch e).path = some c
      rw [buildRch, setRch_rch_self]
  · refine (h.held other hres).carry (c := c) id ?_
      (fun o ho => Sys.setClient_of_ne _ ho _) ?_ ?_ ?_
    · exact congrArg ReturnCommandHandler.path (keepsOthers_setRch s.dev e _ other heq).1
    · intro hg
      rw [hpc] at hg
      exact absurd (Option.some.inj hg).symm heq
    · intro ha
      rw [hpc] at ha
      cases ha
    · intro _
      rw [hclient, hnext]
      exact Or.inl rfl

theorem HandlersKept.append (h : HandlersKept s) {op : Op} {t : Tag} {kbuf : Option Kbuf}
    {predicted : Predicted} {d : Device} (hpc : (s.clients c).pc = .append op e t kbuf predicted)
    (hd : s.dev.rchAppend e = some d) :
    HandlersKept ({ s with dev := d }.setPc c (.send op e t kbuf predicted)) := by
  have hclient := Sys.setPc_self { s with dev := d } c (.send op e t kbuf predicted)
  have hdev : d = { s.dev with list := s.dev.list ++ [e] } := by
    rw [rchAppend] at hd
    split at hd
    · cases hd
    · exact (Option.some.inj hd).symm
  rw [hdev] at hclient ⊢
  refine ⟨h.reserved_lt, ?_⟩
  intro other hres
  refine (h.held other hres).carry (c := c) (List.mem_append_left [e]) rfl
    (fun o ho => Sys.setClient_of_ne _ ho _) ?_ ?_ ?_
  · intro hg
    rw [hpc] at hg
    cases hg
  · -- The handler that was in hand is on the list now.
    intro ha hpath
    rw [hpc] at ha
    obtain rfl := Option.some.inj ha
    refine .listed (c := c) (List.mem_append_right _ List.mem_cons_self) hpath ?_
    rw [hclient]
    rfl
  · intro _
    rw [hclient]
    exact Or.inl rfl

/-- What `rchRemoveIfNotValid` does to the list and the paths. -/
theorem rchRemoveIfNotValid_cases {d d' : Device} {valid : Int}
    (h : d.rchRemoveIfNotValid e = some (d', valid)) :
    d'.handlers = d.handlers ∧ (∀ other, (d'.rch other).path = (d.rch other).path) ∧
      (d'.list = d.list ∨ valid ≠ 0 ∧ d'.list = d.list.erase e) := by
  have hpath : ∀ (d₁ : Device) other,
      ((d₁.setRch e { d₁.rch e with handler := none }).rch other).path
        = (d₁.rch other).path := by
    intro d₁ other
    by_cases heq : other = e
    · rw [heq, setRch_rch_self]
    · rw [(keepsOthers_setRch d₁ e _ other heq).1]
  rw [rchRemoveIfNotValid] at h
  split at h
  · split at h
    · rename_i hneg
      rw [listDel] at h
      split at h
      · obtain ⟨rfl, rfl⟩ := Prod.mk.inj (Option.some.inj h)
        exact ⟨rfl, fun other => hpath _ other, Or.inr ⟨by omega, rfl⟩⟩
      · cases h
    · obtain ⟨rfl, rfl⟩ := Prod.mk.inj (Option.some.inj h)
      exact ⟨rfl, fun other => hpath _ other, Or.inl rfl⟩
  · obtain ⟨rfl, rfl⟩ := Prod.mk.inj (Option.some.inj h)
    exact ⟨rfl, fun _ => rfl, Or.inl rfl⟩

theorem HandlersKept.removeIfNotValid (h : HandlersKept s) {t : Tag} {d : Device} {valid : Int}
    (hpc : (s.clients c).pc = .removeIfNotValid e t)
    (hd : s.dev.rchRemoveIfNotValid e = some (d, valid)) :
    HandlersKept ({ s with dev := d }.setPc c
      (if valid = 0 then .idle else .recycleRead e t)) := by
  obtain ⟨hhandlers, hpath, hlist⟩ := rchRemoveIfNotValid_cases hd
  have hclient := Sys.setPc_self { s with dev := d } c
    (if valid = 0 then .idle else .recycleRead e t)
  refine ⟨?_, ?_⟩
  · intro other hres
    show other < d.handlers.maxEntries
    rw [hhandlers]
    exact h.reserved_lt other (hhandlers ▸ hres)
  · intro other hres
    have hres : s.dev.handlers.reserved other = true := hhandlers ▸ hres
    rcases hlist with hsame | ⟨hvalid, herase⟩
    · refine (h.held other hres).carry (c := c) (fun hm => hsame ▸ hm) (hpath other)
        (fun o ho => Sys.setClient_of_ne _ ho _) ?_ ?_ ?_
      · intro hg
        rw [hpc] at hg
        cases hg
      · intro ha
        rw [hpc] at ha
        cases ha
      · intro _
        rw [hclient]
        refine Or.inl ?_
        split <;> rfl
    · rw [if_neg hvalid] at hclient ⊢
      by_cases heq : other = e
      · -- The client has taken the handler off the list to recycle it.
        rw [heq]
        refine .grips (c := c) ?_
        rw [hclient]
        rfl
      · refine (h.held other hres).carry (c := c)
          (fun hm => herase ▸ (List.mem_erase_of_ne heq).mpr hm) (hpath other)
          (fun o ho => Sys.setClient_of_ne _ ho _) ?_ ?_ ?_
        · intro hg
          rw [hpc] at hg
          cases hg
        · intro ha
          rw [hpc] at ha
          cases ha
        · intro _
          rw [hclient]
          exact Or.inl rfl

/-- A change that is not about the handlers. -/
theorem HandlersKept.congr (h : HandlersKept s) (hrch : s'.dev.rch = s.dev.rch)
    (hlist : s'.dev.list = s.dev.list) (hhandlers : s'.dev.handlers = s.dev.handlers)
    (hclients : s'.clients = s.clients) : HandlersKept s' where
  reserved_lt := by
    rw [hhandlers]
    exact h.reserved_lt
  held := by
    intro e he
    rw [hhandlers] at he
    cases h.held e he with
    | grips hg => exact .grips (by rw [hclients]; exact hg)
    | appends ha hp => exact .appends (by rw [hclients]; exact ha) (by rw [hrch]; exact hp)
    | listed hm hp ho =>
      exact .listed (by rw [hlist]; exact hm) (by rw [hrch]; exact hp) (by rw [hclients]; exact ho)

/-- A step that leaves the device alone puts no handler down. -/
theorem HandlersKept.neutral (h : HandlersKept s) {client : Client} {b : Bool}
    (hl : l.client = some c) (hne : emptyWrite l s = false)
    (hs : Sys.step l s = some ({ s with busyFree := b }.setClient c client))
    (hfree : client.pc.entryFree = true) (hposting : (s.clients c).pc.posting = false) :
    HandlersKept ({ s with busyFree := b }.setClient c client) := by
  have hclient := Sys.setClient_self { s with busyFree := b } c client
  have hoops : s.oopsed = false := by
    unfold Sys.step at hs
    split at hs
    · cases hs
    · rename_i hno
      exact Bool.eq_false_iff.mpr hno
  have hsettles := settles_step hl hne hs
  have hgrips : (s.clients c).pc.grips = none := by
    rcases hsettles.grips with hnone | hfree' | hoops' | hfrees
    · exact hnone
    · rw [hclient, hfree] at hfree'
      cases hfree'
    · exact absurd (hoops.symm.trans hoops') Bool.false_ne_true
    · exact absurd rfl hfrees
  refine h.move (c := c) (keepsHeld_refl _) (fun o ho => Sys.setClient_of_ne _ ho _) ?_ ?_ ?_
  · exact fun e he _ => no_entry hgrips e he
  · refine fun e he => no_entry ?_ e he
    cases hpc : (s.clients c).pc with
    | append op e t kbuf predicted =>
      rw [hpc] at hposting
      cases hposting
    | _ => rfl
  · intro hopen
    rcases hsettles.isOpen with hopen' | hsame | hnone
    · exact Or.inl hopen'
    · rw [hsame]
      exact Or.inl hopen
    · exact Or.inr hnone

theorem handlersKept_step (l : Label) (s s' : Sys) (h : HandlersKept s)
    (hne : emptyWrite l s = false) (hs : Sys.step l s = some s') : HandlersKept s' := by
  cases trans_of_step hs with
  | oops => exact h.congr rfl rfl rfl rfl
  | neutral hl hslots hfree hposting hclosing => exact h.neutral hl hne hs hfree hposting
  | sleepMapping hl hpc => exact h.setPc (Or.inr (by rw [hpc]; rfl)) (by rw [hpc]; rfl) rfl
  | failMapping hl hpc => exact h.setPc (Or.inr (by rw [hpc]; rfl)) (by rw [hpc]; rfl) rfl
  | failLen hl hpc => exact h.setPc (Or.inr (by rw [hpc]; rfl)) (by rw [hpc]; rfl) rfl
  | passLen hl hpc => exact h.setPc (Or.inr (by rw [hpc]; rfl)) (by rw [hpc]; rfl) rfl
  | endWaitRead hl hpc => exact h.setPc (Or.inl (by rw [hpc]; rfl)) (by rw [hpc]; rfl) rfl
  | endWaitLast hl hpc => exact h.setPc (Or.inl (by rw [hpc]; rfl)) (by rw [hpc]; rfl) rfl
  | foundValid hpc hvalid => exact h.setPc (Or.inl (by rw [hpc]; rfl)) (by rw [hpc]; rfl) rfl
  | allocRch hl hpc hfree hlt hnext hslots => exact h.allocRch hpc hlt hnext
  | @allocMapping _ _ c op e t asleep m hl hpc hfree hlt =>
    have hdev : HandlersKept { s with dev := s.dev.poolAllocMapping m t } :=
      h.congr rfl rfl rfl rfl
    have hpc' : ({ s with dev := s.dev.poolAllocMapping m t }.clients c).pc
      = .allocMapping op e t asleep := hpc
    exact hdev.setPc (Or.inr (by rw [hpc']; rfl)) (by rw [hpc']; rfl) rfl
  | @freeMapping _ c kbuf hpc =>
    have hdev : HandlersKept { s with dev := s.dev.poolFreeMapping kbuf } := by
      cases kbuf with
      | mapping m => exact h.congr rfl rfl rfl rfl
      | other => exact h
    have hpc' : ({ s with dev := s.dev.poolFreeMapping kbuf }.clients c).pc
      = .freeMapping kbuf := hpc
    exact hdev.setPc (Or.inl (by rw [hpc']; rfl)) (by rw [hpc']; rfl) rfl
  | build hpc hnext hslots => exact h.build hpc hnext
  | append hpc hd => exact h.append hpc hd
  | @send _ c op e t kbuf predicted mfa hpc =>
    have hsent : HandlersKept (s.sendI2OKbuf e t kbuf predicted mfa) := by
      cases mfa with
      | true => exact h.congr rfl rfl rfl rfl
      | false => exact h
    have hpc' : ((s.sendI2OKbuf e t kbuf predicted mfa).clients c).pc
        = .send op e t kbuf predicted := by
      cases mfa <;> exact hpc
    refine hsent.setPc (Or.inl (by rw [hpc']; rfl)) (by rw [hpc']; rfl) ?_
    cases op with
    | queue buffer => cases buffer <;> rfl
    | _ => rfl
  | removeIfNotValid hpc hd => exact h.removeIfNotValid hpc hd
  | @recycleUnbuilt _ c e t kbuf d hpc hd =>
    refine h.recycle hd (Or.inr (by rw [hpc]; rfl)) (by rw [hpc]; rfl) (Or.inl ?_)
    cases kbuf <;> rfl
  | recycleRead hpc hd =>
    exact h.recycle hd (Or.inr (by rw [hpc]; rfl)) (by rw [hpc]; rfl) (Or.inl rfl)
  | recycleLast hpc hd =>
    exact h.recycle hd (Or.inr (by rw [hpc]; rfl)) (by rw [hpc]; rfl) (Or.inl rfl)
  | @cleanup _ c e d hpc he hd =>
    exact h.move (c := c) (keepsHeld_recycle h.reserved_lt hd).1 (fun _ _ => rfl)
      (fun e he _ => no_entry (by rw [hpc]; rfl) e he)
      (fun e he => no_entry (by rw [hpc]; rfl) e he) Or.inl
  | @recycleAB _ c recycleA recycleB e t d buffer client hpc hslot hd hslots hfree hopen =>
    refine h.recycle hd (Or.inl (by rw [hpc]; rfl)) (by rw [hpc]; rfl) ?_
    have hsettles := (settles_step rfl hne hs).isOpen
    rw [Sys.setClient_self] at hsettles
    rcases hsettles with hopen' | hsame | hnone
    · exact Or.inl hopen'
    · rw [hsame, hpc]
      exact Or.inl rfl
    · exact Or.inr hnone
  | answer hp => exact h.congr rfl rfl rfl rfl
  | dispatch hp hd =>
    have hkeep := keepsHeld_dispatch h.reserved_lt hd
    exact h.move (c := 0) hkeep (fun _ _ => rfl) (fun e he _ => .grips he)
      (fun e he hpath hres => .appends he ((hkeep.path e hres).trans hpath)) Or.inl

end Steps

theorem handlersKept_initial (lastId : BitVec 16) : HandlersKept (initial lastId) where
  reserved_lt := fun _ h => by cases h
  held := fun _ h => by cases h

/-- In every run in which no write is empty, each reserved handler is in the
hands of a client, or on the list on behalf of a file that is not closed. -/
theorem handlers_kept {lastId : BitVec 16} {labels : List Label} {s : Sys}
    (hok : RunMeets Sys.step (fun l s => emptyWrite l s = false) labels (initial lastId))
    (hrun : runFrom Sys.step labels (initial lastId) = some s) (e : Nat)
    (he : s.dev.handlers.reserved e = true) : Holder s e :=
  (runFrom_inv handlersKept_step (handlersKept_initial lastId) hok hrun).held e he

/-- The handler of a write waits on the list for the reply. -/
theorem handlers_kept_write :
    ∃ s, runFrom Sys.step writeLabels (initial 0#16) = some s ∧
      s.dev.handlers.reserved 1 = true ∧ Holder s 1 :=
  ⟨_, rfl, rfl, @handlers_kept 0#16 writeLabels _ (by decide) rfl 1 rfl⟩

end Acq200.Rch
