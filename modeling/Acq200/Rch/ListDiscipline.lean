import Acq200.Rch.Recycles

/-!
# The list of handlers

A handler is on the list from `rchAppend` on, and its path is set from
`buildRch` on.  Both end in `rchRemove`, but `rchRemoveIfNotValid` unlinks a
handler after an error reply and leaves the path.

`list_disciplined` proves for every run that a handler is linked at most
once, that it is linked exactly when its path is set unless a client stands
between `buildRch` and `rchAppend`, and that every `list_del` finds its
handler linked.  It leaves out the two steps that break the rule: a read that
finds an error reply, and the second recycle of a release when the handler
belongs to another request by then.  `error_reply_unlinks_twice` is the run
of a read that the card answers with 0xffffffff.
-/

namespace Acq200.Rch

open Acq200.Lib Device

/-! ## The contract -/

/-- The handler that the client is about to link. -/
def Pc.appending : Pc → Option Nat
  | .append _ e _ _ _ => some e
  | _ => none

/-- Some client stands between `buildRch` and `rchAppend` of the handler. -/
def Appending (s : Sys) (e : Nat) : Prop :=
  ∃ c, (s.clients c).pc.appending = some e

/-- The rule of the list. -/
structure ListDisciplined (s : Sys) : Prop where
  once : s.dev.list.Nodup
  linked_iff : ∀ e, ¬ Appending s e →
    (e ∈ s.dev.list ↔ (s.dev.rch e).path.isSome = true)
  appending : ∀ e, Appending s e →
    e ∉ s.dev.list ∧ (s.dev.rch e).path.isSome = true

/-- The handler that a read is about to give to `rchRemoveIfNotValid`. -/
def Pc.readEntry : Pc → Option Nat
  | .removeIfNotValid e _ => some e
  | _ => none

/-- The handlers that the step unlinks with `list_del`: in `rchRemove`, when
the handler that is recycled has a path, and in `rchRemoveIfNotValid`. -/
def Sys.listDels (s : Sys) (l : Label) : List Nat :=
  ((s.recycles l).filter fun e => (s.dev.rch e).path.isSome).toList ++
    ((l.goes.bind fun c => (s.clients c).pc.readEntry).filter fun e =>
      (s.dev.rch e).rchReturn.valid < 0).toList

/-- Every `list_del` of the step finds its handler linked. -/
def DelsLinked (l : Label) (s : Sys) : Prop :=
  ∀ e ∈ s.listDels l, e ∈ s.dev.list

instance (l : Label) (s : Sys) : Decidable (DelsLinked l s) :=
  inferInstanceAs (Decidable (∀ e ∈ s.listDels l, e ∈ s.dev.list))

/-- No read finds an error reply. -/
def NoErrorReply (l : Label) (s : Sys) : Prop :=
  ∀ c ∈ l.goes, ∀ e ∈ (s.clients c).pc.readEntry,
    0 ≤ (s.dev.rch e).rchReturn.valid

/-- The steps that keep the rule of the list. -/
structure ListSafe (l : Label) (s : Sys) : Prop where
  read : NoErrorReply l s
  last : SecondRecycleHarmless l s

instance (l : Label) (s : Sys) : Decidable (ListSafe l s) :=
  have : Decidable (NoErrorReply l s) := inferInstanceAs (Decidable
    (∀ c ∈ l.goes, ∀ e ∈ (s.clients c).pc.readEntry,
      0 ≤ (s.dev.rch e).rchReturn.valid))
  decidable_of_iff (NoErrorReply l s ∧ SecondRecycleHarmless l s)
    ⟨fun ⟨h₁, h₂⟩ => ⟨h₁, h₂⟩, fun ⟨h₁, h₂⟩ => ⟨h₁, h₂⟩⟩

/-! ## The invariant -/

/-- A handler with a path is linked or about to be. -/
def Listed (s : Sys) : Prop :=
  ∀ e, (s.dev.rch e).path.isSome = true → e ∈ s.dev.list ∨ Appending s e

structure ListInv (s : Sys) : Prop where
  own : OwnInv s
  path : Listed s

theorem listInv_initial (lastId : BitVec 16) : ListInv (initial lastId) where
  own := ownInv_initial lastId
  path := fun _ h => by cases h

section Steps

variable {s s' : Sys} {d : Device} {c e : Nat} {t : Tag}

theorem OwnInv.appending (h : OwnInv s) (happ : (s.clients c).pc.appending = some e) :
    ∃ t handler, t.client = c ∧ Built s.dev e t handler := by
  cases hpc : (s.clients c).pc with
  | append op e' t kbuf predicted =>
    rw [hpc] at happ
    obtain rfl := Option.some.inj happ
    obtain ⟨hclient, hbuilt, _⟩ := h.pcInv hpc
    exact ⟨t, op.handler, hclient, hbuilt⟩
  | _ =>
    rw [hpc] at happ
    cases happ

/-- What the invariant says about the list. -/
theorem ListInv.disciplined (h : ListInv s) : ListDisciplined s where
  once := h.own.dev.list_nodup
  linked_iff := by
    intro e hnot
    constructor
    · intro hm
      rw [(h.own.dev.listed e hm).2]
      rfl
    · intro hpath
      rcases h.path e hpath with hm | happ
      · exact hm
      · exact absurd happ hnot
  appending := by
    rintro e ⟨c, happ⟩
    obtain ⟨t, handler, _, hbuilt⟩ := h.own.appending happ
    refine ⟨hbuilt.2.1, ?_⟩
    rw [hbuilt.2.2.1]
    rfl

/-- A client moves on to a place where it links nothing, and the paths and
the list stay. -/
theorem path_of_move (h : Listed s)
    (hpaths : ∀ e, (s'.dev.rch e).path = (s.dev.rch e).path)
    (hlist : s'.dev.list = s.dev.list)
    (hclients : ∀ other, other ≠ c → s'.clients other = s.clients other)
    (hold : (s.clients c).pc.appending = none) : Listed s' := by
  intro e hpath
  rw [hpaths] at hpath
  rw [hlist]
  rcases h e hpath with hm | ⟨other, happ⟩
  · exact .inl hm
  · refine .inr ⟨other, ?_⟩
    have hne : other ≠ c := by
      rintro rfl
      rw [hold] at happ
      cases happ
    rw [hclients other hne]
    exact happ

/-- One handler loses its path, and a client that links nothing moves on. -/
theorem path_of_keeps (h : Listed s)
    (hk : KeepsOthers s.dev s'.dev e) (hpath : (s'.dev.rch e).path = none)
    (hclients : ∀ other, (s.clients other).pc.appending ≠ none →
      s'.clients other = s.clients other) : Listed s' := by
  intro other hsome
  by_cases heq : other = e
  · rw [heq, hpath] at hsome
    cases hsome
  · obtain ⟨hrch, _, hlist⟩ := hk other heq
    rw [hrch] at hsome
    rcases h other hsome with hm | ⟨k, happ⟩
    · exact .inl (hlist.mpr hm)
    · refine .inr ⟨k, ?_⟩
      rw [hclients k (by rw [happ]; simp)]
      exact happ

theorem Pc.appending_of_posting {pc : Pc} (h : pc.posting = false) :
    pc.appending = none := by
  cases pc <;> first | rfl | cases h

/-- A handler is recycled by a client that links nothing. -/
theorem path_of_recycled {caller : Tag} {client : Client} (h : Listed s)
    (hrec : Recycled s.dev d e caller)
    (hold : (s.clients c).pc.appending = none) :
    Listed ({ s with dev := d }.setClient c client) := by
  have hclients : ∀ other, (s.clients other).pc.appending ≠ none →
      ({ s with dev := d }.setClient c client).clients other = s.clients other := by
    intro other happ
    refine Sys.setClient_of_ne _ ?_ _
    rintro rfl
    exact happ hold
  exact path_of_keeps h hrec.keeps hrec.path hclients

theorem path_of_build {op : Op} {kbuf : Option Kbuf} {client : Client}
    {predicted : Predicted} (h : Listed s)
    (hpc : (s.clients c).pc = .build op e t kbuf)
    (hnext : client.pc = .append op e t kbuf predicted) :
    Listed ({ s with
      dev := s.dev.buildRch e op.handler c kbuf op.flags t }.setClient c client) := by
  intro k hpath
  by_cases heq : k = e
  · refine .inr ⟨c, ?_⟩
    rw [Sys.setClient_self, hnext, heq]
    rfl
  · have hrch : (s.dev.buildRch e op.handler c kbuf op.flags t).rch k = s.dev.rch k :=
      Function.update_of_ne heq _ _
    have hold : (s.dev.rch k).path.isSome = true := hrch ▸ hpath
    rcases h k hold with hm | ⟨other, happ⟩
    · exact .inl hm
    · refine .inr ⟨other, ?_⟩
      have hne : other ≠ c := by
        rintro rfl
        rw [hpc] at happ
        cases happ
      rw [Sys.setClient_of_ne _ hne]
      exact happ

theorem path_of_append {op : Op} {kbuf : Option Kbuf} {predicted : Predicted}
    (h : Listed s) (hpc : (s.clients c).pc = .append op e t kbuf predicted)
    (hd : s.dev.rchAppend e = some d) :
    Listed ({ s with dev := d }.setPc c (.send op e t kbuf predicted)) := by
  rw [rchAppend] at hd
  split at hd
  · cases hd
  obtain rfl := Option.some.inj hd
  intro k hpath
  rcases h k hpath with hm | ⟨other, happ⟩
  · exact .inl (List.mem_append_left _ hm)
  · by_cases heq : other = c
    · rw [heq, hpc] at happ
      obtain rfl := Option.some.inj happ
      exact .inl (List.mem_append_right _ List.mem_cons_self)
    · refine .inr ⟨other, ?_⟩
      rw [Sys.setPc, Sys.setClient_of_ne _ heq]
      exact happ

theorem path_of_removeIfNotValid {valid : Int} {client : Client} (h : ListInv s)
    (hpc : (s.clients c).pc = .removeIfNotValid e t)
    (hread : 0 ≤ (s.dev.rch e).rchReturn.valid)
    (hd : s.dev.rchRemoveIfNotValid e = some (d, valid)) :
    Listed ({ s with dev := d }.setClient c client) := by
  obtain ⟨hclient, hlive⟩ := h.own.pcInv hpc
  obtain ⟨_, hk, hvalid, hcases⟩ := removeIfNotValid_cases h.own.dev hlive hd
  have hlist : d.list = s.dev.list := by
    rcases hcases with ⟨_, rfl⟩ | ⟨_, _, _, hlist⟩
    · rfl
    · rw [hlist, if_neg (by omega)]
  have hpaths : ∀ k, (d.rch k).path = (s.dev.rch k).path := by
    intro k
    by_cases heq : k = e
    · rcases hcases with ⟨_, rfl⟩ | ⟨_, _, hrch, _⟩
      · rfl
      · rw [heq, hrch]
    · rw [(hk k heq).1]
  exact path_of_move h.path hpaths hlist
    (fun _ hne => Sys.setClient_of_ne _ hne _) (by rw [hpc]; rfl)

theorem path_of_dispatch {id : BitVec 16} {start nsamples : BitVec 32}
    (h : ListInv s)
    (hd : s.dev.processCommandMessageReturn id start nsamples = some d)
    (hclients : s'.clients = s.clients) (hdev : s'.dev = d) : Listed s' := by
  have happ : ∀ k, Appending s k → Appending s' k := by
    rintro k ⟨c, hc⟩
    exact ⟨c, by rw [hclients]; exact hc⟩
  rcases dispatch_cases h.own.dev hd with ⟨_, rfl⟩ | ⟨e, hfind, hcase⟩
  · intro k hpath
    rw [hdev] at hpath ⊢
    exact (h.path k hpath).imp_right (happ k)
  · rcases hcase with ⟨_, rfl⟩ | ⟨_, hrec⟩
    · intro k hpath
      have hsame : (s'.dev.rch k).path = (s.dev.rch k).path := by
        rw [hdev]
        by_cases heq : k = e
        · rw [heq, setRch_rch_self]
        · rw [(keepsOthers_setRch s.dev e _ k heq).1]
      rw [hsame] at hpath
      rw [hdev]
      exact (h.path k hpath).imp_right (happ k)
    · refine path_of_keeps h.path (e := e) ?_ ?_ (fun other _ => by rw [hclients])
      · rw [hdev]
        exact hrec.keeps
      · rw [hdev]
        exact hrec.path

theorem path_step {l : Label} (h : ListInv s) (hok : ListSafe l s)
    (ht : Trans l s s') : Listed s' := by
  cases ht with
  | oops | answer => exact h.path
  | neutral hl hslots hfree hposting hclosing =>
    exact path_of_move h.path (fun _ => rfl) rfl
      (fun _ hne => Sys.setClient_of_ne _ hne _) (Pc.appending_of_posting hposting)
  | sleepMapping hl hpc | failMapping hl hpc | failLen hl hpc | passLen hl hpc
  | endWaitRead hl hpc | endWaitLast hl hpc | foundValid hpc
  | allocRch hl hpc | allocMapping hl hpc =>
    exact path_of_move h.path (fun _ => rfl) rfl
      (fun _ hne => Sys.setClient_of_ne _ hne _) (by rw [hpc]; rfl)
  | @freeMapping _ c kbuf hpc =>
    cases kbuf <;> exact path_of_move h.path (fun _ => rfl) rfl
      (fun _ hne => Sys.setClient_of_ne _ hne _) (by rw [hpc]; rfl)
  | build hpc hnext hslots => exact path_of_build h.path hpc hnext
  | append hpc hd => exact path_of_append h.path hpc hd
  | @send _ c op e t kbuf predicted mfa hpc =>
    have hsend : Listed (s.sendI2OKbuf e t kbuf predicted mfa) ∧
        (s.sendI2OKbuf e t kbuf predicted mfa).clients = s.clients := by
      unfold Sys.sendI2OKbuf
      split <;> exact ⟨h.path, rfl⟩
    refine path_of_move (c := c) hsend.1 (fun _ => rfl) rfl
      (fun _ hne => Sys.setClient_of_ne _ hne _) ?_
    rw [hsend.2, hpc]
    rfl
  | @removeIfNotValid _ c e t d valid hpc hd =>
    exact path_of_removeIfNotValid h hpc (hok.read c rfl e (by rw [hpc]; rfl)) hd
  | recycleUnbuilt hpc hd | recycleRead hpc hd | recycleLast hpc hd =>
    exact path_of_recycled h.path (Device.recycled hd) (by rw [hpc]; rfl)
  | cleanup hpc he hd =>
    have hrec := Device.recycled hd
    exact path_of_keeps h.path hrec.keeps hrec.path (fun _ _ => rfl)
  | recycleAB hpc hslot hd =>
    exact path_of_recycled h.path (Device.recycled hd) (by rw [hpc]; rfl)
  | dispatch hp hd => exact path_of_dispatch h hd rfl rfl

/-! ## The unlinking -/

/-- A handler with a path that client `c` owns is linked, unless `c` itself is
about to link it. -/
theorem ListInv.linked_of_owner (h : ListInv s) (ho : s.dev.owner e = some t)
    (hclient : t.client = c) (hold : (s.clients c).pc.appending = none)
    (hpath : (s.dev.rch e).path.isSome = true) : e ∈ s.dev.list := by
  rcases h.path e hpath with hm | ⟨other, happ⟩
  · exact hm
  · obtain ⟨t', handler, hclient', hbuilt⟩ := h.own.appending happ
    have heq : other = c := by
      rw [← hclient', ← hclient, Option.some.inj (hbuilt.1.symm.trans ho)]
    rw [heq, hold] at happ
    cases happ

/-- The handler that a client recycles is linked if it has a path. -/
theorem linked_clientRecycles (h : ListInv s)
    (hlast : SecondRecycleHarmless (.go c) s)
    (hrec : s.clientRecycles c (s.clients c).pc = some e)
    (hpath : (s.dev.rch e).path.isSome = true) : e ∈ s.dev.list := by
  cases hpc : (s.clients c).pc with
  | recycleUnbuilt e' t kbuf =>
    rw [hpc] at hrec
    obtain rfl := Option.some.inj hrec
    obtain ⟨_, hunbuilt⟩ := h.own.pcInv hpc
    rw [hunbuilt.2.2] at hpath
    cases hpath
  | recycleRead e' t =>
    rw [hpc] at hrec
    obtain rfl := Option.some.inj hrec
    obtain ⟨hclient, hheld⟩ := h.own.pcInv hpc
    have ho : s.dev.owner e' = some t := by
      rcases hheld with hlive | hunlinked
      · exact hlive.1
      · exact hunlinked.1
    exact h.linked_of_owner ho hclient (by rw [hpc]; rfl) hpath
  | recycleLast e' t =>
    rw [hpc] at hrec
    obtain rfl := Option.some.inj hrec
    have hfree := hlast c rfl e' (by rw [hpc]; rfl)
    rw [h.own.dev.free_path e' (h.own.dev.owner_none hfree)] at hpath
    cases hpath
  | cleanup =>
    rw [hpc] at hrec
    exact (cleanupRch_mem hrec).1
  | recycleAB buffer recycleA recycleB =>
    rw [hpc] at hrec
    obtain ⟨t, hslot⟩ := slot_of_clientRecycles hrec
    have hclient := h.own.client c
    rw [hpc] at hclient
    exact ((hclient.slot rfl buffer e t hslot).2 rfl).2.1
  | _ =>
    rw [hpc] at hrec
    cases hrec

theorem delsLinked {l : Label} (h : ListInv s) (hok : ListSafe l s) :
    DelsLinked l s := by
  intro e he
  rcases List.mem_append.mp he with he | he
  · obtain ⟨hrec, hpath⟩ := Option.filter_eq_some_iff.mp (Option.mem_toList.mp he)
    cases l with
    | go c => exact linked_clientRecycles h hok.last hrec hpath
    | dispatch n start nsamples =>
      obtain ⟨p, _, hreply⟩ := Option.bind_eq_some_iff.mp hrec
      exact linked_replyRecycles hreply
    | _ => cases hrec
  · obtain ⟨hread, hneg⟩ := Option.filter_eq_some_iff.mp (Option.mem_toList.mp he)
    obtain ⟨c, hgo, hentry⟩ := Option.bind_eq_some_iff.mp hread
    have hge := hok.read c hgo e hentry
    have hlt : (s.dev.rch e).rchReturn.valid < 0 := by simpa using hneg
    omega

end Steps

/-! ## Runs -/

theorem listInv_step (l : Label) (s s' : Sys) (h : ListInv s) (hok : ListSafe l s)
    (hs : Sys.step l s = some s') : ListInv s' where
  own := ownInv_step h.own hok.last (trans_of_step hs)
  path := path_step h hok (trans_of_step hs)

/-- In every run in which no read finds an error reply and no release
recycles a handler that is another's by then, the list keeps its rule in
every state and every `list_del` finds its handler linked. -/
theorem list_disciplined {lastId : BitVec 16} {labels : List Label} {s : Sys}
    (hok : RunMeets Sys.step ListSafe labels (initial lastId))
    (hrun : runFrom Sys.step labels (initial lastId) = some s) :
    ListDisciplined s ∧ RunMeets Sys.step DelsLinked labels (initial lastId) := by
  have hinit := listInv_initial lastId
  refine ⟨(runFrom_inv listInv_step hinit hok hrun).disciplined, ?_⟩
  exact runMeets_of_inv listInv_step (fun _ _ h hl => delsLinked h hl) hinit hok

/-- A read of client `0` whose reply carries `nsamples`, up to the test of the
reply. -/
def answeredRead (nsamples : BitVec 32) : List Label :=
  [.openFile 0 .bridge, .call 0 .read, .go 0, .go 0, .check 0 false, .go 0, .go 0,
    .send 0 true, .answer 0, .dispatch 0 0 nsamples, .wake 0, .go 0]

theorem list_disciplined_answeredRead :
    ∃ s, runFrom Sys.step (answeredRead 512 ++ [.go 0]) (initial 0) = some s ∧
      s.oopsed = false ∧ ListDisciplined s ∧
      RunMeets Sys.step DelsLinked (answeredRead 512 ++ [.go 0]) (initial 0) :=
  ⟨_, rfl, rfl, @list_disciplined 0 (answeredRead 512 ++ [.go 0]) _ (by decide) rfl⟩

/-- The card answers a read with 0xffffffff.  `rchRemoveIfNotValid` unlinks
the handler and leaves its path, and `i2o_recycleRch` unlinks it again. -/
theorem error_reply_unlinks_twice :
    ¬ ∀ labels s, runFrom Sys.step labels (initial 0) = some s →
      ListDisciplined s ∧ RunMeets Sys.step DelsLinked labels (initial 0) := by
  intro hall
  obtain ⟨_, hdels⟩ := hall (answeredRead 0xffffffff#32 ++ [.go 0]) _ rfl
  exact absurd hdels (by decide)

end Acq200.Rch
