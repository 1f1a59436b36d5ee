import Mathlib.Data.List.Perm.Subperm
import Acq200.Rch.Returns

/-!
# Every close returns

The reply to the last message of a file sets the flag that the close sleeps
on, wakes it up and recycles the handler, all in the bottom half.  The close
tests the flag when it gets to run.  Until then the handler is free, and a
client that takes it and builds it clears the flag, so that the close sleeps on
with no message left to wake it.

`closes_return` says that this is the only way in which a close sleeps for
ever.  In every fair run without it, a close that has sent its last message
wakes up and ends, and when it ends no handler of its file is on the list.
-/

namespace Acq200.Rch

open Acq200.Lib Device

/-! ## What a close waits for -/

/-- The handler that the client is about to build. -/
def Pc.building : Pc → Option Nat
  | .build _ e _ _ => some e
  | _ => none

/-- No client builds the handler that a close is still asleep on. -/
def LastNotRebuilt (l : Label) (s : Sys) : Prop :=
  ∀ c ∈ l.goes, ∀ e ∈ (s.clients c).pc.building, ∀ other t, (s.clients other).pc ≠ .waitLast e t

/-- The handler of the last message waits for its reply. -/
structure LastListed (d : Device) (c e : Nat) (t : Tag) : Prop where
  client : t.client = c
  mem : e ∈ d.list
  request : (d.rch e).request = t
  handler : (d.rch e).handler = some .handleLastMessage

/-- The handler of the last message has had its reply. -/
structure LastDone (d : Device) (e : Nat) : Prop where
  unlisted : e ∉ d.list
  valid : (d.rch e).rchReturn.valid = 1

structure CloseInv (lastId : BitVec 16) (s : Sys) : Prop where
  serve : ServeInv lastId s
  last : ∀ c e t, (s.clients c).pc = .waitLast e t →
    LastListed s.dev c e t ∨ LastDone s.dev e

theorem closeInv_initial (lastId : BitVec 16) : CloseInv lastId (initial lastId) where
  serve := serveInv_initial lastId
  last := fun _ _ _ h => by cases h

section Steps

variable {s s' : Sys} {d d' : Device} {c e k : Nat} {t : Tag} {caller : Tag} {l : Label} {pc : Pc}

theorem LastListed.of_keeps (h : LastListed d c e t) (hk : KeepsOthers d d' k) (hne : e ≠ k) :
    LastListed d' c e t := by
  obtain ⟨hrch, _, hlist⟩ := hk e hne
  exact ⟨h.client, hlist.mpr h.mem, hrch ▸ h.request, hrch ▸ h.handler⟩

/-- A recycle leaves what the reply has filled in. -/
theorem recycle_rchReturn (h : d.i2oRecycleRch k caller = some d') (e : Nat) :
    (d'.rch e).rchReturn = (d.rch e).rchReturn := by
  rw [i2oRecycleRch] at h
  obtain ⟨d₁, hremove, hfree⟩ := Option.bind_eq_some_iff.mp h
  rw [(recycle_some hfree).1]
  split at hremove
  · obtain ⟨_, rfl⟩ := rchRemove_some hremove
    by_cases heq : e = k
    · rw [heq, setRch_rch_self]
    · rw [(keepsOthers_setRch _ k _ e heq).1]
  · rw [Option.some.inj hremove]

/-- The reply to the last message. -/
theorem lastDone_of_handle {start nsamples : BitVec 32} (hinv : DevInv d)
    (hd : d.handle e start nsamples .handleLastMessage = some d') :
    LastDone d' e := by
  simp only [handle] at hd
  split at hd
  · refine ⟨?_, ?_⟩
    · exact (recycled hd).not_mem (hinv.setReturn (Int.le_refl 1))
    · rw [recycle_rchReturn hd, setRch_rch_self]
  · cases hd

/-- A client that recycles a handler of its own leaves the last handler of another
file alone. -/
theorem LastListed.recycled (h : LastListed s.dev c e t)
    (hrec : s.dev.i2oRecycleRch k caller = some d) (hne : e ≠ k) : LastListed d c e t :=
  h.of_keeps (Device.recycled hrec).keeps hne

/-- The handler of a read is not that of a last message. -/
theorem LastListed.ne_of_live {t' : Tag} (h : LastListed d c e t)
    (hlive : Live d k t' .handleReadMessageFile) : e ≠ k := by
  rintro rfl
  have hhandler := h.handler
  rw [hlive.2.2.2.2] at hhandler
  cases hhandler

theorem LastListed.ne_of_unlisted (h : LastListed d c e t) (hk : k ∉ d.list) : e ≠ k :=
  fun heq => hk (heq ▸ h.mem)

/-- A step that posts nothing, while the close sleeps. -/
theorem last_of_trans (h : OwnInv s) (hboundary : ∀ c, (s.clients c).pc.predicted = none)
    (hbuilds : ∀ c ∈ l.goes, (s.clients c).pc.builds = false)
    (hharmless : SecondRecycleHarmless l s) (hpc : (s.clients c).pc = .waitLast e t)
    (ht : Trans l s s') (hlast : LastListed s.dev c e t) :
    LastListed s'.dev c e t ∨ LastDone s'.dev e := by
  cases ht with
  | oops => exact Or.inl hlast
  | neutral _ _ _ _ _ => exact Or.inl hlast
  | sleepMapping _ _ => exact Or.inl hlast
  | failMapping _ _ => exact Or.inl hlast
  | failLen _ _ => exact Or.inl hlast
  | passLen _ _ => exact Or.inl hlast
  | endWaitRead _ _ => exact Or.inl hlast
  | endWaitLast _ _ => exact Or.inl hlast
  | foundValid _ _ => exact Or.inl hlast
  | allocRch _ _ _ _ _ _ => exact Or.inl ⟨hlast.client, hlast.mem, hlast.request, hlast.handler⟩
  | allocMapping _ _ _ _ => exact Or.inl ⟨hlast.client, hlast.mem, hlast.request, hlast.handler⟩
  | @freeMapping _ _ kbuf _ =>
    cases kbuf with
    | mapping m => exact Or.inl ⟨hlast.client, hlast.mem, hlast.request, hlast.handler⟩
    | other => exact Or.inl hlast
  | @build _ k _ _ _ _ _ hbuild _ _ =>
    have hfalse := hbuilds k rfl
    rw [hbuild] at hfalse
    cases hfalse
  | @append _ k _ _ _ _ _ _ happend _ =>
    have hfalse := hboundary k
    rw [happend] at hfalse
    cases hfalse
  | @send _ k _ _ _ _ _ _ hsend =>
    have hfalse := hboundary k
    rw [hsend] at hfalse
    cases hfalse
  | removeIfNotValid hread hd =>
    have hlive := (h.pcInv hread).2
    obtain ⟨_, hk, _, _⟩ := removeIfNotValid_cases h.dev hlive hd
    exact Or.inl (hlast.of_keeps hk (hlast.ne_of_live hlive))
  | recycleUnbuilt hunbuilt hd =>
    exact Or.inl (hlast.recycled hd (hlast.ne_of_unlisted (h.pcInv hunbuilt).2.2.1))
  | recycleRead hread hd =>
    rcases (h.pcInv hread).2 with hlive | ⟨_, hunlisted, _⟩
    · exact Or.inl (hlast.recycled hd (hlast.ne_of_live hlive))
    · exact Or.inl (hlast.recycled hd (hlast.ne_of_unlisted hunlisted))
  | @recycleLast _ k k' _ _ hrecycle hd =>
    refine Or.inl (hlast.recycled hd ?_)
    rintro rfl
    have hfree := hharmless k rfl e (by rw [hrecycle]; exact rfl)
    have hreserved := (h.dev.reserved_iff e).mpr (by rw [(h.dev.listed e hlast.mem).1]; rfl)
    rw [hfree] at hreserved
    cases hreserved
  | @recycleAB _ k _ _ _ _ _ buffer _ hab hslot hd _ _ _ =>
    have hlive := ((h.client k).slot (by rw [hab]; rfl) buffer _ _ hslot).2 (by rw [hab]; rfl)
    exact Or.inl (hlast.recycled hd (hlast.ne_of_live hlive))
  | @cleanup _ k k' _ hcleanup hfound hd =>
    refine Or.inl (hlast.recycled hd ?_)
    rintro rfl
    -- The handler is that of the file which is being cleaned up.
    have hpath := (cleanupRch_mem hfound).2
    rw [(h.dev.listed e hlast.mem).2, hlast.request, hlast.client] at hpath
    rw [← Option.some.inj hpath, hpc] at hcleanup
    cases hcleanup
  | answer _ => exact Or.inl hlast
  | @dispatch _ n p d start nsamples _ hd =>
    rcases dispatch_cases h.dev hd with ⟨_, rfl⟩ | ⟨k, hfind, ⟨hread, rfl⟩ | ⟨_, hrec⟩⟩
    · exact Or.inl hlast
    · refine Or.inl (hlast.of_keeps (keepsOthers_setRch s.dev k _) ?_)
      rintro rfl
      rw [hlast.handler] at hread
      cases hread
    · by_cases heq : e = k
      · subst heq
        rw [processCommandMessageReturn, hfind] at hd
        simp only [hlast.handler] at hd
        exact Or.inr (lastDone_of_handle h.dev hd)
      · exact Or.inl (hlast.of_keeps hrec.keeps heq)

/-- A handler that is not on the list keeps what its reply has filled in, until
it is built anew. -/
theorem rchReturn_of_trans (h : OwnInv s) (hboundary : ∀ c, (s.clients c).pc.predicted = none)
    (hbuilds : ∀ c ∈ l.goes, (s.clients c).pc.builds = false) (ht : Trans l s s')
    (he : e ∉ s.dev.list) : (s'.dev.rch e).rchReturn = (s.dev.rch e).rchReturn := by
  cases ht with
  | @freeMapping _ _ kbuf _ =>
    cases kbuf with
    | mapping m => rfl
    | other => rfl
  | @build _ k _ _ _ _ _ hbuild _ _ =>
    have hfalse := hbuilds k rfl
    rw [hbuild] at hfalse
    cases hfalse
  | @append _ k _ _ _ _ _ _ happend _ =>
    have hfalse := hboundary k
    rw [happend] at hfalse
    cases hfalse
  | @send _ k _ _ _ _ _ _ hsend =>
    have hfalse := hboundary k
    rw [hsend] at hfalse
    cases hfalse
  | @removeIfNotValid _ _ k _ _ _ hread hd =>
    have hlive := (h.pcInv hread).2
    obtain ⟨_, hk, _, _⟩ := removeIfNotValid_cases h.dev hlive hd
    have hne : e ≠ k := fun heq => he (heq ▸ hlive.2.1)
    exact congrArg _ (hk e hne).1
  | recycleUnbuilt _ hd => exact recycle_rchReturn hd e
  | recycleRead _ hd => exact recycle_rchReturn hd e
  | recycleLast _ hd => exact recycle_rchReturn hd e
  | recycleAB _ _ hd _ _ _ => exact recycle_rchReturn hd e
  | cleanup _ _ hd => exact recycle_rchReturn hd e
  | dispatch _ hd =>
    rcases dispatch_cases h.dev hd with ⟨_, rfl⟩ | ⟨k, hfind, ⟨_, rfl⟩ | ⟨_, hrec⟩⟩
    · rfl
    · have hne : e ≠ k := fun heq => he (heq ▸ (findRch_mem hfind).1)
      exact congrArg _ (keepsOthers_setRch s.dev k _ e hne).1
    · have hne : e ≠ k := fun heq => he (heq ▸ (findRch_mem hfind).1)
      exact congrArg _ (hrec.keeps e hne).1
  | _ => rfl

/-- Only a post puts a close to sleep. -/
theorem waitLast_of_trans (hboundary : ∀ c, (s.clients c).pc.predicted = none) (ht : Trans l s s')
    (hpc : (s'.clients c).pc = .waitLast e t) : (s.clients c).pc = .waitLast e t := by
  have hmove : ∀ {s₁ : Sys} {k : Nat} {client : Client}, s₁.clients = s.clients →
      client.pc ≠ .waitLast e t → ((s₁.setClient k client).clients c).pc = .waitLast e t →
        (s.clients c).pc = .waitLast e t := by
    intro s₁ k client hclients hne hnext
    by_cases heq : c = k
    · rw [heq, Sys.setClient_self] at hnext
      exact absurd hnext hne
    · rwa [Sys.setClient_of_ne _ heq, hclients] at hnext
  have hset : ∀ {d : Device} {k : Nat} {pc : Pc}, pc ≠ .waitLast e t →
      (({ s with dev := d }.setPc k pc).clients c).pc = .waitLast e t →
        (s.clients c).pc = .waitLast e t :=
    fun hne => hmove (by rfl) hne
  cases ht with
  | oops => exact hpc
  | neutral _ _ hfree _ _ =>
    refine hmove rfl (fun heq => ?_) hpc
    rw [heq] at hfree
    cases hfree
  | sleepMapping _ _ => exact hset (d := s.dev) Pc.noConfusion hpc
  | failMapping _ _ => exact hset (d := s.dev) Pc.noConfusion hpc
  | failLen _ _ => exact hset (d := s.dev) Pc.noConfusion hpc
  | passLen _ _ => exact hset (d := s.dev) Pc.noConfusion hpc
  | endWaitRead _ _ => exact hset (d := s.dev) Pc.noConfusion hpc
  | endWaitLast _ _ => exact hset (d := s.dev) Pc.noConfusion hpc
  | foundValid _ _ => exact hset (d := s.dev) Pc.noConfusion hpc
  | @allocRch _ _ _ op _ _ _ _ _ _ _ hnext _ =>
    refine hmove rfl (fun heq => ?_) hpc
    rw [hnext] at heq
    cases op <;> cases heq
  | allocMapping _ _ _ _ => exact hset Pc.noConfusion hpc
  | freeMapping _ => exact hset Pc.noConfusion hpc
  | build _ hnext _ =>
    refine hmove rfl (fun heq => ?_) hpc
    rw [hnext] at heq
    cases heq
  | append _ _ => exact hset Pc.noConfusion hpc
  | @send _ k _ _ _ _ _ _ hsend =>
    have hfalse := hboundary k
    rw [hsend] at hfalse
    cases hfalse
  | removeIfNotValid _ _ =>
    refine hset (fun heq => ?_) hpc
    split at heq <;> cases heq
  | @recycleUnbuilt _ _ _ _ kbuf _ _ _ =>
    refine hset (fun heq => ?_) hpc
    cases kbuf <;> cases heq
  | recycleRead _ _ => exact hset Pc.noConfusion hpc
  | recycleLast _ _ => exact hset Pc.noConfusion hpc
  | cleanup _ _ _ => exact hpc
  | recycleAB _ _ _ _ hfree _ =>
    refine hmove rfl (fun heq => ?_) hpc
    rw [heq] at hfree
    cases hfree
  | answer _ => exact hpc
  | dispatch _ _ => exact hpc

end Steps

theorem closeInv_step {lastId : BitVec 16} (l : Label) (s s' : Sys) (h : CloseInv lastId s)
    (hok : (IdNotTaken l s ∧ SecondRecycleHarmless l s) ∧ LastNotRebuilt l s)
    (hs : atomicStep l s = some s') : CloseInv lastId s' := by
  have hserve := serveInv_step l s s' h.serve hok.1 hs
  have hroute := h.serve.route
  refine ⟨hserve, fun c e t hpc => ?_⟩
  rcases atomicStep_cases hroute hs with
    ⟨hbuilds, hstep⟩ | ⟨k, e', op, t', kbuf, p, rfl, hposting⟩
  · have ht := trans_of_step hstep
    have hbefore := waitLast_of_trans hroute.boundary ht hpc
    rcases h.last c e t hbefore with hlast | hdone
    · exact last_of_trans hroute.own hroute.boundary hbuilds hok.1.2 hbefore ht hlast
    · have hlist := (quiet_of_trans hroute.own hroute.boundary hbuilds ht).list
      refine Or.inr ⟨fun hm => hdone.unlisted (hlist e hm).1, ?_⟩
      rw [rchReturn_of_trans hroute.own hroute.boundary hbuilds ht hdone.unlisted]
      exact hdone.valid
  · obtain ⟨hclient, hunbuilt, _⟩ := hroute.own.pcInv hposting.pc
    have hpost := hposting.post
    by_cases heq : c = k
    · -- The close has just sent its last message.
      rw [heq, hposting.next] at hpc
      have hop : op = .release ∧ e' = e ∧ t' = t := by
        cases op with
        | release =>
          cases hpc
          exact ⟨rfl, rfl, rfl⟩
        | queue buffer => cases buffer <;> cases hpc
        | _ => cases hpc
      obtain ⟨rfl, rfl, rfl⟩ := hop
      refine Or.inl ⟨hclient.trans heq.symm, ?_, hpost.request, ?_⟩
      · rw [hpost.list]
        exact List.mem_append_right _ List.mem_cons_self
      · rw [hposting.rch]
        show ((s.dev.setRch e' _).rch e').handler = _
        rw [setRch_rch_self]
        rfl
    · rw [hpost.others c heq] at hpc
      have hmem : ∀ other, other ≠ e' → (other ∈ s'.dev.list ↔ other ∈ s.dev.list) := by
        intro other hne
        rw [hpost.list, List.mem_append, List.mem_singleton]
        exact or_iff_left hne
      rcases h.last c e t hpc with hlast | hdone
      · have hne := hlast.ne_of_unlisted hunbuilt.2.1
        have hrch := hpost.rch e hne
        exact Or.inl ⟨hlast.client, (hmem e hne).mpr hlast.mem, hrch ▸ hlast.request,
          hrch ▸ hlast.handler⟩
      · have hne : e ≠ e' := by
          rintro rfl
          exact hok.2 k rfl e (by rw [hposting.pc]; exact rfl) c t hpc
        refine Or.inr ⟨fun hm => hdone.unlisted ((hmem e hne).mp hm), ?_⟩
        rw [hpost.rch e hne]
        exact hdone.valid

/-! ## The end of a close -/

/-- How many statements a close that has sent its last message still has before
the cleanup. -/
def Pc.ending : Pc → Option Nat
  | .waitLast _ _ => some 3
  | .testLast _ _ => some 2
  | .recycleLast _ _ => some 1
  | .cleanup => some 0
  | _ => none

/-- The file is closed, and no handler on the list is for it. -/
structure Sys.Ended (s : Sys) (c : Nat) : Prop where
  closed : (s.clients c).pc = .closed
  unlinked : ∀ e ∈ s.dev.list, (s.dev.rch e).path ≠ some c

/-- The handlers that the file has on the list. -/
def Sys.linked (s : Sys) (c : Nat) : List Nat :=
  s.dev.list.filter fun e => (s.dev.rch e).request.client == c

section Ending

variable {s s' : Sys} {d d' : Device} {c e k : Nat} {t : Tag} {l : Label} {pc : Pc}
  {lastId : BitVec 16}

theorem mem_linked : e ∈ s.linked c ↔ e ∈ s.dev.list ∧ (s.dev.rch e).request.client = c := by
  rw [Sys.linked, List.mem_filter, beq_iff_eq]

/-- A file that posts nothing gets no more handlers on the list. -/
theorem linked_subset (h : RouteInv lastId s) (hpc : (s.clients c).pc.builds = false)
    (hs : atomicStep l s = some s') : s'.linked c ⊆ s.linked c := by
  intro e he
  obtain ⟨hmem, hclient⟩ := mem_linked.mp he
  rcases atomicStep_cases h hs with
    ⟨hbuilds, hstep⟩ | ⟨k, e', op, t', kbuf, p, rfl, hposting⟩
  · obtain ⟨hmem', hrequest, _⟩ :=
      (quiet_of_trans h.own h.boundary hbuilds (trans_of_step hstep)).list e hmem
    exact mem_linked.mpr ⟨hmem', hrequest ▸ hclient⟩
  · have hpost := hposting.post
    have hk : t'.client = k := (h.own.pcInv hposting.pc).1
    have hne : e ≠ e' := by
      rintro rfl
      rw [hpost.request, hk] at hclient
      rw [← hclient, hposting.pc] at hpc
      cases hpc
    rw [hpost.list, List.mem_append, List.mem_singleton] at hmem
    rw [hpost.rch e hne] at hclient
    exact mem_linked.mpr ⟨hmem.resolve_right hne, hclient⟩

theorem linked_nodup (h : OwnInv s) (c : Nat) : (s.linked c).Nodup :=
  h.dev.list_nodup.filter _

theorem builds_of_ending {pc : Pc} (h : pc.ending = some k) : pc.builds = false := by
  cases pc with
  | build _ _ _ _ => cases h
  | _ => rfl

/-- The client of a close makes its steps one by one. -/
theorem step_of_ending (hpc : (s.clients c).pc.ending = some k) (hl : l.client = some c)
    (h : atomicStep l s = some s') : s.clientStep c l = some s' := by
  have hbuilds := builds_of_ending hpc
  have hstep : Sys.step l s = some s' := by
    refine step_of_atomicStep (fun other hother => ?_) h
    cases l with
    | go i =>
      obtain rfl := Option.some.inj hother
      obtain rfl := Option.some.inj hl
      exact hbuilds
    | _ => cases hother
  have hoops := not_oopsed hstep
  unfold Sys.step at hstep
  rw [hoops, if_neg Bool.false_ne_true] at hstep
  cases l with
  | answer n => cases hl
  | dispatch n start nsamples => cases hl
  | _ =>
    obtain rfl := Option.some.inj hl
    exact hstep

/-- What a step of the close does. -/
theorem ending_of_clientStep (hown : OwnInv s) (hpc : (s.clients c).pc = pc)
    (hending : pc.ending = some k) (h : s.clientStep c l = some s')
    (hoops : s'.oopsed = false) :
    s'.Ended c ∨ (∃ j, (s'.clients c).pc.ending = some j ∧ j < k) ∨
      (s'.clients c).pc = .cleanup ∧ k = 0 ∧ ∃ e ∈ s.linked c, e ∉ s'.dev.list := by
  unfold Sys.clientStep at h
  rw [hpc] at h
  cases pc with
  | waitLast e t =>
    cases hending
    cases l with
    | wake i =>
      simp only [Sys.wake] at h
      split at h
      · obtain rfl := Option.some.inj h
        rw [Sys.setPc_self]
        exact Or.inr (Or.inl ⟨2, rfl, Nat.lt_succ_self 2⟩)
      · cases h
    | signal i =>
      obtain rfl := Option.some.inj h
      rw [Sys.setPc_self]
      exact Or.inr (Or.inl ⟨2, rfl, Nat.lt_succ_self 2⟩)
    | _ => cases h
  | testLast e t =>
    cases hending
    cases l with
    | go i =>
      obtain rfl := Option.some.inj h
      rw [Sys.setPc_self]
      dsimp only
      split
      · exact Or.inr (Or.inl ⟨1, rfl, Nat.lt_succ_self 1⟩)
      · exact Or.inr (Or.inl ⟨0, rfl, Nat.succ_pos 1⟩)
    | _ => cases h
  | recycleLast e t =>
    cases hending
    cases l with
    | go i =>
      have hgo : s.goRelease c (.recycleLast e t) = some s' := h
      cases hrecycle : s.dev.i2oRecycleRch e t with
      | none =>
        simp only [Sys.goRelease, hrecycle] at hgo
        obtain rfl := Option.some.inj hgo
        cases hoops
      | some d =>
        simp only [Sys.goRelease, hrecycle] at hgo
        obtain rfl := Option.some.inj hgo
        refine Or.inr (Or.inl ⟨0, ?_, Nat.succ_pos 0⟩)
        exact congrArg Pc.ending (congrArg Client.pc (Sys.setPc_self _ c .cleanup))
    | _ => cases h
  | cleanup =>
    cases hending
    cases l with
    | go i =>
      have hgo : s.goRelease c .cleanup = some s' := by
        have hor : (s.goRelease c .cleanup).orElse (fun _ => none) = some s' := h
        rwa [Option.orElse_eq_or, Option.or_none] at hor
      simp only [Sys.goRelease] at hgo
      split at hgo
      · rename_i e hfound
        obtain ⟨hmem, hpath⟩ := cleanupRch_mem hfound
        cases hrecycle : s.dev.i2oRecycleRch e (s.dev.rch e).request with
        | none =>
          rw [hrecycle] at hgo
          obtain rfl := Option.some.inj hgo
          cases hoops
        | some d =>
          rw [hrecycle] at hgo
          obtain rfl := Option.some.inj hgo
          refine Or.inr (Or.inr ⟨hpc, rfl, e, ?_, (recycled hrecycle).not_mem hown.dev⟩)
          rw [(hown.dev.listed e hmem).2] at hpath
          exact mem_linked.mpr ⟨hmem, Option.some.inj hpath⟩
      · -- The search has come to the end of the list.
        rename_i hnone
        obtain rfl := Option.some.inj hgo
        refine Or.inl ⟨congrArg Client.pc (Sys.setPc_self _ c .closed), fun e hmem hpath => ?_⟩
        exact List.find?_eq_none.mp hnone e hmem (beq_iff_eq.mpr hpath)
    | _ => cases h
  | _ => cases hending

/-- The statements that a close still has, with one for each handler that its file
has on the list. -/
def Sys.closeRank (s : Sys) (c : Nat) : Nat :=
  (s.clients c).pc.ending.getD 0 + (s.linked c).length

theorem closeRank_eq (h : (s.clients c).pc.ending = some k) :
    s.closeRank c = k + (s.linked c).length := by
  rw [Sys.closeRank, h]
  rfl

/-- A close stays where it is or gets nearer to its end. -/
theorem closing_of_step (h : RouteInv lastId s) (h' : RouteInv lastId s')
    (hpc : (s.clients c).pc.ending = some k) (hs : atomicStep l s = some s')
    (hoops : s'.oopsed = false) :
    l.client ≠ some c ∧ s'.clients c = s.clients c ∧ s'.closeRank c ≤ s.closeRank c ∨
      l.client = some c ∧ (s'.Ended c ∨
        (s'.clients c).pc.ending.isSome = true ∧ s'.closeRank c < s.closeRank c) := by
  have hbuilds := builds_of_ending hpc
  have hsubset := linked_subset h hbuilds hs
  have hlinked : (s'.linked c).length ≤ (s.linked c).length :=
    (List.Nodup.subperm (linked_nodup h'.own c) hsubset).length_le
  have hrank := closeRank_eq hpc
  by_cases hl : l.client = some c
  · refine Or.inr ⟨hl, ?_⟩
    rcases ending_of_clientStep h.own rfl hpc (step_of_ending hpc hl hs) hoops with
      hended | ⟨j, hj, hlt⟩ | ⟨hcleanup, rfl, e, he, hgone⟩
    · exact Or.inl hended
    · refine Or.inr ⟨by rw [hj]; rfl, ?_⟩
      rw [closeRank_eq hj]
      omega
    · have hzero : (s'.clients c).pc.ending = some 0 := by rw [hcleanup]; rfl
      refine Or.inr ⟨by rw [hzero]; rfl, ?_⟩
      have hnot : e ∉ s'.linked c := fun hm => hgone (mem_linked.mp hm).1
      have hless := (List.Nodup.subperm ((linked_nodup h'.own c).cons hnot)
        (List.cons_subset.mpr ⟨he, hsubset⟩)).length_le
      rw [List.length_cons] at hless
      rw [closeRank_eq hzero]
      omega
  · have hsame := clients_of_atomicStep hs hl
    refine Or.inl ⟨hl, hsame, ?_⟩
    rw [closeRank_eq (hsame ▸ hpc), hrank]
    omega

/-- A close can go on, once the reply to its last message is there. -/
theorem ready_of_ending (hoops : s.oopsed = false) (hpc : (s.clients c).pc.ending = some k)
    (hvalid : ∀ e t, (s.clients c).pc = .waitLast e t → s.validOf e = true) : Ready s c := by
  have hgo : atomicStep (.go c) s = s.clientStep c (.go c) := by
    simp only [atomicStep]
    split
    · rename_i hbuild
      rw [hbuild] at hpc
      cases hpc
    · unfold Sys.step
      rw [hoops]
      rfl
  unfold Ready
  rw [hgo, atomicStep_wake hoops]
  cases hclose : (s.clients c).pc with
  | waitLast e t =>
    refine Or.inr ?_
    simp only [Sys.wake]
    rw [if_pos (hvalid e t hclose)]
    rfl
  | testLast e t =>
    refine Or.inl ?_
    simp only [Sys.clientStep, hclose, Sys.goRequest, Sys.goRelease]
    rfl
  | recycleLast e t =>
    refine Or.inl ?_
    simp only [Sys.clientStep, hclose, Sys.goRequest, Sys.goRelease]
    rfl
  | cleanup =>
    refine Or.inl ?_
    simp only [Sys.clientStep, hclose, Sys.goRequest, Sys.goRelease]
    split <;> rfl
  | _ =>
    rw [hclose] at hpc
    cases hpc

end Ending

/-! ## Fair runs -/

section Runs

variable {lastId : BitVec 16} {labels : Nat → Option Label} {states : Nat → Sys} {n c e : Nat}
  {t : Tag}

/-- The close gets the reply to its last message, and does not lose it. -/
theorem last_reply_comes {ok : Label → Sys → Prop}
    (hrun : Behaviour atomicStep ok labels states) (hinv : ∀ n, CloseInv lastId (states n))
    (hfair : Fair labels states)
    (hsleeps : ∀ m, n ≤ m → ((states m).clients c).pc = .waitLast e t) :
    ∃ m, n ≤ m ∧ ∀ k, m ≤ k → (states k).validOf e = true := by
  have hdone : ∀ k, LastDone (states k).dev e → (states k).validOf e = true := by
    intro k hdone
    refine decide_eq_true ?_
    rw [hdone.valid]
    exact Int.one_ne_zero
  by_cases hlisted : ∃ j, n ≤ j ∧ LastListed (states j).dev c e t
  · obtain ⟨j, hnj, hlast⟩ := hlisted
    obtain ⟨m, hjm, hvalid⟩ :=
      reply_comes hrun (fun k => (hinv k).serve) hfair hlast.mem hlast.request
    refine ⟨m, Nat.le_trans hnj hjm, fun k hmk => ?_⟩
    rcases (hinv k).last c e t (hsleeps k (Nat.le_trans hnj (Nat.le_trans hjm hmk))) with h | h
    · exact hvalid k hmk h.mem h.request
    · exact hdone k h
  · refine ⟨n, Nat.le_refl n, fun k hnk => hdone k ?_⟩
    exact ((hinv k).last c e t (hsleeps k hnk)).resolve_left fun h => hlisted ⟨k, hnk, h⟩

/-- In a fair run that has no fault, and in which no client builds the handler that
a close is asleep on, a close that has sent its last message ends, and then the list has
no handler of its file. -/
theorem closes_return
    (hrun : Behaviour atomicStep
      (fun l s => (IdNotTaken l s ∧ SecondRecycleHarmless l s) ∧ LastNotRebuilt l s) labels states)
    (hstart : states 0 = initial lastId) (hfair : Fair labels states)
    (hoops : ∀ n, (states n).oopsed = false) (c : Nat) :
    LeadsTo states (fun s => (s.clients c).pc.ending.isSome = true) (fun s => s.Ended c) := by
  have hinv : ∀ n, CloseInv lastId (states n) :=
    hrun.inv closeInv_step (hstart ▸ closeInv_initial lastId)
  have hroute := fun n => (hinv n).serve.route
  refine leadsTo_of_rank (fun s => s.closeRank c) fun k n ⟨hending, hk⟩ => ?_
  obtain ⟨j, hj⟩ := Option.isSome_iff_exists.mp hending
  suffices h : LeadsTo states
      (fun s => s.clients c = (states n).clients c ∧ s.closeRank c = k) fun s =>
        s.Ended c ∨
          (s.clients c).pc.ending.isSome = true ∧ s.closeRank c < k from h n ⟨rfl, hk⟩
  refine leadsTo_of_until ?_ ?_
  · rintro m ⟨hsame, hrank⟩
    rcases hrun.next m with hidle | ⟨l, _, _, hl⟩
    · rw [hidle]
      exact Or.inl ⟨hsame, hrank⟩
    · rcases closing_of_step (hroute m) (hroute (m + 1)) (hsame ▸ hj) hl (hoops (m + 1)) with
        ⟨_, hother, hle⟩ | ⟨_, hended | ⟨hsome, hlt⟩⟩
      · rw [hrank] at hle
        rcases Nat.lt_or_eq_of_le hle with hlt | heq
        · refine Or.inr (Or.inr ⟨?_, hlt⟩)
          rw [hother, hsame, hj]
          rfl
        · exact Or.inl ⟨hother.trans hsame, heq⟩
      · exact Or.inr (Or.inl hended)
      · exact Or.inr (Or.inr ⟨hsome, hrank ▸ hlt⟩)
  · rintro m ⟨hsame, hrank⟩
    by_contra hnever
    have hstays : ∀ i, m ≤ i →
        (states i).clients c = (states n).clients c ∧ (states i).closeRank c = k := by
      intro i hi
      by_contra hmoved
      exact hnever ⟨i, hi, hmoved⟩
    obtain ⟨m₁, hle, hvalid⟩ : ∃ m₁, m ≤ m₁ ∧ ∀ i, m₁ ≤ i → ∀ e t,
        ((states n).clients c).pc = .waitLast e t → (states i).validOf e = true := by
      by_cases hwait : ∃ e t, ((states n).clients c).pc = .waitLast e t
      · obtain ⟨e, t, hwait⟩ := hwait
        obtain ⟨m₁, hle, hvalid⟩ := last_reply_comes hrun hinv hfair (n := m) (c := c)
          fun i hi => by rw [(hstays i hi).1, hwait]
        refine ⟨m₁, hle, fun i hi e' t' he => ?_⟩
        rw [hwait] at he
        cases he
        exact hvalid i hi
      · exact ⟨m, Nat.le_refl m, fun _ _ e t he => absurd ⟨e, t, he⟩ hwait⟩
    have hready : ∀ i, m₁ ≤ i → Ready (states i) c := by
      intro i hi
      have hclient := (hstays i (Nat.le_trans hle hi)).1
      refine ready_of_ending (hoops i) (hclient ▸ hj) fun e t he => ?_
      exact hvalid i hi e t (hclient ▸ he)
    obtain ⟨i, hi, l, hl, hclient⟩ := hfair.moves hready
    have hmi := Nat.le_trans hle hi
    obtain ⟨hhere, hrankHere⟩ := hstays i hmi
    obtain ⟨hthere, hrankThere⟩ := hstays (i + 1) (Nat.le_succ_of_le hmi)
    rcases closing_of_step (hroute i) (hroute (i + 1)) (hhere ▸ hj) (hrun.step i l hl).2
      (hoops (i + 1)) with ⟨hother, _, _⟩ | ⟨_, hended | ⟨_, hlt⟩⟩
    · exact hother hclient
    · have hclosed := hended.closed
      rw [hthere] at hclosed
      rw [hclosed] at hj
      cases hj
    · rw [hrankHere, hrankThere] at hlt
      exact Nat.lt_irrefl k hlt

end Runs

/-- No file but the first one is open. -/
def Alone (s : Sys) : Prop := ∀ c, c ≠ 0 → (s.clients c).pc = .unopened

theorem alone_step {l : Label} {s s' : Sys} (h : Alone s) (hl : l.client.getD 0 = 0)
    (hs : atomicStep l s = some s') : Alone s' := by
  intro c hc
  rw [clients_of_atomicStep hs (fun heq => hc ?_)]
  · exact h c hc
  · rw [heq] at hl
    exact hl

theorem lastNotRebuilt_alone {l : Label} {s : Sys} (h : Alone s) (hl : l.client.getD 0 = 0) :
    LastNotRebuilt l s := by
  intro c hc e he other t hwait
  have hzero : c = 0 := by
    cases l with
    | go k =>
      rw [← Option.some.inj hc]
      exact hl
    | _ => cases hc
  subst hzero
  by_cases hother : other = 0
  · rw [hother] at hwait
    rw [hwait] at he
    cases he
  · rw [h other hother] at hwait
    cases hwait

/-- A close after a read that a signal has interrupted.  The reply to the read comes
last of all. -/
def closeAfterInterrupt : List Label :=
  interruptedRead ++ [.call 0 .release, .go 0, .go 0, .answer 1, .dispatch 0 0#32 0#32, .wake 0,
    .go 0, .go 0, .go 0, .go 0, .answer 0, .dispatch 0 0#32 1#32]

theorem closes_return_closeAfterInterrupt :
    ((padded atomicStep closeAfterInterrupt (initial 0) 11).clients 0).pc.ending = some 3 ∧
      LeadsTo (padded atomicStep closeAfterInterrupt (initial 0))
        (fun s => (s.clients 0).pc.ending.isSome = true) (fun s => s.Ended 0) := by
  have hrun : runFrom atomicStep closeAfterInterrupt (initial 0) = some _ := rfl
  have hfair := fair_padded hrun rfl rfl fun c => by cases c <;> rfl
  have hok : RunMeets atomicStep
      (fun l s => (IdNotTaken l s ∧ SecondRecycleHarmless l s) ∧ l.client.getD 0 = 0)
      closeAfterInterrupt (initial 0) := by decide
  have hmeets : RunMeets atomicStep
      (fun l s => (IdNotTaken l s ∧ SecondRecycleHarmless l s) ∧ LastNotRebuilt l s)
      closeAfterInterrupt (initial 0) :=
    runMeets_of_inv (fun _ _ _ h hl => alone_step h hl.2)
      (fun _ _ h hl => ⟨hl.1, lastNotRebuilt_alone h hl.2⟩)
      (show Alone (initial 0) from fun _ _ => rfl) hok
  exact ⟨rfl, @closes_return 0 _ _ (behaviour_padded hmeets hrun) rfl hfair
    (padded_not_oopsed hrun rfl) 0⟩

end Acq200.Rch
