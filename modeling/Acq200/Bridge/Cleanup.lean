import Acq200.Bridge.Basic
import Acq200.Rch.Transitions

/-!
# What a close takes off the list

`_cleanup_on_bridge_release` walks the list of the device, recycles the first
handler of the path that is closed and starts again from the front.  Each
round takes one handler off the list, so the number of handlers of the path
bounds the rounds.

`cleanup_precise` says what is left, for every list and every path: the
handlers of the path are gone with their reservations, and nothing else has
changed.  `release_clears` and `closed_clears` are what this is for: when a
release returns, no linked handler refers to the path that is freed.
`release_returns_iff` says when it does.
-/

namespace Acq200.Bridge

open Acq200.Lib
open Acq200.Rch
open Acq200.Rch.Device

/-! ## The list -/

/-- The linked handlers are distinct, and a handler with a path has been built,
so it has a device as well. -/
structure RchList (d : Device) : Prop where
  nodup : d.list.Nodup
  built : ∀ e, (d.rch e).path.isSome = true → (d.rch e).device = true

section RchList

variable {d d' : Device} {e : Nat} {t : Tag}

theorem rchList_poolCreate (lastId : BitVec 16) : RchList (poolCreate lastId) where
  nodup := List.nodup_nil
  built := fun _ h => absurd h Bool.false_ne_true

theorem RchList.of_eq (h : RchList d) (hlist : d'.list = d.list) (hrch : d'.rch = d.rch) :
    RchList d' where
  nodup := hlist ▸ h.nodup
  built := hrch ▸ h.built

theorem RchList.setRch (h : RchList d) {rch : ReturnCommandHandler}
    (hrch : rch.path.isSome = true → rch.device = true) : RchList (d.setRch e rch) where
  nodup := h.nodup
  built := by
    intro x hx
    by_cases heq : x = e
    · rw [heq, setRch_rch_self] at hx ⊢
      exact hrch hx
    · rw [(keepsOthers_setRch d e rch x heq).1] at hx ⊢
      exact h.built x hx

theorem RchList.append (h : RchList d) (hd : d.rchAppend e = some d') : RchList d' := by
  unfold rchAppend at hd
  split at hd
  · cases hd
  · rename_i hfresh
    obtain rfl := Option.some.inj hd
    refine ⟨List.nodup_append.mpr ⟨h.nodup, List.nodup_singleton e, ?_⟩, h.built⟩
    intro x hx y hy heq
    rw [heq, List.mem_singleton.mp hy] at hx
    exact hfresh hx

theorem RchList.recycle (h : RchList d) (hd : d.i2oRecycleRch e t = some d') :
    RchList d' := by
  have hrec := recycled hd
  constructor
  · rw [hrec.list]
    split
    · exact h.nodup.erase e
    · exact h.nodup
  · intro x hx
    have hne : x ≠ e := by
      intro heq
      rw [heq, hrec.path] at hx
      exact absurd hx Bool.false_ne_true
    rw [(hrec.keeps x hne).1] at hx ⊢
    exact h.built x hx

theorem RchList.removeIfNotValid {valid : Int} (h : RchList d)
    (hd : d.rchRemoveIfNotValid e = some (d', valid)) : RchList d' := by
  unfold rchRemoveIfNotValid at hd
  simp only at hd
  split at hd
  · obtain ⟨d₁, hdel, hset⟩ := Option.map_eq_some_iff.mp hd
    obtain ⟨rfl, -⟩ := Prod.mk.inj hset
    have h₁ : RchList d₁ := by
      split at hdel
      · unfold listDel at hdel
        split at hdel
        · obtain rfl := Option.some.inj hdel
          exact ⟨h.nodup.erase e, h.built⟩
        · cases hdel
      · exact Option.some.inj hdel ▸ h
    exact h₁.setRch (h₁.built e)
  · obtain ⟨rfl, -⟩ := Prod.mk.inj (Option.some.inj hd)
    exact h

theorem RchList.setReturn (h : RchList d) (e : Nat) (r : RchReturn) :
    RchList (d.setRch e { d.rch e with rchReturn := r }) := h.setRch (h.built e)

theorem RchList.handle (h : RchList d) {start nsamples : BitVec 32} {handler : Handler}
    (hd : d.handle e start nsamples handler = some d') : RchList d' := by
  cases handler with
  | handleReadMessageFile =>
    simp only [Device.handle, rchSetSamplesAndGetPath] at hd
    split at hd
    · rename_i hpair
      obtain ⟨rfl, -⟩ := Prod.mk.inj hpair
      exact Option.some.inj hd ▸ h.setReturn e _
    · rename_i hpair
      obtain ⟨rfl, -⟩ := Prod.mk.inj hpair
      exact (h.setReturn e _).recycle hd
  | recycleRchWrapper => exact h.recycle hd
  | handleLastMessage =>
    simp only [Device.handle] at hd
    split at hd
    · exact (h.setReturn e _).recycle hd
    · cases hd

theorem RchList.process {id : BitVec 16} {start nsamples : BitVec 32} (h : RchList d)
    (hd : d.processCommandMessageReturn id start nsamples = some d') : RchList d' := by
  unfold processCommandMessageReturn at hd
  split at hd
  · exact Option.some.inj hd ▸ h
  · split at hd
    · exact h.handle hd
    · obtain ⟨d₁, hrec, hcount⟩ := Option.map_eq_some_iff.mp hd
      exact (h.recycle hrec).of_eq (by rw [← hcount]) (by rw [← hcount])

theorem RchList.step {l : Label} {s s' : Sys} (h : RchList s.dev)
    (hstep : Sys.step l s = some s') : RchList s'.dev := by
  cases trans_of_step hstep with
  | append hpc hd => exact h.append hd
  | build hpc hnext hslots => exact h.setRch (fun _ => rfl)
  | removeIfNotValid hpc hd => exact h.removeIfNotValid hd
  | recycleUnbuilt hpc hd | recycleRead hpc hd | recycleLast hpc hd | cleanup hpc he hd
  | recycleAB hpc hslot hd => exact h.recycle hd
  | dispatch hp hd => exact h.process hd
  | send hpc =>
    unfold Sys.sendI2OKbuf
    split
    · exact h.of_eq rfl rfl
    · exact h
  | freeMapping hpc =>
    rename_i kbuf
    cases kbuf <;> exact h.of_eq rfl rfl
  | _ => exact h.of_eq rfl rfl

/-- Every device that a run of the driver leads to. -/
theorem rchList_of_run {ls : List Label} {lastId : BitVec 16} {s : Sys}
    (hrun : runFrom Sys.step ls (initial lastId) = some s) : RchList s.dev :=
  runFrom_inv₂ (fun _ _ _ h hstep => RchList.step h hstep) (rchList_poolCreate lastId) hrun

end RchList

/-! ## What the cleanup is for -/

/-- The linked handlers of the path. -/
def closing (path : Nat) (d : Device) : List Nat :=
  d.list.filter fun e => (d.rch e).path == some path

/-- What `i2o_recycleRch` does to a handler that is linked. -/
def unlinkedRch (rch : ReturnCommandHandler) : ReturnCommandHandler :=
  { rch with path := none, handler := none }

/-- The handlers in `gone` are unlinked and their reservations given up, and
the rest is as before. -/
structure Unlinked (gone : List Nat) (d d' : Device) : Prop where
  list : d'.list = d.list.filter (· ∉ gone)
  rch_gone : ∀ e ∈ gone, d'.rch e = unlinkedRch (d.rch e)
  rch_kept : ∀ e ∉ gone, d'.rch e = d.rch e
  handlers_size : d'.handlers.maxEntries = d.handlers.maxEntries
  handlers_gone : ∀ e ∈ gone, e < d.handlers.maxEntries → d'.handlers.reserved e = false
  handlers_kept : ∀ e ∉ gone, d'.handlers.reserved e = d.handlers.reserved e
  mappings_size : d'.mappings.maxEntries = d.mappings.maxEntries
  mappings_gone : ∀ e ∈ gone, ∀ m, poolKbuf (d.rch e).rchReturn = some (.mapping m) →
    m < d.mappings.maxEntries → d'.mappings.reserved m = false
  mappings_kept : ∀ m, (∀ e ∈ gone, poolKbuf (d.rch e).rchReturn ≠ some (.mapping m)) →
    d'.mappings.reserved m = d.mappings.reserved m

section Unlinked

variable {d d₁ d₂ : Device} {e path : Nat} {t : Tag} {rest : List Nat}

theorem Unlinked.refl (d : Device) : Unlinked [] d d where
  list := (List.filter_eq_self.mpr (by simp)).symm
  rch_gone := fun e he => absurd he List.not_mem_nil
  rch_kept := fun _ _ => rfl
  handlers_size := rfl
  handlers_gone := fun e he => absurd he List.not_mem_nil
  handlers_kept := fun _ _ => rfl
  mappings_size := rfl
  mappings_gone := fun e he => absurd he List.not_mem_nil
  mappings_kept := fun _ _ => rfl

/-- A linked handler loses its path and its function, and nothing else. -/
theorem recycle_rch (hpath : (d.rch e).path.isSome = true)
    (h : d.i2oRecycleRch e t = some d₁) : d₁.rch e = unlinkedRch (d.rch e) := by
  rw [i2oRecycleRch, if_pos hpath] at h
  obtain ⟨d₀, hremove, hfree⟩ := Option.bind_eq_some_iff.mp h
  obtain ⟨-, rfl⟩ := rchRemove_some hremove
  rw [(recycle_some hfree).1, setRch_rch_self]
  rfl

/-- One round. -/
theorem recycle_unlinked (hnodup : d.list.Nodup) (hpath : (d.rch e).path.isSome = true)
    (h : d.i2oRecycleRch e t = some d₁) : Unlinked [e] d d₁ := by
  have hrec := recycled h
  have hmap := hrec.mappings
  constructor
  · rw [hrec.list, if_pos hpath, hnodup.erase_eq_filter]
    apply List.filter_congr
    intro x _
    rw [Bool.eq_iff_iff]
    simp
  · intro x hx
    rw [List.mem_singleton.mp hx]
    exact recycle_rch hpath h
  · intro x hx
    exact (hrec.keeps x (fun heq => hx (List.mem_singleton.mpr heq))).1
  · rw [hrec.handlers, Pool.free_maxEntries]
  · intro x hx hlt
    rw [List.mem_singleton.mp hx] at hlt ⊢
    rw [hrec.handlers]
    exact Pool.free_reserved_self _ hlt
  · intro x hx
    rw [hrec.handlers]
    exact Pool.free_reserved_of_ne _ (fun heq => hx (List.mem_singleton.mpr heq))
  · have hfirst := congrArg (fun pair => pair.1.maxEntries) hmap
    split at hfirst
    · exact hfirst.trans (Pool.free_maxEntries _ _)
    · exact hfirst
  · intro x hx m hkbuf hlt
    rw [List.mem_singleton.mp hx] at hkbuf
    rw [hkbuf] at hmap
    rw [(Prod.mk.inj hmap).1]
    exact Pool.free_reserved_self _ hlt
  · intro m hother
    have hne := hother e (List.mem_singleton_self e)
    split at hmap
    · rename_i freed hkbuf
      rw [(Prod.mk.inj hmap).1]
      apply Pool.free_reserved_of_ne
      intro heq
      rw [heq] at hne
      exact hne hkbuf
    · rw [(Prod.mk.inj hmap).1]

theorem poolKbuf_unlinked (rch : ReturnCommandHandler) :
    poolKbuf (unlinkedRch rch).rchReturn = poolKbuf rch.rchReturn := rfl

/-- The mapping of a handler does not change when others are unlinked. -/
theorem Unlinked.poolKbuf {gone : List Nat} (h : Unlinked gone d d₁) (e : Nat) :
    poolKbuf (d₁.rch e).rchReturn = poolKbuf (d.rch e).rchReturn := by
  by_cases he : e ∈ gone
  · rw [h.rch_gone e he, poolKbuf_unlinked]
  · rw [h.rch_kept e he]

theorem Unlinked.trans {gone₁ gone₂ : List Nat} (h₁ : Unlinked gone₁ d d₁)
    (h₂ : Unlinked gone₂ d₁ d₂) : Unlinked (gone₁ ++ gone₂) d d₂ where
  list := by
    rw [h₂.list, h₁.list, List.filter_filter]
    apply List.filter_congr
    intro x _
    rw [Bool.eq_iff_iff]
    simp [and_comm]
  rch_gone := by
    intro e he
    by_cases h2 : e ∈ gone₂
    · rw [h₂.rch_gone e h2]
      by_cases h1 : e ∈ gone₁
      · rw [h₁.rch_gone e h1]
        rfl
      · rw [h₁.rch_kept e h1]
    · rw [h₂.rch_kept e h2, h₁.rch_gone e ((List.mem_append.mp he).resolve_right h2)]
  rch_kept := by
    intro e he
    obtain ⟨h1, h2⟩ := not_or.mp (fun h => he (List.mem_append.mpr h))
    rw [h₂.rch_kept e h2, h₁.rch_kept e h1]
  handlers_size := h₂.handlers_size.trans h₁.handlers_size
  handlers_gone := by
    intro e he hlt
    by_cases h2 : e ∈ gone₂
    · exact h₂.handlers_gone e h2 (h₁.handlers_size ▸ hlt)
    · rw [h₂.handlers_kept e h2]
      exact h₁.handlers_gone e ((List.mem_append.mp he).resolve_right h2) hlt
  handlers_kept := by
    intro e he
    obtain ⟨h1, h2⟩ := not_or.mp (fun h => he (List.mem_append.mpr h))
    rw [h₂.handlers_kept e h2, h₁.handlers_kept e h1]
  mappings_size := h₂.mappings_size.trans h₁.mappings_size
  mappings_gone := by
    intro e he m hkbuf hlt
    by_cases hlater : ∃ x ∈ gone₂, Device.poolKbuf (d₁.rch x).rchReturn = some (.mapping m)
    · obtain ⟨x, hx, hm⟩ := hlater
      exact h₂.mappings_gone x hx m hm (h₁.mappings_size ▸ hlt)
    · have hkept := h₂.mappings_kept m (fun x hx hm => hlater ⟨x, hx, hm⟩)
      have h1 : e ∈ gone₁ := by
        apply (List.mem_append.mp he).resolve_right
        intro h2
        exact hlater ⟨e, h2, (h₁.poolKbuf e).trans hkbuf⟩
      rw [hkept]
      exact h₁.mappings_gone e h1 m hkbuf hlt
  mappings_kept := by
    intro m hm
    have hm₂ : ∀ e ∈ gone₂, Device.poolKbuf (d₁.rch e).rchReturn ≠ some (.mapping m) := by
      intro e he
      rw [h₁.poolKbuf e]
      exact hm e (List.mem_append_right gone₁ he)
    rw [h₂.mappings_kept m hm₂]
    exact h₁.mappings_kept m (fun e he => hm e (List.mem_append_left gone₂ he))

end Unlinked

/-! ## The loop -/

section Loop

variable {d d₁ d' : Device} {e path : Nat} {t : Tag} {rest : List Nat}

theorem mem_closing : e ∈ closing path d ↔ e ∈ d.list ∧ (d.rch e).path = some path := by
  unfold closing
  rw [List.mem_filter, beq_iff_eq]

theorem cleanupRch_eq (path : Nat) (d : Device) :
    d.cleanupRch path = (closing path d).head? := by
  unfold cleanupRch closing
  rw [List.head?_filter]

/-- A round takes its handler, and no other, from the handlers of the path. -/
theorem closing_of_unlinked (hnodup : (closing path d).Nodup)
    (hclosing : closing path d = e :: rest) (h : Unlinked [e] d d₁) :
    closing path d₁ = rest := by
  have hsame : closing path d₁ = (closing path d).filter (· ∉ [e]) := by
    unfold closing
    rw [h.list, List.filter_filter, List.filter_filter]
    apply List.filter_congr
    intro x _
    by_cases hx : x ∈ [e]
    · simp [hx]
    · rw [h.rch_kept x hx, Bool.and_comm]
  rw [hclosing, List.nodup_cons] at hnodup
  rw [hsame, hclosing, List.filter_cons]
  simp only [List.mem_singleton, not_true_eq_false, decide_false, Bool.false_eq_true,
    if_false]
  apply List.filter_eq_self.mpr
  intro x hx
  have hne : x ≠ e := fun heq => hnodup.1 (heq ▸ hx)
  simpa using hne

/-- The cleanup ends after as many rounds as the path has handlers, and has
unlinked these. -/
theorem cleanup_unlinks (path : Nat) (h : RchList d) :
    ∃ d', (∀ rounds ≥ (closing path d).length,
        cleanupOnBridgeRelease path rounds d = some d') ∧
      Unlinked (closing path d) d d' := by
  induction hclosing : closing path d generalizing d with
  | nil =>
    refine ⟨d, ?_, Unlinked.refl d⟩
    intro rounds _
    cases rounds with
    | zero => rfl
    | succ rounds =>
      rw [cleanupOnBridgeRelease, cleanupRch_eq, hclosing]
      rfl
  | cons e rest ih =>
    have hmem : e ∈ closing path d := hclosing ▸ List.mem_cons_self
    obtain ⟨hlinked, hpath⟩ := mem_closing.mp hmem
    obtain ⟨d₁, hrec⟩ : ∃ d₁, d.i2oRecycleRch e (d.rch e).request = some d₁ :=
      recycle_isSome.mpr ⟨Or.inr hlinked, h.built e (Option.isSome_of_mem hpath)⟩
    have hone : Unlinked [e] d d₁ :=
      recycle_unlinked h.nodup (Option.isSome_of_mem hpath) hrec
    have hrest : closing path d₁ = rest :=
      closing_of_unlinked (h.nodup.filter _) hclosing hone
    obtain ⟨d', hruns, hunlinked⟩ := ih (h.recycle hrec) hrest
    refine ⟨d', ?_, hone.trans hunlinked⟩
    intro rounds hrounds
    cases rounds with
    | zero => exact absurd hrounds (Nat.not_succ_le_zero _)
    | succ rounds =>
      rw [cleanupOnBridgeRelease, cleanupRch_eq, hclosing]
      show (d.i2oRecycleRch e (d.rch e).request).bind _ = _
      rw [hrec]
      exact hruns rounds (Nat.le_of_succ_le_succ hrounds)

/-- A round leaves fewer handlers of the path, also on a list with duplicates. -/
theorem closing_lt (hlinked : e ∈ closing path d)
    (h : d.i2oRecycleRch e t = some d₁) :
    (closing path d₁).length < (closing path d).length := by
  obtain ⟨-, hpath⟩ := mem_closing.mp hlinked
  have hrec := recycled h
  have hle : (closing path d₁).length ≤
      ((d.list.erase e).filter fun x => (d.rch x).path == some path).length := by
    unfold closing
    rw [hrec.list, if_pos (Option.isSome_of_mem hpath), ← List.countP_eq_length_filter,
      ← List.countP_eq_length_filter]
    apply List.countP_mono_left
    intro x _ hx
    have hne : x ≠ e := by
      intro heq
      rw [heq, hrec.path] at hx
      exact absurd hx Bool.false_ne_true
    rw [(hrec.keeps x hne).1] at hx
    exact hx
  have hpos : 0 < (closing path d).length := List.length_pos_of_mem hlinked
  rw [← List.erase_filter] at hle
  change (closing path d₁).length ≤ ((closing path d).erase e).length at hle
  rw [List.length_erase_of_mem hlinked] at hle
  omega

/-- Whatever the list is, a cleanup that has enough rounds leaves no handler of
the path on it. -/
theorem cleanup_clears {rounds : Nat} (hrounds : (closing path d).length ≤ rounds)
    (h : cleanupOnBridgeRelease path rounds d = some d') : closing path d' = [] := by
  induction rounds generalizing d with
  | zero =>
    obtain rfl : d = d' := Option.some.inj h
    exact List.eq_nil_of_length_eq_zero (Nat.le_zero.mp hrounds)
  | succ rounds ih =>
    rw [cleanupOnBridgeRelease, cleanupRch_eq] at h
    cases hclosing : closing path d with
    | nil =>
      rw [hclosing] at h
      obtain rfl : d = d' := Option.some.inj h
      exact hclosing
    | cons e rest =>
      rw [hclosing] at h
      obtain ⟨d₁, hrec, hrest⟩ := Option.bind_eq_some_iff.mp h
      have hlt := closing_lt (hclosing ▸ List.mem_cons_self : e ∈ closing path d) hrec
      exact ih (by omega) hrest

end Loop

/-! ## The release -/

/-- `acq200_bridge_release_generic`, after a transfer in this direction or
none. -/
def bridgeReleaseGeneric (file : File) (hrdCode : BitVec 16) (d : Device)
    (lastDirection : Option Direction) (env : Env) : Outcome :=
  match lastDirection with
  | some .outbound =>
    bridgeReleaseMessage file d
      (buildOutgoingRawMessage file 0 0 0 (hrdCode ||| HRD_CHAN_EOF)) env
  | some .inbound =>
    bridgeReleaseMessage file d
      (buildIncomingRawMessage file 0 0 0 (hrdCode ||| HRD_CHAN_EOF)) env
  | none =>
    match cleanupOnBridgeRelease file.path d.list.length d with
    | none => Outcome.early none d 0
    | some d => Outcome.early (some 0) d 0

theorem bridgeRelease_eq (file : File) (d : Device) (direction : Direction) (env : Env) :
    bridgeRelease file d direction env =
      bridgeReleaseGeneric file HRD_CHAN_IS_FILE d (some direction) env := by
  cases direction <;> rfl

theorem closing_length_le (path : Nat) (d : Device) :
    (closing path d).length ≤ d.list.length := by
  unfold closing
  exact List.length_filter_le _ _

theorem releaseMessage_clears (file : File) (d : Device) (message : HostRequest) (env : Env)
    {rc : Int} (h : (bridgeReleaseMessage file d message env).rc = some rc) :
    closing file.path (bridgeReleaseMessage file d message env).device = [] := by
  generalize hout : bridgeReleaseMessage file d message env = out at h ⊢
  unfold bridgeReleaseMessage at hout
  split at hout
  · rw [← hout] at h
    cases h
  · simp only at hout
    split at hout
    · rw [← hout] at h
      cases h
    · split at hout
      · rw [← hout] at h
        cases h
      · split at hout
        · rw [← hout] at h
          cases h
        · rename_i d₂ hcleanup
          obtain ⟨d₁, -, hrounds⟩ := Option.bind_eq_some_iff.mp hcleanup
          rw [← hout]
          exact cleanup_clears (closing_length_le file.path d₁) hrounds

/-- When a release returns, no linked handler refers to the path. -/
theorem release_clears (file : File) (hrdCode : BitVec 16) (d : Device)
    (lastDirection : Option Direction) (env : Env) {rc : Int}
    (h : (bridgeReleaseGeneric file hrdCode d lastDirection env).rc = some rc) :
    closing file.path (bridgeReleaseGeneric file hrdCode d lastDirection env).device = [] := by
  cases lastDirection with
  | some direction =>
    cases direction with
    | outbound => exact releaseMessage_clears file d _ env h
    | inbound => exact releaseMessage_clears file d _ env h
  | none =>
    generalize hout : bridgeReleaseGeneric file hrdCode d none env = out at h ⊢
    unfold bridgeReleaseGeneric at hout
    simp only at hout
    split at hout
    · rw [← hout] at h
      cases h
    · rename_i d' hcleanup
      rw [← hout]
      exact cleanup_clears (closing_length_le file.path d) hcleanup

section Returns

variable {file : File} {d d' : Device} {e path : Nat} {t : Tag} {env : Env} {rc : Int}

theorem RchList.post {handler : Handler} {kbuf : Option Kbuf} {flags : Nat} {mfa : Bool}
    (h : RchList d) (hpost : postRequest d e handler path kbuf flags t mfa = some (d', rc)) :
    RchList d' := by
  obtain ⟨d₁, happend, hsend⟩ := Option.map_eq_some_iff.mp hpost
  have hbuilt : RchList d₁ := (h.setRch fun _ => rfl).append happend
  cases mfa <;> cases hsend <;> exact hbuilt.of_eq rfl rfl

/-- The wait of a release ends, and if the reply has come the handler can be recycled once
more. -/
theorem afterWait_last (hlist : RchList d')
    (hreq : Requested d d' e .handleLastMessage path none RCH_KB_POOL t env.mfa rc) :
    ∃ d₁, afterWait d' e .handleLastMessage env = some d₁ ∧ RchList d₁ ∧
      ((d₁.rch e).rchReturn.valid = 1 → ∃ d₂, d₁.i2oRecycleRch e t = some d₂) := by
  by_cases hsignal : env.mfa = false ∨ env.reply = none
  · refine ⟨d', afterWait_signal hsignal, hlist, fun hvalid => ?_⟩
    rw [hreq.rch] at hvalid
    exact absurd hvalid Int.zero_ne_one
  · obtain ⟨hmfa, hreply⟩ := not_or.mp hsignal
    obtain ⟨⟨start, nsamples⟩, hreply⟩ := Option.ne_none_iff_exists'.mp hreply
    have hwait : afterWait d' e .handleLastMessage env
        = d'.handle e start nsamples .handleLastMessage := by
      rw [afterWait, Bool.eq_true_of_not_eq_false hmfa, hreply]
    -- The handler sets the flag and recycles itself.
    obtain ⟨d₀, hd₀⟩ : ∃ d₀, d₀ = d'.setRch e { d'.rch e with
        rchReturn := { (d'.rch e).rchReturn with valid := 1 } } := ⟨_, rfl⟩
    have hrch : d₀.rch e = { d'.rch e with
        rchReturn := { (d'.rch e).rchReturn with valid := 1 } } := by
      rw [hd₀, setRch_rch_self]
    have hpath : (d₀.rch e).path.isSome = true := by
      rw [hrch, hreq.rch]
      rfl
    have hdevice : (d₀.rch e).device = true := by
      rw [hrch, hreq.rch]
    have hmem : e ∈ d₀.list := by
      rw [hd₀]
      show e ∈ d'.list
      rw [hreq.list]
      exact List.mem_append_right _ List.mem_cons_self
    obtain ⟨d₁, hrec⟩ : ∃ d₁, d₀.i2oRecycleRch e (d₀.rch e).request = some d₁ :=
      recycle_isSome.mpr ⟨Or.inr hmem, hdevice⟩
    have hhandle : d'.handle e start nsamples .handleLastMessage = some d₁ := by
      simp only [Device.handle]
      rw [← hd₀, if_pos hpath, hrec]
    refine ⟨d₁, hwait.trans hhandle, hlist.handle hhandle, fun _ => ?_⟩
    refine recycle_isSome.mpr ⟨Or.inl (recycled hrec).path, ?_⟩
    rw [recycle_rch hpath hrec]
    exact hdevice

/-- A release that sends a last message returns if the pool gives it a handler that is not
linked, and only then. -/
theorem releaseMessage_returns_iff (h : RchList d) (message : HostRequest) :
    (bridgeReleaseMessage file d message env).rc = some 0 ↔
      ∃ e, allocAlone d.handlers = some e ∧ e ∉ d.list := by
  unfold bridgeReleaseMessage
  cases halloc : allocAlone d.handlers with
  | none => exact iff_of_false (fun hrc => by cases hrc) (fun ⟨_, he, _⟩ => by cases he)
  | some e =>
    dsimp only
    cases hpost : postRequest (d.poolAllocRch e file.path) e .handleLastMessage file.path none
        RCH_KB_POOL ⟨file.path, d.allocs⟩ env.mfa with
    | none =>
      have hlinked : e ∈ (d.poolAllocRch e file.path).list := postRequest_eq_none.mp hpost
      refine iff_of_false (fun hrc => by cases hrc) ?_
      rintro ⟨_, he, hfresh⟩
      rw [← Option.some.inj he] at hfresh
      exact hfresh hlinked
    | some posted =>
      obtain ⟨d₁, sendRc⟩ := posted
      have hreq := requested hpost
      have hlist : RchList d₁ := (h.of_eq rfl rfl : RchList (d.poolAllocRch e file.path)).post hpost
      obtain ⟨d₂, hwait, hlist₂, hagain⟩ := afterWait_last hlist hreq
      refine iff_of_true ?_ ⟨e, rfl, hreq.fresh⟩
      dsimp only
      rw [hwait]
      dsimp only
      obtain ⟨d₃, hended, hlist₃⟩ : ∃ d₃,
          (if (d₂.rch e).rchReturn.valid = 1 then d₂.i2oRecycleRch e ⟨file.path, d.allocs⟩
            else some d₂) = some d₃ ∧ RchList d₃ := by
        by_cases hvalid : (d₂.rch e).rchReturn.valid = 1
        · obtain ⟨d₃, hrec⟩ := hagain hvalid
          exact ⟨d₃, (if_pos hvalid).trans hrec, hlist₂.recycle hrec⟩
        · exact ⟨d₂, if_neg hvalid, hlist₂⟩
      obtain ⟨d₄, hruns, _⟩ := cleanup_unlinks file.path hlist₃
      have hcleanup := hruns d₃.list.length (closing_length_le file.path d₃)
      rw [hended, Option.bind_some, hcleanup]

/-- When a release returns. -/
theorem release_returns_iff (h : RchList d) (hrdCode : BitVec 16)
    (lastDirection : Option Direction) :
    (bridgeReleaseGeneric file hrdCode d lastDirection env).rc = some 0 ↔
      (lastDirection ≠ none → ∃ e, allocAlone d.handlers = some e ∧ e ∉ d.list) := by
  cases lastDirection with
  | some direction =>
    rw [forall_prop_of_true (Option.some_ne_none direction)]
    cases direction with
    | outbound => exact releaseMessage_returns_iff h _
    | inbound => exact releaseMessage_returns_iff h _
  | none =>
    obtain ⟨d', hruns, _⟩ := cleanup_unlinks file.path h
    have hcleanup := hruns d.list.length (closing_length_le file.path d)
    refine iff_of_true ?_ fun hne => absurd rfl hne
    unfold bridgeReleaseGeneric
    dsimp only
    rw [hcleanup]
    rfl

end Returns

/-- The same with other clients and the card at work between the statements:
a client closes its file only when no linked handler refers to its path. -/
theorem closed_clears {s s' : Sys} {c : Nat} (hpc : (s.clients c).pc = .cleanup)
    (h : s.goRelease c .cleanup = some s') (hclosed : (s'.clients c).pc = .closed) :
    closing c s'.dev = [] := by
  simp only [Sys.goRelease] at h
  split at h
  · obtain rfl := Option.some.inj h
    have hstays : ∀ r : Option Device, ((s.orOops r fun d => { s with dev := d }).clients c).pc
        = .cleanup := by
      intro r
      cases r with
      | none => exact hpc
      | some d => exact hpc
    rw [hstays] at hclosed
    cases hclosed
  · rename_i hnone
    obtain rfl := Option.some.inj h
    rw [cleanupRch_eq, List.head?_eq_none_iff] at hnone
    exact hnone

/-! ## Every close -/

/-- What a cleanup for the path leaves of the device. -/
structure Cleaned (path : Nat) (d d' : Device) : Prop where
  list : d'.list = d.list.filter fun e => (d.rch e).path ≠ some path
  unlinked : Unlinked (d.list.filter fun e => (d.rch e).path = some path) d d'

/-- The cleanup ends and takes exactly the handlers of the path off the list with
their reservations.  A release returns if it sends no message or gets a handler for it, and
no release returns before the cleanup is done. -/
theorem cleanup_precise {d : Device} (h : RchList d) (path : Nat) :
    (∃ d', (∀ rounds ≥ d.list.length, cleanupOnBridgeRelease path rounds d = some d') ∧
      Cleaned path d d') ∧
    (∀ (file : File) (hrdCode : BitVec 16) (lastDirection : Option Direction) (env : Env)
      (rc : Int), file.path = path →
      (bridgeReleaseGeneric file hrdCode d lastDirection env).rc = some rc →
      closing path (bridgeReleaseGeneric file hrdCode d lastDirection env).device = []) ∧
    (∀ (file : File) (hrdCode : BitVec 16) (lastDirection : Option Direction) (env : Env),
      (bridgeReleaseGeneric file hrdCode d lastDirection env).rc = some 0 ↔
        (lastDirection ≠ none → ∃ e, allocAlone d.handlers = some e ∧ e ∉ d.list)) ∧
    ∀ s s' : Sys, s.dev = d → (s.clients path).pc = .cleanup →
      s.goRelease path .cleanup = some s' → (s'.clients path).pc = .closed →
      closing path s'.dev = [] := by
  have hclosing : closing path d = d.list.filter fun e => (d.rch e).path = some path := by
    unfold closing
    apply List.filter_congr
    intro e _
    exact Bool.beq_eq_decide_eq _ _
  refine ⟨?_, ?_, fun _ hrdCode lastDirection _ => release_returns_iff h hrdCode lastDirection,
    fun s s' _ => closed_clears⟩
  · obtain ⟨d', hruns, hunlinked⟩ := cleanup_unlinks path h
    refine ⟨d', ?_, ?_, hclosing ▸ hunlinked⟩
    · intro rounds hrounds
      exact hruns rounds ((closing_length_le path d).trans hrounds)
    · rw [hunlinked.list]
      apply List.filter_congr
      intro e he
      have hiff : e ∈ closing path d ↔ (d.rch e).path = some path := by
        rw [mem_closing]
        exact and_iff_right he
      simp [hiff]
  · intro file hrdCode lastDirection env rc hpath hrc
    rw [← hpath]
    exact release_clears file hrdCode d lastDirection env hrc

/-- Three linked handlers, 1 and 3 of path 1 and 2 of path 0.  Handler 3 has a
mapping. -/
def threeLinked : Device :=
  { poolCreate 0#16 with
    list := [3, 2, 1]
    rch := fun e =>
      { clearedRch with
        path := some (e % 2)
        device := true
        rchReturn := ⟨0, 0#32, 0#32, if e = 3 then some (.mapping 0) else none, RCH_KB_POOL⟩ }
    handlers := ⟨NHANDLERS, fun e => e == 1 || e == 2 || e == 3, 3⟩
    mappings := ⟨NMAPPINGS, fun m => m == 0 || m == MSG_MAPPING, 0⟩ }

theorem threeLinked_cleaned :
    ∃ d', (∀ rounds ≥ 3, cleanupOnBridgeRelease 1 rounds threeLinked = some d') ∧
      Cleaned 1 threeLinked d' := by
  have hlist : RchList threeLinked := ⟨by decide, fun _ _ => rfl⟩
  exact (cleanup_precise hlist 1).1

end Acq200.Bridge
