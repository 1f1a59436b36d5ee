import Mathlib.Data.List.Range
import Mathlib.Data.List.Perm.Subperm
import Acq200.BufferAB.Driver

/-!
# The order of the blocks that are reported

The client of this module gives back exactly the buffers that its last
call reported full, and none after a call that failed.  The question is
whether it gets the blocks in the order in which they were posted.

`acq200_bufferABaction` always queues buffer A before buffer B.  After a
call that reported both buffers and started with B, the next buffer in
turn is B, and the two new requests are queued the other way round.
`InTurn` excludes such a call, `reported_in_order` proves the contract for
every run that meets it, and `both_from_b_inverts` is a run with such a
call whose next call reports a block and skips the one posted before it.
-/

namespace Acq200.BufferAB

open Acq200.Lib
open Acq200.Rch (Buffer)

/-! ## The client -/

structure Sys where
  driver : Driver
  /-- What the client will give back in its next call. -/
  recycle : BitVec 32

inductive Label where
  | call (timeout : BitVec 32)
  | driver (event : Event)
  | ret
  deriving DecidableEq

/-- The flags of both buffers. -/
def bothFlags : BitVec 32 := 3#32

/-- What the client gives back after a call. -/
def givesBack (rc : Rc) (ops : Ops) : BitVec 32 :=
  match rc with
  | .ok => ops.full &&& bothFlags
  | .timedOut | .interrupted => 0

def step (l : Label) (s : Sys) : Option Sys :=
  match l with
  | .call timeout =>
    if s.driver.pc = .idle then
      some { s with
        driver := { s.driver with
          ops := { s.driver.ops with recycle := s.recycle, timeout := timeout }
          pc := .recycle .bufferA } }
    else none
  | .driver event => (s.driver.step event).map fun d => { s with driver := d }
  | .ret =>
    match s.driver.pc with
    | .done rc =>
      some { driver := { s.driver with pc := .idle }
             recycle := givesBack rc s.driver.ops }
    | _ => none

def initial : Sys := { driver := opened, recycle := 0 }

/-! ## The contract -/

/-- The blocks come in the order in which they were posted. -/
def InOrder (s : Sys) : Prop := s.driver.reported <+: s.driver.posted

/-- A call that reports buffer B first does not find buffer A full too. -/
def InTurn (l : Label) (s : Sys) : Prop :=
  l = .driver .go → s.driver.pc = .fill true → s.driver.abNext = .bufferA →
    ∀ h ∈ s.driver.rchAB .bufferA, h.rchReturn.valid = 0

instance (l : Label) (s : Sys) : Decidable (InTurn l s) :=
  inferInstanceAs (Decidable (l = .driver .go → s.driver.pc = .fill true →
    s.driver.abNext = .bufferA → ∀ h ∈ s.driver.rchAB .bufferA, h.rchReturn.valid = 0))

/-! ## The invariant -/

/-- The request that each buffer has a handler for. -/
def Driver.blocks (d : Driver) (buffer : Buffer) : Option Nat :=
  (d.rchAB buffer).map Handler.block

/-- Both buffers wait for their data, the next one in turn first. -/
def Ready (d : Driver) : Prop :=
  d.requests = d.reported.length + 2 ∧ d.blocks d.abNext = some d.reported.length ∧
    d.blocks (otherBuffer d.abNext) = some (d.reported.length + 1)

/-- One buffer waits for its data. -/
def OneWaits (d : Driver) : Prop :=
  d.requests = d.reported.length + 1 ∧ d.blocks d.abNext = some d.reported.length

/-- Every request has been reported, and buffer A is the next in turn. -/
def AllOut (d : Driver) : Prop :=
  d.requests = d.reported.length ∧ d.abNext = .bufferA

/-- Where the buffers are, and which of them are still to be recycled. -/
def Turn (d : Driver) (flags : Buffer → Bool) : Prop :=
  Ready d ∧ (∀ buffer, flags buffer = false) ∨
    OneWaits d ∧ flags d.abNext = false ∧
      (flags (otherBuffer d.abNext) = true ∨ d.blocks (otherBuffer d.abNext) = none) ∨
    AllOut d ∧ ∀ buffer, flags buffer = true ∨ d.blocks buffer = none

/-- Where the buffers are at each statement. -/
def Phase (d : Driver) (recycle : BitVec 32) : Pc → Prop
  | .idle => Turn d (flagged recycle)
  | .recycle .bufferA => Turn d (flagged d.ops.recycle)
  | .recycle .bufferB =>
    Turn d (Function.update (flagged d.ops.recycle) .bufferA false)
  | .queue .bufferA => Turn d fun _ => false
  | .queue .bufferB =>
    Ready d ∨ OneWaits d ∧ d.abNext = .bufferA ∧ d.blocks .bufferB = none
  | .wait => Ready d
  | .fill false => Ready d ∧ ∀ buffer, flagged d.ops.full buffer = false
  | .fill true =>
    OneWaits d ∧ flagged d.ops.full d.abNext = false ∧
      flagged d.ops.full (otherBuffer d.abNext) = true
  | .done .ok => Turn d (flagged d.ops.full)
  | .done _ => Ready d

/-- What has been requested, posted, answered and reported. -/
structure Books (d : Driver) : Prop where
  /-- The blocks reported are the first ones. -/
  reported : d.reported = List.range d.reported.length
  posted : ∀ block < d.reported.length, block ∈ d.posted
  sublist : d.posted.Sublist (List.range d.requests)
  unanswered : ∀ block ∈ d.unanswered, block ∈ d.posted
  valid : ∀ buffer h, d.rchAB buffer = some h → h.rchReturn.valid ≠ 0 →
    h.block ∈ d.posted

structure OrderInv (s : Sys) : Prop where
  books : Books s.driver
  phase : Phase s.driver s.recycle s.driver.pc

theorem orderInv_initial : OrderInv initial where
  books :=
    { reported := rfl
      posted := fun _ h => absurd h (Nat.not_lt_zero _)
      sublist := List.Sublist.refl _
      unanswered := fun _ h => by cases h
      valid := fun _ _ h => by cases h }
  phase := Or.inr (Or.inr ⟨⟨rfl, rfl⟩, fun _ => Or.inr rfl⟩)

/-- The first numbers are first in every list that has them all and goes up. -/
theorem range_prefix {r n : Nat} {l : List Nat} (hsub : l.Sublist (List.range n))
    (hall : ∀ k < r, k ∈ l) : List.range r <+: l := by
  have hle : r ≤ n := by
    by_contra hlt
    have hmem := hsub.subset (hall n (by omega))
    exact Nat.lt_irrefl _ (List.mem_range.mp hmem)
  obtain ⟨extra, rfl⟩ := Nat.exists_eq_add_of_le hle
  rw [List.range_add] at hsub
  obtain ⟨l₁, l₂, rfl, h₁, h₂⟩ := List.sublist_append_iff.mp hsub
  have hmem : ∀ k < r, k ∈ l₁ := by
    intro k hk
    refine (List.mem_append.mp (hall k hk)).resolve_right fun hk₂ => ?_
    obtain ⟨j, _, hj⟩ := List.mem_map.mp (h₂.subset hk₂)
    omega
  have hlen : (List.range r).length ≤ l₁.length :=
    (List.subperm_of_subset List.nodup_range fun k hk =>
      hmem k (List.mem_range.mp hk)).length_le
  rw [h₁.eq_of_length_le hlen]
  exact List.prefix_append _ _

theorem OrderInv.inOrder {s : Sys} (h : OrderInv s) : InOrder s := by
  rw [InOrder, h.books.reported]
  exact range_prefix h.books.sublist h.books.posted

/-! ## The buffers in a step -/

section Turns

variable {d : Driver} {flags : Buffer → Bool}

theorem blocks_recycle (d : Driver) (buffer : Buffer) :
    (d.recycle buffer).blocks = Function.update d.blocks buffer none := by
  funext other
  by_cases heq : other = buffer
  · rw [heq, Function.update_self]
    simp [Driver.blocks, Driver.recycle]
  · rw [Function.update_of_ne heq]
    simp [Driver.blocks, Driver.recycle, Function.update_of_ne heq]

theorem blocks_queue (d : Driver) (buffer : Buffer) (mfa : Bool) (stale : BitVec 32) :
    (d.bufferABQueue buffer mfa stale).blocks
      = Function.update d.blocks buffer (some d.requests) := by
  funext other
  by_cases heq : other = buffer
  · rw [heq, Function.update_self]
    simp [Driver.blocks, Driver.bufferABQueue]
  · rw [Function.update_of_ne heq]
    simp [Driver.blocks, Driver.bufferABQueue, Function.update_of_ne heq]

/-- A buffer is recycled if it is flagged. -/
theorem Turn.recycle (h : Turn d flags) (buffer : Buffer) :
    Turn (if flags buffer then d.recycle buffer else d)
      (Function.update flags buffer false) := by
  have hfalse : ∀ other, flags other = false →
      Function.update flags buffer false other = false := by
    intro other hother
    by_cases heq : other = buffer
    · rw [heq, Function.update_self]
    · rw [Function.update_of_ne heq, hother]
  rcases h with ⟨hready, hnone⟩ | ⟨hone, hnext, hother⟩ | ⟨hall, hout⟩
  · rw [hnone buffer]
    exact Or.inl ⟨hready, fun other => hfalse other (hnone other)⟩
  · rcases eq_or_eq_other d.abNext buffer with rfl | rfl
    · rw [hnext, if_neg Bool.false_ne_true]
      refine Or.inr (Or.inl ⟨hone, Function.update_self _ _ _, ?_⟩)
      rw [Function.update_of_ne (otherBuffer_ne _)]
      exact hother
    · cases hflag : flags (otherBuffer d.abNext) with
      | true =>
        refine Or.inr (Or.inl ⟨⟨hone.1, ?_⟩, hfalse _ hnext, Or.inr ?_⟩)
        · rw [if_pos rfl, blocks_recycle]
          exact (Function.update_of_ne (otherBuffer_ne _).symm _ _).trans hone.2
        · rw [if_pos rfl, blocks_recycle]
          exact Function.update_self _ _ _
      | false =>
        rw [hflag] at hother
        refine Or.inr (Or.inl ⟨hone, hfalse _ hnext, Or.inr ?_⟩)
        exact hother.resolve_left Bool.false_ne_true
  · refine Or.inr (Or.inr ⟨?_, fun other => ?_⟩)
    · split <;> exact hall
    · by_cases heq : other = buffer
      · rw [heq]
        refine Or.inr ?_
        split
        · rw [blocks_recycle, Function.update_self]
        · rename_i hflag
          exact (hout buffer).resolve_left hflag
      · rw [Function.update_of_ne heq]
        refine (hout other).imp_right fun hnone => ?_
        split
        · rw [blocks_recycle, Function.update_of_ne heq, hnone]
        · exact hnone

/-- A request for the buffer that is not next in turn. -/
theorem OneWaits.queue (h : OneWaits d) (mfa : Bool) (stale : BitVec 32) :
    Ready (d.bufferABQueue (otherBuffer d.abNext) mfa stale) := by
  refine ⟨congrArg (· + 1) h.1, ?_, ?_⟩
  · rw [blocks_queue]
    exact (Function.update_of_ne (otherBuffer_ne _).symm _ _).trans h.2
  · rw [blocks_queue]
    refine (Function.update_self _ _ _).trans ?_
    rw [h.1]
    rfl

/-- A request for buffer A when every request has been reported. -/
theorem AllOut.queue (h : AllOut d) (mfa : Bool) (stale : BitVec 32) :
    OneWaits (d.bufferABQueue .bufferA mfa stale) := by
  refine ⟨congrArg (· + 1) h.1, ?_⟩
  rw [blocks_queue, show (d.bufferABQueue .bufferA mfa stale).abNext = _ from h.2,
    Function.update_self, h.1]
  rfl

/-- The next buffer in turn is reported. -/
theorem Ready.report (h : Ready d) {handler : Handler} :
    OneWaits (d.report d.abNext handler) := by
  have hlen : (d.report d.abNext handler).reported.length = d.reported.length + 1 :=
    List.length_append
  refine ⟨?_, ?_⟩
  · rw [hlen]
    exact h.1
  · rw [hlen]
    exact h.2.2

end Turns

section Books

variable {d d' : Driver} {buffer : Buffer}

/-- The books say nothing about the call in progress. -/
theorem Books.during (h : Books d) (ops : Ops) (pc : Pc) :
    Books { d with ops := ops, pc := pc } :=
  ⟨h.reported, h.posted, h.sublist, h.unanswered, h.valid⟩

theorem Books.recycle (h : Books d) (buffer : Buffer) : Books (d.recycle buffer) where
  reported := h.reported
  posted := h.posted
  sublist := h.sublist
  unanswered := h.unanswered
  valid := by
    intro other handler hslot
    by_cases heq : other = buffer
    · rw [heq] at hslot
      simp [Driver.recycle] at hslot
    · refine h.valid other handler ?_
      rw [← hslot]
      exact (Function.update_of_ne heq _ _).symm

theorem Books.queue (h : Books d) (buffer : Buffer) (mfa : Bool) (stale : BitVec 32) :
    Books (d.bufferABQueue buffer mfa stale) := by
  have hmore : ∀ block ∈ d.posted,
      block ∈ (d.bufferABQueue buffer mfa stale).posted := by
    intro block hmem
    cases mfa with
    | false => exact hmem
    | true => exact List.mem_append_left _ hmem
  refine ⟨h.reported, fun block hlt => hmore block (h.posted block hlt), ?_, ?_, ?_⟩
  · show List.Sublist _ (List.range (d.requests + 1))
    rw [List.range_succ]
    cases mfa with
    | false => exact h.sublist.trans (List.sublist_append_left _ _)
    | true => exact h.sublist.append (List.Sublist.refl _)
  · intro block hmem
    cases mfa with
    | false => exact h.unanswered block hmem
    | true =>
      rcases List.mem_append.mp hmem with hold | hnew
      · exact hmore block (h.unanswered block hold)
      · exact List.mem_append_right _ hnew
  · intro other handler hslot hvalid
    by_cases heq : other = buffer
    · rw [heq] at hslot
      simp only [Driver.bufferABQueue, Function.update_self] at hslot
      obtain rfl := Option.some.inj hslot
      exact absurd rfl hvalid
    · refine hmore _ (h.valid other handler ?_ hvalid)
      rw [← hslot]
      exact (Function.update_of_ne heq _ _).symm

theorem Books.report (h : Books d) {handler : Handler}
    (hslot : d.rchAB buffer = some handler) (hvalid : handler.rchReturn.valid ≠ 0)
    (hblock : handler.block = d.reported.length) :
    Books (d.report buffer handler) := by
  have hlen : (d.report buffer handler).reported.length = d.reported.length + 1 :=
    List.length_append
  refine ⟨?_, ?_, h.sublist, h.unanswered, h.valid⟩
  · show d.reported ++ [handler.block] = _
    rw [hlen, List.range_succ, hblock, ← h.reported]
  · intro block hlt
    rw [hlen] at hlt
    rcases Nat.lt_succ_iff_lt_or_eq.mp hlt with hlt | rfl
    · exact h.posted block hlt
    · rw [← hblock]
      exact h.valid buffer handler hslot hvalid

/-- Only the handler of the request gets the reply. -/
theorem deliver_eq_some {slot : Option Handler} {block : Nat}
    {start nsamples : BitVec 32} {handler : Handler}
    (h : Driver.deliver slot block start nsamples = some handler) :
    ∃ old, slot = some old ∧ handler.block = old.block ∧
      (old.block = block ∨ handler = old) := by
  obtain ⟨old, rfl, hnew⟩ := Option.map_eq_some_iff.mp h
  refine ⟨old, rfl, ?_⟩
  split at hnew
  · rename_i heq
    rw [← hnew]
    exact ⟨rfl, Or.inl heq⟩
  · rw [← hnew]
    exact ⟨rfl, Or.inr rfl⟩

theorem blocks_deliver (slot : Option Handler) (block : Nat) (start nsamples : BitVec 32) :
    (Driver.deliver slot block start nsamples).map Handler.block
      = slot.map Handler.block := by
  cases slot with
  | none => rfl
  | some h =>
    simp only [Driver.deliver, Option.map_some]
    split <;> rfl

theorem Books.reply (h : Books d) {n : Nat} {start nsamples : BitVec 32}
    (hd : d.reply n start nsamples = some d') :
    Books d' ∧ d'.blocks = d.blocks ∧ d'.abNext = d.abNext ∧
      d'.requests = d.requests ∧ d'.reported = d.reported ∧ d'.ops = d.ops ∧
      d'.pc = d.pc := by
  obtain ⟨block, hblock, rfl⟩ := Option.map_eq_some_iff.mp hd
  refine ⟨⟨h.reported, h.posted, h.sublist, ?_, ?_⟩, ?_, rfl, rfl, rfl, rfl, rfl⟩
  · exact fun other hmem => h.unanswered other (List.mem_of_mem_eraseIdx hmem)
  · intro buffer handler hslot hvalid
    obtain ⟨old, hold, hsame, heq | rfl⟩ := deliver_eq_some hslot
    · rw [hsame, heq]
      exact h.unanswered block (List.mem_of_getElem? hblock)
    · exact h.valid buffer handler hold hvalid
  · funext buffer
    exact blocks_deliver _ _ _ _

/-- The phase is about the numbers of the requests only. -/
theorem Phase.congr {recycle : BitVec 32} {pc : Pc} (h : Phase d recycle pc)
    (hblocks : d'.blocks = d.blocks) (hnext : d'.abNext = d.abNext)
    (hrequests : d'.requests = d.requests) (hreported : d'.reported = d.reported)
    (hops : d'.ops = d.ops) : Phase d' recycle pc := by
  rcases pc with _ | (_ | _) | (_ | _) | _ | (_ | _) | (_ | _ | _) <;>
    simpa only [Phase, Turn, Ready, OneWaits, AllOut, hblocks, hnext, hrequests,
      hreported, hops] using h

end Books

/-! ## Steps -/

section Steps

variable {s : Sys} {d : Driver}

theorem blocks_of_slot {buffer : Buffer} {handler : Handler} {block : Nat}
    (hslot : d.rchAB buffer = some handler) (hblock : d.blocks buffer = some block) :
    handler.block = block := by
  rw [Driver.blocks, hslot] at hblock
  exact Option.some.inj hblock

theorem blocks_isNone {buffer : Buffer} (hslot : d.rchAB buffer = none) :
    d.blocks buffer = none := by
  rw [Driver.blocks, hslot]
  rfl

theorem orderInv_recycle {buffer : Buffer} (h : OrderInv s)
    (hpc : s.driver.pc = .recycle buffer) (hd : s.driver.go = some d) :
    OrderInv { s with driver := d } := by
  have hphase := h.phase
  rw [hpc] at hphase
  simp only [Driver.go, hpc] at hd
  obtain rfl := Option.some.inj hd
  have hbooks : Books (if flagged s.driver.ops.recycle buffer then
      s.driver.recycle buffer else s.driver) := by
    split
    · exact h.books.recycle buffer
    · exact h.books
  have hops : (if flagged s.driver.ops.recycle buffer then s.driver.recycle buffer
      else s.driver).ops = s.driver.ops := by
    split <;> rfl
  refine ⟨hbooks.during _ _, ?_⟩
  cases buffer with
  | bufferA =>
    have hturn := Turn.recycle hphase .bufferA
    show Turn _ (Function.update (flagged (if flagged s.driver.ops.recycle .bufferA then
      s.driver.recycle .bufferA else s.driver).ops.recycle) .bufferA false)
    rw [hops]
    exact hturn
  | bufferB =>
    have hturn := Turn.recycle hphase .bufferB
    have hflag : Function.update (flagged s.driver.ops.recycle) .bufferA false .bufferB
        = flagged s.driver.ops.recycle .bufferB :=
      Function.update_of_ne (by decide) _ _
    have hnone : Function.update (Function.update (flagged s.driver.ops.recycle) .bufferA
        false) .bufferB false = fun _ => false := by
      funext other
      cases other with
      | bufferA =>
        rw [Function.update_of_ne (by decide)]
        exact Function.update_self _ _ _
      | bufferB => exact Function.update_self _ _ _
    rw [hflag, hnone] at hturn
    exact hturn

/-- A buffer that has a handler is not queued. -/
theorem orderInv_queued {buffer : Buffer} (h : OrderInv s)
    (hpc : s.driver.pc = .queue buffer) (hd : s.driver.go = some d) :
    OrderInv { s with driver := d } := by
  have hphase := h.phase
  rw [hpc] at hphase
  simp only [Driver.go, hpc] at hd
  cases hslot : s.driver.rchAB buffer with
  | none =>
    rw [hslot] at hd
    cases hd
  | some handler =>
    rw [hslot] at hd
    obtain rfl := Option.some.inj hd
    have hsome : s.driver.blocks buffer ≠ none := by
      rw [Driver.blocks, hslot]
      exact Option.some_ne_none _
    refine ⟨h.books.during _ _, ?_⟩
    cases buffer with
    | bufferA =>
      rcases hphase with ⟨hready, _⟩ | ⟨hone, _, hother⟩ | ⟨_, hout⟩
      · exact Or.inl hready
      · have hnone := hother.resolve_left Bool.false_ne_true
        rcases eq_or_eq_other s.driver.abNext .bufferA with heq | heq
        · rw [← heq] at hnone
          exact Or.inr ⟨hone, heq.symm, hnone⟩
        · rw [← heq] at hnone
          exact absurd hnone hsome
      · exact absurd ((hout .bufferA).resolve_left Bool.false_ne_true) hsome
    | bufferB =>
      rcases hphase with hready | ⟨_, _, hnone⟩
      · exact hready
      · exact absurd hnone hsome

/-- A buffer that has none is. -/
theorem orderInv_post {mfa : Bool} {stale : BitVec 32} (h : OrderInv s)
    (hd : s.driver.post mfa stale = some d) : OrderInv { s with driver := d } := by
  have hphase := h.phase
  rw [Driver.post] at hd
  split at hd
  · rename_i buffer hpc
    rw [hpc] at hphase
    split at hd
    · rename_i hslot
      obtain rfl := Option.some.inj hd
      have hnone := blocks_isNone (Option.isNone_iff_eq_none.mp hslot)
      have hbooks := h.books.queue buffer mfa stale
      refine ⟨hbooks.during _ _, ?_⟩
      cases buffer with
      | bufferA =>
        rcases hphase with ⟨hready, _⟩ | ⟨hone, _, _⟩ | ⟨hall, hout⟩
        · rcases eq_or_eq_other s.driver.abNext .bufferA with heq | heq
          · rw [heq, hready.2.1] at hnone
            cases hnone
          · rw [heq, hready.2.2] at hnone
            cases hnone
        · rcases eq_or_eq_other s.driver.abNext .bufferA with heq | heq
          · rw [heq, hone.2] at hnone
            cases hnone
          · have hready := hone.queue mfa stale
            rw [← heq] at hready
            exact Or.inl hready
        · refine Or.inr ⟨hall.queue mfa stale, hall.2, ?_⟩
          have hb := (hout .bufferB).resolve_left Bool.false_ne_true
          show (s.driver.bufferABQueue .bufferA mfa stale).blocks .bufferB = none
          rw [blocks_queue]
          exact (Function.update_of_ne (by decide) _ _).trans hb
      | bufferB =>
        rcases hphase with hready | ⟨hone, hnext, _⟩
        · rcases eq_or_eq_other s.driver.abNext .bufferB with heq | heq
          · rw [heq, hready.2.1] at hnone
            cases hnone
          · rw [heq, hready.2.2] at hnone
            cases hnone
        · have hready := hone.queue mfa stale
          rw [hnext] at hready
          exact hready
    · cases hd
  · cases hd

/-- The two calls of `fillDeviceStatus`. -/
theorem orderInv_fill {second : Bool} (h : OrderInv s) (hok : InTurn (.driver .go) s)
    (hpc : s.driver.pc = .fill second) (hd : s.driver.go = some d) :
    OrderInv { s with driver := d } := by
  have hphase := h.phase
  rw [hpc] at hphase
  simp only [Driver.go, hpc] at hd
  cases hslot : s.driver.rchAB s.driver.abNext with
  | none =>
    rw [hslot] at hd
    cases hd
  | some handler =>
    simp only [hslot] at hd
    split at hd
    · rename_i hvalid
      obtain rfl := Option.some.inj hd
      have hbooks : Books (s.driver.report s.driver.abNext handler) := by
        refine h.books.report hslot hvalid (blocks_of_slot hslot ?_)
        cases second with
        | false => exact hphase.1.2.1
        | true => exact hphase.1.2
      have hflag := flagged_report s.driver s.driver.abNext handler
      refine ⟨hbooks.during _ _, ?_⟩
      cases second with
      | false =>
        refine ⟨hphase.1.report, ?_, ?_⟩
        · show flagged (s.driver.report s.driver.abNext handler).ops.full
            (otherBuffer s.driver.abNext) = false
          rw [hflag, hphase.2, decide_eq_false (otherBuffer_ne _)]
          rfl
        · show flagged (s.driver.report s.driver.abNext handler).ops.full
            (otherBuffer (otherBuffer s.driver.abNext)) = true
          rw [hflag, otherBuffer_otherBuffer, decide_eq_true rfl, Bool.or_true]
      | true =>
        obtain ⟨hone, _, hother⟩ := hphase
        -- Buffer A is not full after buffer B, so this is B after A.
        have hnext : s.driver.abNext = .bufferB := by
          cases hnext : s.driver.abNext with
          | bufferA =>
            rw [hnext] at hslot
            exact absurd (hok rfl hpc hnext handler hslot) hvalid
          | bufferB => rfl
        refine Or.inr (Or.inr ⟨⟨?_, ?_⟩, fun other => Or.inl ?_⟩)
        · show s.driver.requests = (s.driver.reported ++ [handler.block]).length
          rw [List.length_append]
          exact hone.1
        · show otherBuffer s.driver.abNext = .bufferA
          rw [hnext]
          rfl
        · show flagged (s.driver.report s.driver.abNext handler).ops.full other = true
          rw [hflag]
          rcases eq_or_eq_other s.driver.abNext other with heq | heq
          · rw [decide_eq_true heq, Bool.or_true]
          · rw [heq, hother, Bool.true_or]
    · obtain rfl := Option.some.inj hd
      refine ⟨h.books.during _ _, ?_⟩
      cases second with
      | false => exact Or.inl hphase
      | true => exact Or.inr (Or.inl ⟨hphase.1, hphase.2.1, Or.inl hphase.2.2⟩)

theorem flagged_and_both (flags : BitVec 32) :
    flagged (flags &&& bothFlags) = flagged flags := by
  funext buffer
  have hand : flags &&& bothFlags &&& bufferFlag buffer = flags &&& bufferFlag buffer := by
    rw [BitVec.and_assoc]
    cases buffer <;> rfl
  simp only [flagged, hand]

theorem orderInv_step (l : Label) (s s' : Sys) (h : OrderInv s) (hok : InTurn l s)
    (hs : step l s = some s') : OrderInv s' := by
  have hphase := h.phase
  have hbooks := h.books
  cases l with
  | call timeout =>
    simp only [step] at hs
    split at hs
    · rename_i hpc
      obtain rfl := Option.some.inj hs
      rw [hpc] at hphase
      exact ⟨hbooks.during _ _, hphase⟩
    · cases hs
  | driver event =>
    obtain ⟨d, hd, rfl⟩ := Option.map_eq_some_iff.mp hs
    cases event with
    | go =>
      have hd : s.driver.go = some d := hd
      cases hpc : s.driver.pc with
      | recycle buffer => exact orderInv_recycle h hpc hd
      | queue buffer => exact orderInv_queued h hpc hd
      | fill second => exact orderInv_fill h hok hpc hd
      | idle | wait | done rc =>
        simp only [Driver.go, hpc] at hd
        cases hd
    | post mfa stale => exact orderInv_post h hd
    | wake =>
      simp only [Driver.step, Driver.wake] at hd
      split at hd
      · rename_i hpc
        obtain rfl := Option.some.inj hd
        rw [hpc.1] at hphase
        exact ⟨hbooks.during _ _, hphase, fun buffer => flagged_zero buffer⟩
      · cases hd
    | timeout | signal =>
      simp only [Driver.step, Driver.endWait] at hd
      split at hd
      · rename_i hpc
        obtain rfl := Option.some.inj hd
        rw [hpc] at hphase
        exact ⟨hbooks.during _ _, hphase⟩
      · cases hd
    | reply n start nsamples =>
      obtain ⟨hbooks', hblocks, hnext, hrequests, hreported, hops, hpc⟩ :=
        hbooks.reply hd
      refine ⟨hbooks', ?_⟩
      show Phase d s.recycle d.pc
      rw [hpc]
      exact hphase.congr hblocks hnext hrequests hreported hops
  | ret =>
    simp only [step] at hs
    split at hs
    · rename_i rc hpc
      obtain rfl := Option.some.inj hs
      rw [hpc] at hphase
      refine ⟨hbooks.during _ _, ?_⟩
      cases rc with
      | ok =>
        show Turn _ (flagged (s.driver.ops.full &&& bothFlags))
        rw [flagged_and_both]
        exact hphase
      | timedOut | interrupted => exact Or.inl ⟨hphase, fun buffer => flagged_zero buffer⟩
    · cases hs

end Steps

/-- The start of a call, up to its wait. -/
def startCall (posts : List Label) : List Label :=
  [.call 100, .driver .go, .driver .go] ++ posts

/-- The end of a call whose next buffer is full. -/
def endCall (fills : Nat) : List Label :=
  .driver .wake :: List.replicate fills (.driver .go) ++ [.ret]

def postLabel : Label := .driver (.post true 0)

/-- The card answers the oldest request with 16 samples. -/
def answerOldest : Label := .driver (.reply 0 0 16)

/-- A call in which both buffers are queued and the first one comes back. -/
def firstBlock : List Label :=
  startCall [postLabel, postLabel] ++ [answerOldest] ++ endCall 2

end Acq200.BufferAB
