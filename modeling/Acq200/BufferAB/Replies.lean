import Mathlib.Data.Int.ModEq
import Mathlib.Data.List.Perm.Basic
import Acq200.Bridge.Basic
import Acq200.BufferAB.Driver

/-!
# How a reply is read

A reply to a request for data has a number of samples, and 0xffffffff samples
is an error.  Two callers look at the handler after a reply:
`acq200_bridge_read_generic`, which has its own handler and tells all three
values of `valid` apart, and `acq200_bufferABaction`, which tests `valid`
for zero only.

`ReadClassifies` and `ABClassifies` say what each of them should make of a
reply.  `classified_alike_iff` gives both the same reply, with a handler entry
that may have had any earlier use, and says which replies they read as they
should.  `answeredOnce_of_run` says that the handlers of a path always have the
form which that theorem assumes.
-/

namespace Acq200.BufferAB

open Acq200.Lib
open Acq200.Rch (Buffer RchReturn Device)

/-! ## What a reply leaves in a handler -/

/-- The `start` and the `nsamples` of a reply. -/
structure Reply where
  start : BitVec 32
  nsamples : BitVec 32
  deriving DecidableEq

def Reply.IsError (r : Reply) : Prop := r.nsamples = 0xffffffff#32

instance (r : Reply) : Decidable r.IsError :=
  inferInstanceAs (Decidable (r.nsamples = 0xffffffff#32))

/-- The return of a handler that `buildRch` has set up on an entry which held
`old`, and that has got a reply since. -/
def answered (old : RchReturn) : Option Reply → RchReturn
  | none => Driver.builtReturn old.startId
  | some r => Device.setSamples (Driver.builtReturn old.startId) r.start r.nsamples

/-- `buildRch` leaves only `start_id` of the earlier use. -/
theorem buildRch_rchReturn (d : Device) (e : Nat) (handler : Rch.Handler) (path : Nat)
    (t : Rch.Tag) :
    ((d.buildRch e handler path (some .other) 0 t).rch e).rchReturn
      = answered (d.rch e).rchReturn none := by
  simp [Device.buildRch, Device.setRch, answered, Driver.builtReturn]

theorem answered_error (old : RchReturn) {r : Reply} (h : r.IsError) :
    answered old (some r) = { Driver.builtReturn old.startId with valid := -1 } :=
  if_pos h

theorem answered_data (old : RchReturn) {r : Reply} (h : ¬ r.IsError) :
    answered old (some r) = { Driver.builtReturn old.startId with
      startId := r.start, nbytes := r.nsamples * 2, valid := 1 } :=
  if_neg h

/-- Every reply makes the handler valid, an error too. -/
theorem answered_valid (old : RchReturn) (reply : Option Reply) :
    (answered old reply).valid ≠ 0 ↔ reply.isSome = true := by
  cases reply with
  | none => exact iff_of_false (fun h => h rfl) Bool.false_ne_true
  | some r =>
    refine iff_of_true ?_ rfl
    by_cases h : r.IsError
    · rw [answered_error old h]
      exact Int.neg_ne_zero.mpr Int.one_ne_zero
    · rw [answered_data old h]
      exact Int.one_ne_zero

/-! ## A path under any client -/

/-- What happens on a path: its client calls with any instructions, and the
driver and the card go on. -/
inductive PathLabel where
  | call (recycle timeout : BitVec 32)
  | driver (event : Event)
  | ret

def pathStep (l : PathLabel) (d : Driver) : Option Driver :=
  match l with
  | .call recycle timeout =>
    if d.pc = .idle then
      some { d with
        ops := { d.ops with recycle := recycle, timeout := timeout }
        pc := .recycle .bufferA }
    else none
  | .driver event => d.step event
  | .ret =>
    match d.pc with
    | .done _ => some { d with pc := .idle }
    | _ => none

/-- No request is answered twice, so a handler is as `buildRch` left it or as
one reply left it. -/
structure AnsweredOnce (d : Driver) : Prop where
  nodup : d.unanswered.Nodup
  lt : ∀ block ∈ d.unanswered, block < d.requests
  handler : ∀ buffer h, d.rchAB buffer = some h →
    h.block < d.requests ∧ ∃ old reply, h.rchReturn = answered old reply ∧
      (reply.isSome = true → h.block ∉ d.unanswered)

theorem answeredOnce_opened : AnsweredOnce opened where
  nodup := List.nodup_nil
  lt := fun _ h => absurd h List.not_mem_nil
  handler := fun _ _ h => by cases h

/-- A step that makes no request and delivers none keeps the invariant. -/
theorem AnsweredOnce.mono {d d' : Driver} (hd : AnsweredOnce d)
    (hrch : ∀ buffer h, d'.rchAB buffer = some h → d.rchAB buffer = some h)
    (hunanswered : d'.unanswered = d.unanswered) (hrequests : d'.requests = d.requests) :
    AnsweredOnce d' where
  nodup := by rw [hunanswered]; exact hd.nodup
  lt := by rw [hunanswered, hrequests]; exact hd.lt
  handler := by
    intro buffer h hbuffer
    rw [hunanswered, hrequests]
    exact hd.handler buffer h (hrch buffer h hbuffer)

theorem AnsweredOnce.keep {d d' : Driver} (hd : AnsweredOnce d)
    (hrch : d'.rchAB = d.rchAB) (hunanswered : d'.unanswered = d.unanswered)
    (hrequests : d'.requests = d.requests) : AnsweredOnce d' := by
  refine hd.mono ?_ hunanswered hrequests
  intro buffer h hbuffer
  rwa [hrch] at hbuffer

theorem AnsweredOnce.recycle {d : Driver} (hd : AnsweredOnce d) (buffer : Buffer) :
    AnsweredOnce (d.recycle buffer) := by
  refine hd.mono ?_ rfl rfl
  intro other h hother
  by_cases heq : other = buffer
  · simp only [Driver.recycle, heq, Function.update_self] at hother
    cases hother
  · simpa only [Driver.recycle, Function.update_of_ne heq] using hother

theorem AnsweredOnce.queue {d : Driver} (hd : AnsweredOnce d) (buffer : Buffer) (mfa : Bool)
    (stale : BitVec 32) : AnsweredOnce (d.bufferABQueue buffer mfa stale) where
  nodup := by
    have hnew : d.requests ∉ d.unanswered := fun h => absurd (hd.lt _ h) (Nat.lt_irrefl _)
    rw [Driver.bufferABQueue]
    split
    · exact List.nodup_append.mpr ⟨hd.nodup, List.nodup_singleton _,
        fun a ha b hb => by rw [List.mem_singleton.mp hb]; exact fun h => hnew (h ▸ ha)⟩
    · exact hd.nodup
  lt := by
    intro block hblock
    show block < d.requests + 1
    simp only [Driver.bufferABQueue] at hblock
    split at hblock
    · rcases List.mem_append.mp hblock with hold | hnew
      · exact Nat.lt_succ_of_lt (hd.lt block hold)
      · rw [List.mem_singleton.mp hnew]
        exact Nat.lt_succ_self _
    · exact Nat.lt_succ_of_lt (hd.lt block hblock)
  handler := by
    intro other h hother
    show h.block < d.requests + 1 ∧ _
    by_cases heq : other = buffer
    · simp only [Driver.bufferABQueue, heq, Function.update_self] at hother
      cases hother
      exact ⟨Nat.lt_succ_self _, Driver.builtReturn stale, none, rfl, by simp⟩
    · simp only [Driver.bufferABQueue, Function.update_of_ne heq] at hother
      obtain ⟨hlt, old, reply, hreturn, hanswered⟩ := hd.handler other h hother
      refine ⟨Nat.lt_succ_of_lt hlt, old, reply, hreturn, fun hsome hmem => ?_⟩
      simp only [Driver.bufferABQueue] at hmem
      split at hmem
      · rcases List.mem_append.mp hmem with hold | hnew
        · exact hanswered hsome hold
        · exact absurd hlt (by rw [List.mem_singleton.mp hnew]; exact Nat.lt_irrefl _)
      · exact hanswered hsome hmem

theorem AnsweredOnce.reply {d d' : Driver} (hd : AnsweredOnce d) {n : Nat}
    {start nsamples : BitVec 32} (h : d.reply n start nsamples = some d') :
    AnsweredOnce d' := by
  obtain ⟨block, hblock, rfl⟩ := Option.map_eq_some_iff.mp h
  have hsub : ∀ b ∈ d.unanswered.eraseIdx n, b ∈ d.unanswered :=
    fun b hb => List.mem_of_mem_eraseIdx hb
  have hmem : block ∈ d.unanswered := List.mem_of_getElem? hblock
  have hgone : block ∉ d.unanswered.eraseIdx n := by
    obtain ⟨hn, hget⟩ := List.getElem?_eq_some_iff.mp hblock
    have hperm : (block :: d.unanswered.eraseIdx n).Perm d.unanswered :=
      hget ▸ List.getElem_cons_eraseIdx_perm hn
    exact (List.nodup_cons.mp (hperm.nodup_iff.mpr hd.nodup)).1
  refine ⟨hd.nodup.sublist (List.eraseIdx_sublist _ _), fun b hb => hd.lt b (hsub b hb), ?_⟩
  intro buffer h hbuffer
  obtain ⟨g, hg, rfl⟩ := Option.map_eq_some_iff.mp hbuffer
  obtain ⟨hlt, old, reply, hreturn, hanswered⟩ := hd.handler buffer g hg
  by_cases heq : g.block = block
  · -- Its handler has not been answered, so `buildRch` set it up.
    have hnone : reply = none := by
      cases reply with
      | none => rfl
      | some r => exact absurd hmem (heq ▸ hanswered rfl)
    rw [if_pos heq]
    refine ⟨hlt, old, some ⟨start, nsamples⟩, ?_, fun _ => heq ▸ hgone⟩
    rw [answered, hreturn, hnone, answered]
  · rw [if_neg heq]
    exact ⟨hlt, old, reply, hreturn, fun hsome hin => hanswered hsome (hsub _ hin)⟩

theorem AnsweredOnce.go {d d' : Driver} (hd : AnsweredOnce d) (h : d.go = some d') :
    AnsweredOnce d' := by
  rw [Driver.go] at h
  split at h
  · rename_i buffer _
    cases h
    split
    · exact (hd.recycle buffer).keep rfl rfl rfl
    · exact hd.keep rfl rfl rfl
  · split at h
    · cases h
      exact hd.keep rfl rfl rfl
    · cases h
  · split at h
    · cases h
    · split at h <;>
      · cases h
        exact hd.keep rfl rfl rfl
  all_goals cases h

theorem AnsweredOnce.post {d d' : Driver} (hd : AnsweredOnce d) {mfa : Bool}
    {stale : BitVec 32} (h : d.post mfa stale = some d') : AnsweredOnce d' := by
  rw [Driver.post] at h
  split at h
  · rename_i buffer _
    split at h
    · cases h
      exact (hd.queue buffer mfa stale).keep rfl rfl rfl
    · cases h
  · cases h

theorem AnsweredOnce.wake {d d' : Driver} (hd : AnsweredOnce d) (h : d.wake = some d') :
    AnsweredOnce d' := by
  rw [Driver.wake] at h
  split at h
  · cases h
    exact hd.keep rfl rfl rfl
  · cases h

theorem AnsweredOnce.endWait {d d' : Driver} (hd : AnsweredOnce d) {rc : Rc}
    (h : d.endWait rc = some d') : AnsweredOnce d' := by
  rw [Driver.endWait] at h
  split at h
  · cases h
    exact hd.keep rfl rfl rfl
  · cases h

theorem AnsweredOnce.pathStep {l : PathLabel} {d d' : Driver} (hd : AnsweredOnce d)
    (h : pathStep l d = some d') : AnsweredOnce d' := by
  cases l with
  | call recycle timeout =>
    rw [BufferAB.pathStep] at h
    split at h
    · cases h
      exact hd.keep rfl rfl rfl
    · cases h
  | ret =>
    rw [BufferAB.pathStep] at h
    split at h
    · cases h
      exact hd.keep rfl rfl rfl
    · cases h
  | driver event =>
    cases event with
    | go => exact hd.go h
    | post mfa stale => exact hd.post h
    | wake => exact hd.wake h
    | timeout => exact hd.endWait h
    | signal => exact hd.endWait h
    | reply n start nsamples => exact hd.reply h

/-- Whatever the client and the card do, no handler is answered twice. -/
theorem answeredOnce_of_run {ls : List PathLabel} {d : Driver}
    (h : runFrom pathStep ls opened = some d) : AnsweredOnce d :=
  runFrom_inv₂ (fun _ _ _ hd hl => hd.pathStep hl) answeredOnce_opened h

/-! ## The end of a call -/

namespace Driver

/-- Replies that come one after another. -/
def answer (rs : List (Nat × Reply)) (d : Driver) : Option Driver :=
  runFrom (fun r d => d.reply r.1 r.2.start r.2.nsamples) rs d

/-- `acq200_bufferABaction` from the end of its wait on.  Replies may come
before each of the two looks at a buffer. -/
def finish (d : Driver) (early late : List (Nat × Reply)) : Option Driver :=
  d.wake.bind fun d => (d.answer early).bind fun d => d.go.bind fun d =>
    (d.answer late).bind Driver.go

/-- What `fillDeviceStatus` adds to `ds.full`. -/
def statusFlags (buffer : Buffer) (r : RchReturn) : BitVec 32 :=
  if r.valid ≠ 0 then fullFlags buffer r else 0

end Driver

/-- Replies leave the call where it is, and keep the handlers that have been
answered. -/
structure Kept (d d' : Driver) : Prop where
  pc : d'.pc = d.pc
  abNext : d'.abNext = d.abNext
  ops : d'.ops = d.ops
  valid : ∀ buffer h, d.rchAB buffer = some h → h.rchReturn.valid ≠ 0 →
    d'.rchAB buffer = some h

theorem reply_kept {d d' : Driver} (hd : AnsweredOnce d) {n : Nat}
    {start nsamples : BitVec 32} (h : d.reply n start nsamples = some d') : Kept d d' := by
  obtain ⟨block, hblock, rfl⟩ := Option.map_eq_some_iff.mp h
  refine ⟨rfl, rfl, rfl, ?_⟩
  intro buffer h hbuffer hvalid
  obtain ⟨-, old, reply, hreturn, hanswered⟩ := hd.handler buffer h hbuffer
  rw [hreturn, answered_valid] at hvalid
  have hne : h.block ≠ block := by
    intro heq
    exact hanswered hvalid (heq ▸ List.mem_of_getElem? hblock)
  simp only [hbuffer, Driver.deliver, Option.map_some, if_neg hne]

theorem answer_kept {rs : List (Nat × Reply)} {d d' : Driver} (hd : AnsweredOnce d)
    (h : d.answer rs = some d') : Kept d d' ∧ AnsweredOnce d' := by
  induction rs generalizing d with
  | nil =>
    cases h
    exact ⟨⟨rfl, rfl, rfl, fun _ _ h _ => h⟩, hd⟩
  | cons r rs ih =>
    obtain ⟨d₁, hreply, hrest⟩ := runFrom_cons.mp h
    have hfirst := reply_kept hd hreply
    obtain ⟨hkept, hd'⟩ := ih (hd.reply hreply) hrest
    refine ⟨⟨?_, ?_, ?_, ?_⟩, hd'⟩
    · rw [hkept.pc, hfirst.pc]
    · rw [hkept.abNext, hfirst.abNext]
    · rw [hkept.ops, hfirst.ops]
    · intro buffer h hbuffer hvalid
      exact hkept.valid buffer h (hfirst.valid buffer h hbuffer hvalid) hvalid

/-- The wait ends when the next buffer is valid. -/
theorem wake_next {d d' : Driver} (h : d.wake = some d') :
    ∃ g, d.rchAB d.abNext = some g ∧ g.rchReturn.valid ≠ 0 ∧ d'.rchAB = d.rchAB ∧
      d'.abNext = d.abNext ∧ d'.ops.full = 0 ∧ d'.pc = .fill false := by
  rw [Driver.wake] at h
  split at h
  · rename_i hwait
    cases hnext : d.rchAB d.abNext with
    | none =>
      rw [Driver.nextValid, hnext] at hwait
      exact absurd hwait.2 Bool.false_ne_true
    | some g =>
      rw [Driver.nextValid, hnext] at hwait
      cases h
      exact ⟨g, rfl, of_decide_eq_true hwait.2, rfl, rfl, rfl, rfl⟩
  · cases h

/-- One look of `fillDeviceStatus` at the next buffer. -/
structure Looked (d d' : Driver) (g : Handler) : Prop where
  next : d.rchAB d.abNext = some g
  rchAB : d'.rchAB = d.rchAB
  full : d'.ops.full = d.ops.full ||| Driver.statusFlags d.abNext g.rchReturn
  valid : g.rchReturn.valid ≠ 0 →
    d'.ops.sid = Function.update d.ops.sid d.abNext g.rchReturn.startId ∧
    d'.ops.len = Function.update d.ops.len d.abNext g.rchReturn.nbytes ∧
    d'.abNext = otherBuffer d.abNext
  idle : g.rchReturn.valid = 0 → d'.ops = d.ops
  pc : d'.pc = if d.pc = .fill false ∧ g.rchReturn.valid ≠ 0 then .fill true else .done .ok

theorem fill_looked {d d' : Driver} (second : Bool) (hpc : d.pc = .fill second)
    (h : d.go = some d') : ∃ g, Looked d d' g := by
  rw [Driver.go, hpc] at h
  cases hnext : d.rchAB d.abNext with
  | none =>
    rw [hnext] at h
    cases h
  | some g =>
    rw [hnext] at h
    simp only at h
    refine ⟨g, ?_⟩
    by_cases hvalid : g.rchReturn.valid ≠ 0
    · rw [if_pos hvalid] at h
      cases h
      refine ⟨hnext, rfl, ?_, fun _ => ⟨rfl, rfl, rfl⟩, fun h => absurd h hvalid, ?_⟩
      · rw [Driver.statusFlags, if_pos hvalid]
        rfl
      · rw [hpc]
        cases second <;> simp [hvalid]
    · rw [if_neg hvalid] at h
      cases h
      refine ⟨hnext, rfl, ?_, fun h => absurd h hvalid, fun _ => rfl, ?_⟩
      · rw [Driver.statusFlags, if_neg hvalid]
        exact BitVec.or_zero.symm
      · simp [hvalid]

/-- What the status says when the call returns. -/
structure Reported (first : Buffer) (d' : Driver) (h h' : Handler) : Prop where
  pc : d'.pc = .done .ok
  next : d'.rchAB first = some h
  valid : h.rchReturn.valid ≠ 0
  other : d'.rchAB (otherBuffer first) = some h'
  full : d'.ops.full = Driver.statusFlags first h.rchReturn |||
    Driver.statusFlags (otherBuffer first) h'.rchReturn
  status : ∀ buffer g, d'.rchAB buffer = some g → g.rchReturn.valid ≠ 0 →
    d'.ops.sid buffer = g.rchReturn.startId ∧ d'.ops.len buffer = g.rchReturn.nbytes

/-- The call reports each buffer whose handler is valid when it looks. -/
theorem finish_reported {d d' : Driver} {early late : List (Nat × Reply)}
    (hd : AnsweredOnce d) (hfinish : d.finish early late = some d') :
    ∃ h h', Reported d.abNext d' h h' := by
  obtain ⟨w, hwake, hfinish⟩ := Option.bind_eq_some_iff.mp hfinish
  obtain ⟨w', hearly, hfinish⟩ := Option.bind_eq_some_iff.mp hfinish
  obtain ⟨d₁, hfirst, hfinish⟩ := Option.bind_eq_some_iff.mp hfinish
  obtain ⟨d₂, hlate, hsecond⟩ := Option.bind_eq_some_iff.mp hfinish
  have hw : AnsweredOnce w := hd.wake hwake
  obtain ⟨h, hnext, hvalid, hrch, hturn, hfull, hpc⟩ := wake_next hwake
  -- The buffer that ended the wait is still as it was at the first look.
  obtain ⟨hkept, hw'⟩ := answer_kept hw hearly
  have habNext : w'.abNext = d.abNext := by
    rw [hkept.abNext, hturn]
  have hnext' : w'.rchAB d.abNext = some h :=
    hkept.valid d.abNext h (by rw [hrch, hnext]) hvalid
  obtain ⟨g, hlook⟩ := fill_looked false (hkept.pc.trans hpc) hfirst
  obtain rfl : h = g := by
    have := hlook.next
    rw [habNext, hnext'] at this
    exact Option.some.inj this
  obtain ⟨hsid, hlen, hturn'⟩ := hlook.valid hvalid
  have hpc' : d₁.pc = .fill true := by
    rw [hlook.pc, if_pos ⟨hkept.pc.trans hpc, hvalid⟩]
  -- The second look is at the other buffer.
  obtain ⟨hkept', -⟩ := answer_kept (hw'.go hfirst) hlate
  have hother : d₂.abNext = otherBuffer d.abNext := by
    rw [hkept'.abNext, hturn', habNext]
  have hfirst' : d₂.rchAB d.abNext = some h :=
    hkept'.valid d.abNext h (by rw [hlook.rchAB, hnext']) hvalid
  obtain ⟨h', hlook'⟩ := fill_looked true (hkept'.pc.trans hpc') hsecond
  have hdone : d'.rchAB d.abNext = some h := by
    rw [hlook'.rchAB, hfirst']
  have hdone' : d'.rchAB (otherBuffer d.abNext) = some h' := by
    rw [hlook'.rchAB, ← hother, hlook'.next]
  refine ⟨h, h', ?_, hdone, hvalid, hdone', ?_, ?_⟩
  · rw [hlook'.pc, hkept'.pc, hpc']
    rfl
  · rw [hlook'.full, hkept'.ops, hlook.full, hkept.ops, hfull, habNext, hother]
    exact congrArg (· ||| _) BitVec.zero_or
  · have hne : d.abNext ≠ d₂.abNext := by
      rw [hother]
      exact (otherBuffer_ne d.abNext).symm
    intro buffer g hg hgvalid
    rcases eq_or_eq_other d.abNext buffer with rfl | rfl
    · cases hdone.symm.trans hg
      have hops : d₂.ops.sid d.abNext = h.rchReturn.startId ∧
          d₂.ops.len d.abNext = h.rchReturn.nbytes := by
        rw [hkept'.ops, hsid, hlen, habNext, Function.update_self, Function.update_self]
        exact ⟨rfl, rfl⟩
      by_cases hvalid' : h'.rchReturn.valid = 0
      · rw [hlook'.idle hvalid']
        exact hops
      · rw [(hlook'.valid hvalid').1, (hlook'.valid hvalid').2.1,
          Function.update_of_ne hne, Function.update_of_ne hne]
        exact hops
    · cases hdone'.symm.trans hg
      rw [(hlook'.valid hgvalid).1, (hlook'.valid hgvalid).2.1, hother,
        Function.update_self, Function.update_self]
      exact ⟨rfl, rfl⟩

/-! ## What the flags say -/

theorem flagged_statusFlags (buffer other : Buffer) (r : RchReturn) :
    flagged (Driver.statusFlags buffer r) other = true ↔ other = buffer ∧ r.valid ≠ 0 := by
  rw [Driver.statusFlags]
  split
  · rename_i hvalid
    rw [flagged_fullFlags, decide_eq_true_iff]
    exact ⟨fun h => ⟨h, hvalid⟩, And.left⟩
  · rename_i hvalid
    exact iff_of_false (by rw [flagged_zero]; exact Bool.false_ne_true)
      fun h => hvalid h.2

theorem eof_statusFlags (buffer : Buffer) (r : RchReturn) :
    Driver.statusFlags buffer r &&& FULL_EOF ≠ 0 ↔ r.valid ≠ 0 ∧ r.nbytes = 0 := by
  rw [Driver.statusFlags]
  split
  · rename_i hvalid
    rw [Driver.fullFlags, or_and_ne_zero]
    have hflag : bufferFlag buffer &&& FULL_EOF = 0 := by cases buffer <;> decide
    split
    · rename_i hbytes
      exact iff_of_true (Or.inr (by decide)) ⟨hvalid, hbytes⟩
    · rename_i hbytes
      exact iff_of_false (by rw [hflag]; simp) fun h => hbytes h.2
  · rename_i hvalid
    exact iff_of_false (by simp) fun h => hvalid h.1

/-- The flag of a buffer says that its handler is valid. -/
theorem Reported.flagged_iff {first : Buffer} {d' : Driver} {h h' : Handler}
    (hd : Reported first d' h h') (buffer : Buffer) :
    flagged d'.ops.full buffer = true ↔
      ∃ g, d'.rchAB buffer = some g ∧ g.rchReturn.valid ≠ 0 := by
  rw [hd.full, flagged_or, Bool.or_eq_true, flagged_statusFlags, flagged_statusFlags]
  rcases eq_or_eq_other first buffer with rfl | rfl
  · simp [hd.next, (otherBuffer_ne buffer).symm]
  · simp [hd.other, otherBuffer_ne]

theorem Reported.eof_iff {first : Buffer} {d' : Driver} {h h' : Handler}
    (hd : Reported first d' h h') :
    d'.ops.full &&& FULL_EOF ≠ 0 ↔
      ∃ buffer g, d'.rchAB buffer = some g ∧ g.rchReturn.valid ≠ 0 ∧
        g.rchReturn.nbytes = 0 := by
  rw [hd.full, or_and_ne_zero, eof_statusFlags, eof_statusFlags]
  constructor
  · rintro (hleft | hright)
    · exact ⟨first, h, hd.next, hleft⟩
    · exact ⟨otherBuffer first, h', hd.other, hright⟩
  · rintro ⟨buffer, g, hg, hend⟩
    rcases eq_or_eq_other first buffer with rfl | rfl
    · cases hd.next.symm.trans hg
      exact Or.inl hend
    · cases hd.other.symm.trans hg
      exact Or.inr hend

/-! ## The classification -/

/-- What `acq200_bridge_read_generic` should make of a reply. -/
def ReadClassifies (o : Bridge.Outcome) (r : Reply) : Prop :=
  (r.IsError → ∃ rc, o.rc = some rc ∧ rc < 0) ∧
  (¬ r.IsError → o.rc = some (Int.ofNat (2 * r.nsamples.toNat)))

/-- What `acq200_bufferABaction` should make of the replies to the two buffers
when `first` has ended its wait. -/
structure ABClassifies (reply : Buffer → Option Reply) (first : Buffer) (d' : Driver) :
    Prop where
  error : ∀ r, reply first = some r → r.IsError → ∃ rc, d'.pc = .done rc ∧ rc ≠ .ok
  data : ∀ r, reply first = some r → ¬ r.IsError → d'.pc = .done .ok ∧
    ∀ buffer s, reply buffer = some s → ¬ s.IsError → flagged d'.ops.full buffer = true
  flags : ∀ buffer, flagged d'.ops.full buffer = true → ∃ r, reply buffer = some r ∧
    ¬ r.IsError ∧ d'.ops.sid buffer = r.start ∧
      (d'.ops.len buffer).toNat = 2 * r.nsamples.toNat
  eof : d'.ops.full &&& FULL_EOF ≠ 0 ↔ ∃ buffer r, flagged d'.ops.full buffer = true ∧
    reply buffer = some r ∧ r.nsamples = 0

/-- A call of `acq200_bufferABaction` that returns `d'`, on a path where any
client has made any calls before.  The entry of each buffer's handler held `old`
before, and the handler has got `reply`. -/
structure ABGets (old : Buffer → RchReturn) (reply : Buffer → Option Reply)
    (d d' : Driver) : Prop where
  reached : ∃ ls, runFrom pathStep ls opened = some d
  finished : ∃ early late, d.finish early late = some d'
  handler : ∀ buffer, ∃ block,
    d'.rchAB buffer = some ⟨answered (old buffer) (reply buffer), block⟩

/-- A read that gets the reply.  Its handler entry is any entry of `d`. -/
structure ReadGets (file : Bridge.File) (hrdCode : BitVec 16) (d : Device) (count : Nat)
    (posp : BitVec 64) (given : Option Bridge.KBuf) (env : Bridge.Env) (r : Reply) :
    Prop where
  waited : (Bridge.bridgeReadGeneric file hrdCode d count posp given env).waited = true
  mfa : env.mfa = true
  reply : env.reply = some (r.start, r.nsamples)

theorem not_isError_of_lt {r : Reply} (h : r.nsamples.toNat < 2 ^ 31) : ¬ r.IsError := by
  intro herror
  rw [Reply.IsError] at herror
  rw [herror] at h
  exact absurd h (by decide)

/-- `acq200_bufferABaction` reads the replies as it should exactly when their
bytes can be counted in 32 bits. -/
theorem abClassifies_iff {old : Buffer → RchReturn} {reply : Buffer → Option Reply}
    {d d' : Driver} (h : ABGets old reply d d') :
    ABClassifies reply d.abNext d' ↔
      ∀ buffer r, reply buffer = some r → r.nsamples.toNat < 2 ^ 31 := by
  obtain ⟨ls, hrun⟩ := h.reached
  obtain ⟨early, late, hfinish⟩ := h.finished
  obtain ⟨g, g', hd⟩ := finish_reported (answeredOnce_of_run hrun) hfinish
  have hflagged : ∀ buffer, flagged d'.ops.full buffer = true ↔
      (reply buffer).isSome = true := by
    intro buffer
    obtain ⟨block, hbuffer⟩ := h.handler buffer
    rw [hd.flagged_iff, hbuffer]
    simp only [Option.some.injEq, exists_eq_left', answered_valid]
  constructor
  · intro hclass buffer r hr
    have hflag := (hflagged buffer).mpr (by rw [hr]; rfl)
    obtain ⟨r', hr', -, -, hlen⟩ := hclass.flags buffer hflag
    cases hr.symm.trans hr'
    have hlt := (d'.ops.len buffer).isLt
    omega
  · intro hlt
    have hdata : ∀ buffer r, reply buffer = some r → ¬ r.IsError :=
      fun buffer r hr => not_isError_of_lt (hlt buffer r hr)
    have hreturn : ∀ buffer r, reply buffer = some r → ∃ block, d'.rchAB buffer =
        some ⟨{ Driver.builtReturn (old buffer).startId with
          startId := r.start, nbytes := r.nsamples * 2, valid := 1 }, block⟩ := by
      intro buffer r hr
      obtain ⟨block, hbuffer⟩ := h.handler buffer
      rw [hr, answered_data _ (hdata buffer r hr)] at hbuffer
      exact ⟨block, hbuffer⟩
    refine ⟨fun r hr herror => absurd herror (hdata _ r hr), ?_, ?_, ?_⟩
    · intro r _ _
      refine ⟨hd.pc, fun buffer s hs _ => (hflagged buffer).mpr ?_⟩
      rw [hs]
      rfl
    · intro buffer hflag
      obtain ⟨r, hr⟩ := Option.isSome_iff_exists.mp ((hflagged buffer).mp hflag)
      obtain ⟨block, hbuffer⟩ := hreturn buffer r hr
      obtain ⟨hsid, hlen⟩ := hd.status buffer _ hbuffer Int.one_ne_zero
      refine ⟨r, hr, hdata buffer r hr, hsid, ?_⟩
      rw [hlen]
      exact Bridge.toNat_samples (hlt buffer r hr)
    · have hzero : ∀ buffer r, reply buffer = some r →
          (r.nsamples * 2 = 0 ↔ r.nsamples = 0) := by
        intro buffer r hr
        have hbytes := Bridge.toNat_samples (hlt buffer r hr)
        rw [← BitVec.toNat_inj, ← BitVec.toNat_inj, hbytes]
        show 2 * r.nsamples.toNat = 0 ↔ r.nsamples.toNat = 0
        omega
      rw [hd.eof_iff]
      constructor
      · rintro ⟨buffer, f, hf, hvalid, hbytes⟩
        have hflag := hd.flagged_iff buffer |>.mpr ⟨f, hf, hvalid⟩
        obtain ⟨r, hr⟩ := Option.isSome_iff_exists.mp ((hflagged buffer).mp hflag)
        obtain ⟨block, hbuffer⟩ := hreturn buffer r hr
        cases hf.symm.trans hbuffer
        exact ⟨buffer, r, hflag, hr, (hzero buffer r hr).mp hbytes⟩
      · rintro ⟨buffer, r, -, hr, hn⟩
        obtain ⟨block, hbuffer⟩ := hreturn buffer r hr
        exact ⟨buffer, _, hbuffer, Int.one_ne_zero, (hzero buffer r hr).mpr hn⟩

/-- `acq200_bridge_read_generic` reads a reply as it should exactly when its
bytes can be counted in an `int`. -/
theorem readClassifies_iff {file : Bridge.File} {hrdCode : BitVec 16} {d : Device}
    {count : Nat} {posp : BitVec 64} {given : Option Bridge.KBuf} {env : Bridge.Env}
    {r : Reply} (h : ReadGets file hrdCode d count posp given env r) :
    ReadClassifies (Bridge.bridgeReadGeneric file hrdCode d count posp given env) r ↔
      r.nsamples.toNat < 2 ^ 30 := by
  obtain ⟨d₁, e, t, kbuf, pooled, pam, flags, hlen, hfresh, heq⟩ :=
    Bridge.read_of_waited hrdCode count posp env h.waited
  rw [heq]
  by_cases herror : r.IsError
  · refine iff_of_false ?_ fun hlt => not_isError_of_lt (by omega) herror
    rintro ⟨hclass, -⟩
    obtain ⟨rc, hrc, -⟩ := hclass herror
    rw [(Bridge.readInto_error hlen hfresh h.mfa (herror ▸ h.reply)).1] at hrc
    cases hrc
  · have hdata : (Bridge.readInto file hrdCode d₁ count posp env e t kbuf pooled pam flags).rc
        = some (r.nsamples * 2).toInt :=
      (Bridge.readInto_data hlen hfresh h.mfa h.reply herror).rc
    rw [ReadClassifies, hdata]
    constructor
    · intro hclass
      have hint := Option.some.inj (hclass.2 herror)
      have hlt := BitVec.toInt_lt (x := r.nsamples * 2)
      rw [hint] at hlt
      exact Nat.lt_of_mul_lt_mul_left (Int.ofNat_lt.mp hlt)
    · intro hlt
      refine ⟨fun h => absurd h herror, fun _ => ?_⟩
      rw [Bridge.toInt_samples hlt]
      rfl

/-- Both read the same reply as they should exactly when it has fewer than
`2 ^ 30` samples, and the reply to the other buffer can be counted too. -/
theorem classified_alike_iff {file : Bridge.File} {hrdCode : BitVec 16} {dev : Device}
    {count : Nat} {posp : BitVec 64} {given : Option Bridge.KBuf} {env : Bridge.Env}
    {old : Buffer → RchReturn} {reply : Buffer → Option Reply} {d d' : Driver} {r : Reply}
    (hread : ReadGets file hrdCode dev count posp given env r)
    (hab : ABGets old reply d d') (hsame : reply d.abNext = some r) :
    (ReadClassifies (Bridge.bridgeReadGeneric file hrdCode dev count posp given env) r ∧
      ABClassifies reply d.abNext d') ↔
    r.nsamples.toNat < 2 ^ 30 ∧
      ∀ s, reply (otherBuffer d.abNext) = some s → s.nsamples.toNat < 2 ^ 31 := by
  rw [readClassifies_iff hread, abClassifies_iff hab]
  refine and_congr_right fun hlt => ⟨fun h s hs => h _ s hs, ?_⟩
  intro h buffer s hs
  rcases eq_or_eq_other d.abNext buffer with rfl | rfl
  · cases hsame.symm.trans hs
    omega
  · exact h s hs

/-- The first call of a client, up to the reply for buffer A. -/
def firstReply (r : Reply) : List PathLabel :=
  [.call 0 100, .driver .go, .driver .go, .driver (.post true 7), .driver (.post true 7),
    .driver (.reply 0 r.start r.nsamples)]

/-- The driver in that call, and when the call has returned. -/
def firstWait (r : Reply) : Driver := (runFrom pathStep (firstReply r) opened).getD opened

def firstReturn (r : Reply) : Driver := ((firstWait r).finish [] []).getD opened

/-- Only buffer A has got its reply. -/
def onlyA (r : Reply) : Buffer → Option Reply
  | .bufferA => some r
  | .bufferB => none

/-- A read gets 16 samples, and so does the first call of a client of the
swinging buffers. -/
theorem sixteen_samples_classified :
    ReadClassifies (Bridge.bridgeReadGeneric Bridge.onePage Bridge.HRD_CHAN_IS_FILE
        (Rch.poolCreate 0#16) 1024 0 none ⟨true, some (5, 16)⟩) ⟨5, 16⟩ ∧
      ABClassifies (onlyA ⟨5, 16⟩) .bufferA (firstReturn ⟨5, 16⟩) := by
  have hread : ReadGets Bridge.onePage Bridge.HRD_CHAN_IS_FILE (Rch.poolCreate 0#16) 1024 0
      none ⟨true, some (5, 16)⟩ ⟨5, 16⟩ := ⟨by decide, rfl, rfl⟩
  have hab : ABGets (fun _ => Driver.builtReturn 7) (onlyA ⟨5, 16⟩) (firstWait ⟨5, 16⟩)
      (firstReturn ⟨5, 16⟩) := by
    refine ⟨⟨firstReply ⟨5, 16⟩, rfl⟩, ⟨[], [], rfl⟩, ?_⟩
    intro buffer
    cases buffer with
    | bufferA => exact ⟨0, rfl⟩
    | bufferB => exact ⟨1, rfl⟩
  refine (classified_alike_iff hread hab rfl).mpr ⟨by decide, ?_⟩
  intro s hs
  cases hs

/-- An error reply.  The read does not return, and the call reports buffer A
full at the end of the data. -/
theorem error_reply_reported_full :
    ¬ ReadClassifies (Bridge.bridgeReadGeneric Bridge.onePage Bridge.HRD_CHAN_IS_FILE
        (Rch.poolCreate 0#16) 1024 0 none ⟨true, some (5, 0xffffffff)⟩) ⟨5, 0xffffffff⟩ ∧
      ¬ ABClassifies (onlyA ⟨5, 0xffffffff⟩) .bufferA (firstReturn ⟨5, 0xffffffff⟩) ∧
      (firstReturn ⟨5, 0xffffffff⟩).ops.full = 0x80000001#32 := by
  refine ⟨?_, ?_, by decide⟩
  · rintro ⟨herror, -⟩
    obtain ⟨rc, hrc, -⟩ := herror rfl
    have hfault : (Bridge.bridgeReadGeneric Bridge.onePage Bridge.HRD_CHAN_IS_FILE
        (Rch.poolCreate 0#16) 1024 0 none ⟨true, some (5, 0xffffffff)⟩).rc = none := by
      decide
    cases hfault.symm.trans hrc
  · intro h
    obtain ⟨rc, hrc, hne⟩ := h.error _ rfl rfl
    have hok : (firstReturn ⟨5, 0xffffffff⟩).pc = .done .ok := rfl
    cases hok.symm.trans hrc
    exact hne rfl

end Acq200.BufferAB
