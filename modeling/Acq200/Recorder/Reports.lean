import Acq200.BufferAB.InStep
import Acq200.Recorder.Card

/-!
# The blocks that reach the client

A block is a request with its data.  `Books` puts the blocks to the log of
the reports and to the log of what the client has worked on: the lengths and
the buffers of the reports are those of the blocks, in the order of the
reports.  `Once` says that no block is reported twice, which is not clear at
all, since a full buffer is only cleared by the flag that the client sets in
its next call.
-/

namespace Acq200.Recorder

open Acq200.Lib Acq200.Htstream
open Acq200.Rch (Buffer)
open Acq200.BufferAB (Driver Handler Event flagged otherBuffer_ne)

/-! ## One step of the stream -/

section Stream

variable {sys : Htstream.Sys}

theorem resume_phase (result : Outcome) : (sys.resume result).phase ≠ .inIoctl := by
  rw [Sys.resume]
  dsimp only
  split <;> simp

theorem leave_phase (rc : BufferAB.Rc) (copied : Bool) :
    (sys.leave rc copied).phase ≠ .inIoctl := by
  rw [Sys.leave]
  dsimp only
  split <;> exact resume_phase _

theorem leave_delivered (rc : BufferAB.Rc) (copied : Bool) :
    (sys.leave rc copied).delivered =
      if outcome rc copied = .success then sys.delivered ++ sys.reportedNow
      else sys.delivered := by
  rw [Sys.leave]
  dsimp only
  split <;> rfl

/-- A block is reported by a valid handler of the buffer that is next in
turn, and by nothing else. -/
theorem reported_event {d d' : Driver} {event : Event} (hd : d.step event = some d') :
    d'.reported = d.reported ∧ reportOf d event = [] ∨
      ∃ second handler, event = .go ∧ d.pc = .fill second ∧ d.rchAB d.abNext = some handler ∧
        handler.rchReturn.valid ≠ 0 ∧ d'.reported = d.reported ++ [handler.block] ∧
        reportOf d event = [(d.abNext, handler.rchReturn.nbytes)] := by
  cases event with
  | go =>
    simp only [Driver.step, Driver.go] at hd
    split at hd
    · rename_i buffer hpc
      obtain rfl := Option.some.inj hd
      refine Or.inl ⟨?_, ?_⟩
      · split <;> rfl
      · simp only [reportOf, hpc]
    · rename_i buffer hpc
      split at hd
      · obtain rfl := Option.some.inj hd
        exact Or.inl ⟨rfl, by simp only [reportOf, hpc]⟩
      · cases hd
    · rename_i second hpc
      split at hd
      · cases hd
      · rename_i handler hslot
        split at hd
        · rename_i hvalid
          obtain rfl := Option.some.inj hd
          refine Or.inr ⟨second, handler, rfl, hpc, hslot, hvalid, rfl, ?_⟩
          simp only [reportOf, hpc, hslot, if_pos hvalid]
        · rename_i hvalid
          obtain rfl := Option.some.inj hd
          refine Or.inl ⟨rfl, ?_⟩
          simp only [reportOf, hpc, hslot, if_neg hvalid]
    all_goals cases hd
  | post mfa stale =>
    simp only [Driver.step, Driver.post] at hd
    split at hd
    · split at hd
      · obtain rfl := Option.some.inj hd
        exact Or.inl ⟨rfl, rfl⟩
      · cases hd
    · cases hd
  | wake =>
    simp only [Driver.step, Driver.wake] at hd
    split at hd
    · obtain rfl := Option.some.inj hd
      exact Or.inl ⟨rfl, rfl⟩
    · cases hd
  | timeout | signal =>
    simp only [Driver.step, Driver.endWait] at hd
    split at hd
    · obtain rfl := Option.some.inj hd
      exact Or.inl ⟨rfl, rfl⟩
    · cases hd
  | reply n start nsamples =>
    obtain ⟨k, hn, rfl⟩ := Option.map_eq_some_iff.mp hd
    exact Or.inl ⟨rfl, rfl⟩

end Stream

/-! ## The reports of the blocks -/

/-- The report of each block: the buffer that its request named and the number
of bytes in its reply. -/
def Card.reports (c : Card) (blocks : List Nat) : List Report :=
  blocks.map fun k => (c.target k, BitVec.ofNat 32 (c.answered k).length)

/-- What has been reported and worked on, as blocks. -/
structure Books (logged : Logged) (c : Card) : Prop where
  reports : logged.reports = c.reports logged.sys.driver.reported
  works : logged.works = c.reports logged.sys.delivered
  outside : logged.sys.phase ≠ .inIoctl → logged.sys.delivered = logged.sys.driver.reported
  inside : logged.sys.phase = .inIoctl →
    logged.sys.delivered ++ logged.sys.reportedNow = logged.sys.driver.reported

section Books

variable {logged logged' : Logged} {c c' : Card} {l : Htstream.Label}

theorem reports_congr {blocks : List Nat}
    (h : ∀ k ∈ blocks, c'.target k = c.target k ∧ c'.answered k = c.answered k) :
    c'.reports blocks = c.reports blocks := by
  refine List.map_congr_left fun k hk => ?_
  rw [(h k hk).1, (h k hk).2]

theorem Books.delivered_subset (h : Books logged c) {k : Nat} (hk : k ∈ logged.sys.delivered) :
    k ∈ logged.sys.driver.reported := by
  by_cases hphase : logged.sys.phase = .inIoctl
  · rw [← h.inside hphase]
    exact List.mem_append_left _ hk
  · rw [← h.outside hphase]
    exact hk

/-- What the call in progress has reported is what the log has beyond the
works. -/
theorem Books.now (h : Books logged c) (hphase : logged.sys.phase = .inIoctl)
    {extra : List Report} (hlog : logged.reports = logged.works ++ extra) :
    c.reports logged.sys.reportedNow = extra := by
  rw [h.reports, h.works, ← h.inside hphase, Card.reports, Card.reports, List.map_append] at hlog
  exact List.append_cancel_left hlog

theorem Books.none_now (h : Books logged c) (hphase : logged.sys.phase = .inIoctl)
    (hlog : logged.reports = logged.works) : logged.sys.reportedNow = [] := by
  have hnow := h.now hphase (hlog.trans (List.append_nil _).symm)
  exact List.map_eq_nil_iff.mp hnow

/-- The driver's report of a block is the block's report. -/
theorem reports_report (h : CardInv logged.sys.driver c) {handler : Handler}
    (hslot : logged.sys.driver.rchAB logged.sys.driver.abNext = some handler)
    (hvalid : handler.rchReturn.valid ≠ 0) :
    c.reports [handler.block] = [(logged.sys.driver.abNext, handler.rchReturn.nbytes)] := by
  rw [Card.reports, List.map_singleton, (h.slots _ handler hslot).2,
    ← h.full _ handler hslot hvalid, length_slice, BitVec.ofNat_toNat, BitVec.setWidth_eq]

/-- Only replies come in outside a call. -/
theorem not_go_outside (h : StreamInv logged.sys) (hphase : logged.sys.phase ≠ .inIoctl)
    {second : Bool} : logged.sys.driver.pc ≠ .fill second := by
  rw [h.idle hphase]
  simp

theorem books_driver (h : Books logged c) (hstream : StreamInv logged.sys)
    (hcard : CardInv logged.sys.driver c) {event : Event} {d : Driver}
    {worked : Buffer → Bool} (hd : logged.sys.driver.step event = some d)
    (hc : c.note logged.sys.driver event = some c') :
    Books { sys := { logged.sys with driver := d, worked := worked }
            reports := logged.reports ++ reportOf logged.sys.driver event
            works := logged.works } c' := by
  have hkeeps : ∀ k ∈ logged.sys.driver.reported,
      c'.target k = c.target k ∧ c'.answered k = c.answered k :=
    fun k hk => hcard.note_keeps hc hk
  have hworks : logged.works = c'.reports logged.sys.delivered := by
    rw [h.works, reports_congr fun k hk => hkeeps k (h.delivered_subset hk)]
  rcases reported_event hd with
    ⟨hsame, hnone⟩ | ⟨second, handler, rfl, hpc, hslot, hvalid, hmore, hlog⟩
  · refine ⟨?_, hworks, ?_, ?_⟩
    · show _ = c'.reports d.reported
      rw [hnone, List.append_nil, hsame, reports_congr hkeeps]
      exact h.reports
    · intro hphase
      exact (h.outside hphase).trans hsame.symm
    · intro hphase
      show logged.sys.delivered ++ d.reported.drop logged.sys.before = d.reported
      rw [hsame]
      exact h.inside hphase
  · obtain rfl := Option.some.inj hc
    refine ⟨?_, hworks, ?_, ?_⟩
    · show _ = c.reports d.reported
      rw [hlog, hmore, Card.reports, List.map_append, h.reports,
        ← reports_report hcard hslot hvalid]
      rfl
    · intro hphase
      exact absurd hpc (not_go_outside hstream hphase)
    · intro hphase
      show logged.sys.delivered ++ d.reported.drop logged.sys.before = d.reported
      rw [hmore, List.drop_append_of_le_length hstream.before, ← List.append_assoc]
      rw [show logged.sys.delivered ++ logged.sys.driver.reported.drop logged.sys.before
        = logged.sys.driver.reported from h.inside hphase]

/-- The end of a call.  After a success everything that it has reported has
been worked on, and a call that fails has reported nothing. -/
theorem books_leave (h : Books logged c) (hstream : StreamInv logged.sys)
    (hpace : PaceInv logged) {rc : BufferAB.Rc} (hpc : logged.sys.driver.pc = .done rc) :
    Books { sys := logged.sys.leave rc true
            reports := logged.reports
            works := logged.works ++ workedBy logged.sys (.leave true) } c := by
  have hphase : logged.sys.phase = .inIoctl := hstream.inIoctl (by rw [hpc]; simp)
  have hlog := hpace.pace
  have hreported : (logged.sys.leave rc true).delivered = logged.sys.driver.reported ∧
      logged.works ++ workedBy logged.sys (.leave true) = logged.reports := by
    rw [hpc] at hlog
    rw [leave_delivered, workedBy, hpc]
    cases rc with
    | ok =>
      rw [if_pos (show outcome .ok true = .success from rfl), if_pos rfl, h.inside hphase]
      exact ⟨rfl, hlog.1.symm⟩
    | timedOut | interrupted =>
      have hnone := h.none_now hphase hlog.1
      have hinside := h.inside hphase
      rw [hnone, List.append_nil] at hinside
      rw [if_neg (by simp [outcome]), if_neg (by simp), List.append_nil]
      exact ⟨hinside, hlog.1.symm⟩
  refine ⟨?_, ?_, ?_, fun hin => absurd hin (leave_phase rc true)⟩
  · show _ = c.reports (logged.sys.leave rc true).driver.reported
    rw [leave_driver]
    exact h.reports
  · show _ = c.reports (logged.sys.leave rc true).delivered
    rw [hreported.1, hreported.2]
    exact h.reports
  · intro _
    show (logged.sys.leave rc true).delivered = (logged.sys.leave rc true).driver.reported
    rw [hreported.1, leave_driver]

theorem books_step (h : Books logged c) (hstream : StreamInv logged.sys)
    (hpace : PaceInv logged) (hcard : CardInv logged.sys.driver c) (hok : NoFault l logged)
    (hs : loggedStep l logged = some logged') (hc : c.noteLabel logged.sys.driver l = some c') :
    Books logged' c' := by
  obtain ⟨sys, hsys, rfl⟩ := Option.map_eq_some_iff.mp hs
  cases l with
  | enter =>
    obtain rfl := Option.some.inj hc
    rw [Htstream.step] at hsys
    split at hsys
    · rename_i hready
      obtain rfl := Option.some.inj hsys
      have hout := h.outside (by rw [hready.1]; decide)
      simp only [reportedBy, workedBy, List.append_nil]
      refine ⟨h.reports, h.works, fun hnot => absurd rfl hnot, fun _ => ?_⟩
      show logged.sys.delivered ++ logged.sys.driver.reported.drop _ = _
      rw [List.drop_length, List.append_nil]
      exact hout
    · cases hsys
  | interrupted =>
    obtain rfl := Option.some.inj hc
    rw [Htstream.step] at hsys
    split at hsys
    · rename_i hphase
      obtain rfl := Option.some.inj hsys
      simp only [reportedBy, workedBy, List.append_nil]
      exact ⟨h.reports, h.works, fun _ => h.outside (by rw [hphase]; decide),
        fun hin => absurd hin (resume_phase _)⟩
    · cases hsys
  | copyInFault => exact absurd hok id
  | driver event =>
    obtain ⟨d, hd, rfl⟩ := Option.map_eq_some_iff.mp hsys
    simp only [workedBy, List.append_nil]
    exact books_driver h hstream hcard hd hc
  | leave copied =>
    obtain rfl := Option.some.inj hc
    cases copied with
    | false => exact absurd hok id
    | true =>
      rw [Htstream.step] at hsys
      split at hsys
      · rename_i rc hpc
        obtain rfl := Option.some.inj hsys
        simp only [reportedBy, List.append_nil]
        exact books_leave h hstream hpace hpc
      · cases hsys

end Books

/-! ## No block is reported twice -/

/-- Which buffers have been worked on, at each statement of the call.  They
are the flagged ones until they are recycled. -/
def WorkedAt (sys : Htstream.Sys) : BufferAB.Pc → Prop
  | .idle => sys.phase = .calling → ∀ buffer, sys.worked buffer = true →
      flagged sys.client.ops.recycle buffer = true
  | .recycle .bufferA => ∀ buffer, sys.worked buffer = true →
      flagged sys.driver.ops.recycle buffer = true
  | .recycle .bufferB => sys.worked .bufferA = false ∧
      (sys.worked .bufferB = true → flagged sys.driver.ops.recycle .bufferB = true)
  | _ => ∀ buffer, sys.worked buffer = false

/-- A block that has been reported stays in its buffer only until the client
has worked on it. -/
structure Once (sys : Htstream.Sys) : Prop where
  nodup : sys.driver.reported.Nodup
  again : ∀ buffer h, sys.driver.rchAB buffer = some h → h.block ∈ sys.driver.reported →
    sys.worked buffer = true ∨ sys.phase = .inIoctl ∧ h.block ∈ sys.reportedNow
  worked : WorkedAt sys sys.driver.pc

theorem once_initial (config : Config) : Once (Htstream.initial config) where
  nodup := List.nodup_nil
  again := fun _ _ h => by cases h
  worked := fun _ _ h => by cases h

section Once

variable {sys : Htstream.Sys} {logged : Logged} {c c' : Card} {d : Driver}

/-- The block that is about to be reported is new. -/
theorem Once.new_block (h : Once logged.sys) (hbooks : Books logged c)
    (hstream : StreamInv logged.sys) (hpace : PaceInv logged)
    (hcard : CardInv logged.sys.driver c) {second : Bool} {handler : Handler}
    (hpc : logged.sys.driver.pc = .fill second)
    (hslot : logged.sys.driver.rchAB logged.sys.driver.abNext = some handler) :
    handler.block ∉ logged.sys.driver.reported := by
  intro hmem
  have hphase : logged.sys.phase = .inIoctl := hstream.inIoctl (by rw [hpc]; simp)
  have hworked := h.worked
  have hlog := hpace.pace
  rw [hpc] at hworked hlog
  rcases h.again _ handler hslot hmem with hold | ⟨_, hnow⟩
  · rw [hworked] at hold
    cases hold
  · cases second with
    | false =>
      rw [hbooks.none_now hphase hlog.1] at hnow
      cases hnow
    | true =>
      -- The other buffer has been reported in this call, not this one.
      have hreports := hbooks.now hphase hlog.1
      have hentry : (c.target handler.block, BitVec.ofNat 32 (c.answered handler.block).length) ∈
          c.reports logged.sys.reportedNow :=
        List.mem_map_of_mem hnow
      rw [hreports, List.mem_singleton] at hentry
      have htarget := congrArg Prod.fst hentry
      rw [(hcard.slots _ handler hslot).2, hlog.2.1] at htarget
      exact otherBuffer_ne _ htarget

/-- Whatever has been worked on has been recycled by then. -/
def late : BufferAB.Pc → Bool
  | .idle | .recycle _ => false
  | .queue _ | .wait | .fill _ | .done _ => true

theorem workedAt_late {pc : BufferAB.Pc} (h : late pc = true) :
    WorkedAt sys pc = ∀ buffer, sys.worked buffer = false := by
  cases pc with
  | idle | recycle buffer => cases h
  | _ => rfl

/-- The driver reports nothing, and a handler that is new has a new block. -/
theorem Once.slots (h : Once sys) (hreported : d.reported = sys.driver.reported)
    (hrch : ∀ buffer new, d.rchAB buffer = some new →
      (∃ old, sys.driver.rchAB buffer = some old ∧ new.block = old.block) ∨
        new.block ∉ sys.driver.reported)
    (hworked : WorkedAt { sys with driver := d } d.pc) : Once { sys with driver := d } := by
  refine ⟨hreported ▸ h.nodup, ?_, hworked⟩
  intro buffer new hslot hmem
  have hmem : new.block ∈ sys.driver.reported := hreported ▸ hmem
  show _ ∨ sys.phase = .inIoctl ∧ new.block ∈ d.reported.drop sys.before
  rcases hrch buffer new hslot with ⟨old, hold, hblock⟩ | hnew
  · rw [hreported, hblock]
    exact h.again buffer old hold (hblock ▸ hmem)
  · exact absurd hmem hnew

/-- The call goes on behind its recycles. -/
theorem Once.later (h : Once sys) (hpc : late sys.driver.pc = true) (hlate : late d.pc = true)
    (hreported : d.reported = sys.driver.reported)
    (hrch : ∀ buffer new, d.rchAB buffer = some new →
      (∃ old, sys.driver.rchAB buffer = some old ∧ new.block = old.block) ∨
        new.block ∉ sys.driver.reported) : Once { sys with driver := d } := by
  refine h.slots hreported hrch ?_
  have hworked := h.worked
  rw [workedAt_late hpc] at hworked
  rw [workedAt_late hlate]
  exact hworked

/-- The buffer of the statement is recycled if it is flagged. -/
theorem Once.recycle (h : Once sys) {buffer : Buffer} (hpc : sys.driver.pc = .recycle buffer)
    (hd : sys.driver.go = some d) :
    Once { sys with driver := d, worked := afterEvent sys.driver sys.worked .go } := by
  have hworked := h.worked
  rw [hpc] at hworked
  simp only [Driver.go, hpc] at hd
  obtain rfl := Option.some.inj hd
  have hflags : sys.worked buffer = true → flagged sys.driver.ops.recycle buffer = true := by
    cases buffer with
    | bufferA => exact hworked .bufferA
    | bufferB => exact hworked.2
  have hself : afterEvent sys.driver sys.worked .go buffer = false := by
    simp only [afterEvent, hpc]
    split
    · exact Function.update_self _ _ _
    · rename_i hflag
      exact Bool.eq_false_iff.mpr fun hold => hflag (hflags hold)
  have hother : ∀ other, other ≠ buffer →
      afterEvent sys.driver sys.worked .go other = sys.worked other := by
    intro other hne
    simp only [afterEvent, hpc]
    split
    · exact Function.update_of_ne hne _ _
    · rfl
  have hslots : ∀ other handler, (if flagged sys.driver.ops.recycle buffer then
      sys.driver.recycle buffer else sys.driver).rchAB other = some handler →
      sys.driver.rchAB other = some handler ∧
        (other = buffer → flagged sys.driver.ops.recycle buffer = false) := by
    intro other handler hslot
    cases hflag : flagged sys.driver.ops.recycle buffer with
    | true =>
      rw [hflag, if_pos rfl] at hslot
      have hslot : Function.update sys.driver.rchAB buffer none other = some handler := hslot
      by_cases heq : other = buffer
      · rw [heq, Function.update_self] at hslot
        cases hslot
      · rw [Function.update_of_ne heq] at hslot
        exact ⟨hslot, fun h => absurd h heq⟩
    | false =>
      rw [hflag, if_neg Bool.false_ne_true] at hslot
      exact ⟨hslot, fun _ => rfl⟩
  have hreported : (if flagged sys.driver.ops.recycle buffer then
      sys.driver.recycle buffer else sys.driver).reported = sys.driver.reported := by
    split <;> rfl
  have hops : (if flagged sys.driver.ops.recycle buffer then
      sys.driver.recycle buffer else sys.driver).ops = sys.driver.ops := by
    split <;> rfl
  refine ⟨by rw [hreported]; exact h.nodup, ?_, ?_⟩
  · intro other handler hslot hmem
    obtain ⟨hold, hflag⟩ := hslots other handler hslot
    rw [hreported] at hmem
    rcases h.again other handler hold hmem with hw | ⟨hphase, hnow⟩
    · by_cases heq : other = buffer
      · rw [heq] at hw
        exact absurd ((hflag heq).symm.trans (hflags hw)) Bool.false_ne_true
      · exact Or.inl ((hother other heq).trans hw)
    · refine Or.inr ⟨hphase, ?_⟩
      show handler.block ∈ (ite _ _ _ : Driver).reported.drop sys.before
      rw [hreported]
      exact hnow
  · cases buffer with
    | bufferA =>
      refine ⟨hself, fun hw => ?_⟩
      show flagged (ite _ _ _ : Driver).ops.recycle .bufferB = true
      rw [hops]
      exact hworked .bufferB ((hother .bufferB (by decide)).symm.trans hw)
    | bufferB =>
      intro other
      cases other with
      | bufferA => exact (hother .bufferA (by decide)).trans hworked.1
      | bufferB => exact hself

/-- The block of the buffer that is next in turn is reported. -/
theorem Once.report (h : Once sys) (hbefore : sys.before ≤ sys.driver.reported.length)
    (hphase : sys.phase = .inIoctl) {handler : Handler}
    (hnew : handler.block ∉ sys.driver.reported) (hpc : late sys.driver.pc = true)
    {pc : BufferAB.Pc} (hlate : late pc = true) :
    Once { sys with
      driver := { sys.driver.report sys.driver.abNext handler with pc := pc } } := by
  refine ⟨?_, ?_, ?_⟩
  · exact List.nodup_append.mpr ⟨h.nodup, List.nodup_singleton _, fun k hk other hother heq =>
      hnew (List.mem_singleton.mp hother ▸ heq ▸ hk)⟩
  · intro buffer h' hslot' hmem
    have hnow : ∀ k, k ∈ sys.reportedNow ∨ k = handler.block →
        k ∈ (sys.driver.reported ++ [handler.block]).drop sys.before := by
      intro k hk
      rw [List.drop_append_of_le_length hbefore]
      exact List.mem_append.mpr (hk.imp_right List.mem_singleton.mpr)
    rcases List.mem_append.mp hmem with hold | hthis
    · exact (h.again buffer h' hslot' hold).imp_right fun hin => ⟨hin.1, hnow _ (Or.inl hin.2)⟩
    · exact Or.inr ⟨hphase, hnow _ (Or.inr (List.mem_singleton.mp hthis))⟩
  · have hworked := h.worked
    rw [workedAt_late hpc] at hworked
    rw [workedAt_late hlate]
    exact hworked

theorem Once.event (h : Once logged.sys) (hbooks : Books logged c) (hstream : StreamInv logged.sys)
    (hpace : PaceInv logged) (hcard : CardInv logged.sys.driver c) {event : Event}
    (hd : logged.sys.driver.step event = some d) :
    Once { logged.sys with
      driver := d, worked := afterEvent logged.sys.driver logged.sys.worked event } := by
  have hsame : ∀ {buffer} {new : Handler}, logged.sys.driver.rchAB buffer = some new →
      (∃ old, logged.sys.driver.rchAB buffer = some old ∧ new.block = old.block) ∨
        new.block ∉ logged.sys.driver.reported :=
    fun hslot => Or.inl ⟨_, hslot, rfl⟩
  cases event with
  | go =>
    cases hpc : logged.sys.driver.pc with
    | recycle buffer => exact h.recycle hpc hd
    | queue buffer =>
      have hworked : afterEvent logged.sys.driver logged.sys.worked .go = logged.sys.worked := by
        simp only [afterEvent, hpc]
      simp only [Driver.step, Driver.go, hpc] at hd
      split at hd
      · obtain rfl := Option.some.inj hd
        rw [hworked]
        refine h.later (by rw [hpc]; rfl) ?_ rfl fun _ _ hslot => hsame hslot
        cases buffer <;> rfl
      · cases hd
    | fill second =>
      have hworked : afterEvent logged.sys.driver logged.sys.worked .go = logged.sys.worked := by
        simp only [afterEvent, hpc]
      have hphase : logged.sys.phase = .inIoctl := hstream.inIoctl (by rw [hpc]; simp)
      simp only [Driver.step, Driver.go, hpc] at hd
      rw [hworked]
      split at hd
      · cases hd
      · rename_i handler hslot
        split at hd
        · obtain rfl := Option.some.inj hd
          refine h.report hstream.before hphase ?_ (by rw [hpc]; rfl) ?_
          · exact h.new_block hbooks hstream hpace hcard hpc hslot
          · cases second <;> rfl
        · obtain rfl := Option.some.inj hd
          exact h.later (by rw [hpc]; rfl) rfl rfl fun _ _ hslot => hsame hslot
    | _ =>
      simp only [Driver.step, Driver.go, hpc] at hd
      cases hd
  | post mfa stale =>
    simp only [Driver.step, Driver.post] at hd
    split at hd
    · rename_i buffer hpc
      split at hd
      · obtain rfl := Option.some.inj hd
        refine h.later (by rw [hpc]; rfl) (by cases buffer <;> rfl) rfl fun other new hslot => ?_
        have hslot : Function.update logged.sys.driver.rchAB buffer
          (some ⟨Driver.builtReturn stale, logged.sys.driver.requests⟩) other = some new := hslot
        by_cases heq : other = buffer
        · rw [heq, Function.update_self] at hslot
          rw [← Option.some.inj hslot]
          exact Or.inr fun hmem => absurd (hcard.gone _ hmem).1 (Nat.lt_irrefl _)
        · rw [Function.update_of_ne heq] at hslot
          exact hsame hslot
      · cases hd
    · cases hd
  | wake =>
    simp only [Driver.step, Driver.wake] at hd
    split at hd
    · rename_i hwait
      obtain rfl := Option.some.inj hd
      exact h.later (by rw [hwait.1]; rfl) rfl rfl fun _ _ hslot => hsame hslot
    · cases hd
  | timeout | signal =>
    simp only [Driver.step, Driver.endWait] at hd
    split at hd
    · rename_i hwait
      obtain rfl := Option.some.inj hd
      exact h.later (by rw [hwait]; rfl) rfl rfl fun _ _ hslot => hsame hslot
    · cases hd
  | reply n start nsamples =>
    obtain ⟨k, hn, rfl⟩ := Option.map_eq_some_iff.mp hd
    refine h.slots rfl (fun buffer new hslot => ?_) h.worked
    obtain ⟨old, hold, hblock, _⟩ := BufferAB.deliver_eq_some hslot
    exact Or.inl ⟨old, hold, hblock⟩

/-- After a success the buffers that the call has reported are those that the
client has worked on, and gives back. -/
theorem Once.leave_ok (h : Once logged.sys) (hbooks : Books logged c)
    (hstream : StreamInv logged.sys) (hpace : PaceInv logged)
    (hcard : CardInv logged.sys.driver c) (hpc : logged.sys.driver.pc = .done .ok) :
    Once (logged.sys.leave .ok true) := by
  have hphase : logged.sys.phase = .inIoctl := hstream.inIoctl (by rw [hpc]; simp)
  have hworked := h.worked
  have hlog := hpace.pace
  rw [hpc] at hworked hlog
  have hnow := hbooks.now hphase hlog.1
  rw [Sys.leave, show outcome .ok true = .success from rfl, if_pos rfl]
  refine ⟨h.nodup, ?_, ?_⟩
  · intro buffer handler hslot hmem
    refine Or.inl ((Bool.or_eq_true _ _).mpr (Or.inr (decide_eq_true ?_)))
    rcases h.again buffer handler hslot hmem with hold | ⟨_, hin⟩
    · rw [hworked] at hold
      cases hold
    · have hentry : (c.target handler.block, BitVec.ofNat 32 (c.answered handler.block).length) ∈
          logged.sys.worksOf := hnow ▸ List.mem_map_of_mem hin
      obtain ⟨worked, hmem, heq⟩ := List.mem_map.mp hentry
      have htarget := congrArg Prod.fst heq
      rw [(hcard.slots buffer handler hslot).2] at htarget
      have htarget : worked = buffer := htarget
      rw [htarget] at hmem
      exact hmem
  · intro _ buffer hw
    rcases (Bool.or_eq_true _ _).mp hw with hold | hnew
    · rw [show logged.sys.worked buffer = false from hworked buffer] at hold
      cases hold
    · show flagged (Action.afterIoctl _ _ _).1.ops.recycle buffer = true
      rw [afterIoctl_success, flagged_consume]
      exact hnew

/-- A call that fails has reported nothing. -/
theorem Once.leave_failed (h : Once logged.sys) (hbooks : Books logged c)
    (hstream : StreamInv logged.sys) (hpace : PaceInv logged) {rc : BufferAB.Rc}
    (hpc : logged.sys.driver.pc = .done rc) (hrc : rc ≠ .ok) :
    Once (logged.sys.leave rc true) := by
  have hphase : logged.sys.phase = .inIoctl := hstream.inIoctl (by rw [hpc]; simp)
  have hworked := h.worked
  have hlog := hpace.pace
  rw [hpc] at hworked hlog
  have hnone : logged.sys.reportedNow = [] := by
    refine hbooks.none_now hphase ?_
    cases rc with
    | ok => exact absurd rfl hrc
    | timedOut | interrupted => exact hlog.1
  have hfail : outcome rc true ≠ .success := by
    cases rc with
    | ok => exact absurd rfl hrc
    | timedOut | interrupted => decide
  rw [Sys.leave, if_neg hfail]
  refine ⟨h.nodup, ?_, ?_⟩
  · intro buffer handler hslot hmem
    rcases h.again buffer handler hslot hmem with hold | ⟨_, hin⟩
    · exact Or.inl hold
    · rw [hnone] at hin
      cases hin
  · intro _ buffer hw
    exact absurd ((hworked buffer).symm.trans hw) Bool.false_ne_true

theorem once_step {l : Htstream.Label} {logged' : Logged} (h : Once logged.sys)
    (hbooks : Books logged c) (hstream : StreamInv logged.sys) (hpace : PaceInv logged)
    (hcard : CardInv logged.sys.driver c) (hok : NoFault l logged)
    (hs : loggedStep l logged = some logged') : Once logged'.sys := by
  obtain ⟨sys, hsys, rfl⟩ := Option.map_eq_some_iff.mp hs
  cases l with
  | enter =>
    rw [Htstream.step] at hsys
    split at hsys
    · rename_i hready
      obtain rfl := Option.some.inj hsys
      have hidle := hstream.idle (by rw [hready.1]; decide)
      have hworked := h.worked
      rw [hidle] at hworked
      refine ⟨h.nodup, fun buffer handler hslot hmem => ?_, hworked hready.1⟩
      rcases h.again buffer handler hslot hmem with hold | ⟨hphase, _⟩
      · exact Or.inl hold
      · rw [hready.1] at hphase
        cases hphase
    · cases hsys
  | interrupted =>
    rw [Htstream.step] at hsys
    split at hsys
    · rename_i hphase
      obtain rfl := Option.some.inj hsys
      have hidle := hstream.idle (by rw [hphase]; decide)
      have hworked := h.worked
      rw [hidle] at hworked
      refine ⟨h.nodup, fun buffer handler hslot hmem => ?_, ?_⟩
      · rcases h.again buffer handler hslot hmem with hold | ⟨hin, _⟩
        · exact Or.inl hold
        · rw [hphase] at hin
          cases hin
      · show WorkedAt _ logged.sys.driver.pc
        rw [hidle]
        intro _ buffer hw
        exact hworked hphase buffer hw
    · cases hsys
  | copyInFault => exact absurd hok id
  | driver event =>
    obtain ⟨d, hd, rfl⟩ := Option.map_eq_some_iff.mp hsys
    exact h.event hbooks hstream hpace hcard hd
  | leave copied =>
    cases copied with
    | false => exact absurd hok id
    | true =>
      rw [Htstream.step] at hsys
      split at hsys
      · rename_i rc hpc
        obtain rfl := Option.some.inj hsys
        by_cases hrc : rc = .ok
        · rw [hrc] at hpc ⊢
          exact h.leave_ok hbooks hstream hpace hcard hpc
        · exact h.leave_failed hbooks hstream hpace hpc hrc
      · cases hsys

end Once

end Acq200.Recorder
