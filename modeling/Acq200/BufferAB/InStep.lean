import Mathlib.Data.Int.ModEq
import Acq200.BufferAB.Htstream

/-!
# The two cursors of the buffer swing

`htstream` keeps in `next` the buffer that it works on next, and the driver
keeps in `ab_next` the buffer that it reports next.  Nothing passes between
them but the flags in `ds.full`.  Each side toggles its cursor once for
every buffer, on a condition of its own.

A run is logged here with what the driver reports and what the client hands
to `doWork`, each with its length.  `client_in_step` proves for every run
with no fault in a user copy that the cursors agree at every call, and that
a successful call hands over exactly what was reported in it, in the order
of the reports.  The variable `total` is an `unsigned long long`, so it is
the number of bytes reported modulo `2 ^ 64`.  `total_overflows` is a run
in which the two differ.
-/

namespace Acq200.Htstream

open Acq200.Lib
open Acq200.Rch (Buffer)
open Acq200.BufferAB (Driver Ops Handler Rc Event flagged bufferFlag otherBuffer FULL_EOF
  flagged_zero flagged_report eq_or_eq_other otherBuffer_ne
  otherBuffer_otherBuffer)

/-! ## Logged runs -/

/-- A buffer and the length of its data. -/
abbrev Report := Buffer × BitVec 32

structure Logged where
  sys : Sys
  /-- What `fillDeviceStatus` has reported. -/
  reports : List Report
  /-- What has been handed to `doWork`. -/
  works : List Report

/-- The report that the event makes. -/
def reportOf (d : Driver) : Event → List Report
  | .go =>
    match d.pc, d.rchAB d.abNext with
    | .fill _, some h =>
      if h.rchReturn.valid ≠ 0 then [(d.abNext, h.rchReturn.nbytes)] else []
    | _, _ => []
  | _ => []

/-- The client with the status that the call copies back. -/
def Sys.informed (s : Sys) : Action := { s.client with ops := s.driver.ops }

/-- The arguments of `doWork` after a call that succeeds. -/
def Sys.worksOf (s : Sys) : List Report :=
  s.informed.works.map fun buffer => (buffer, s.driver.ops.len buffer)

def reportedBy (s : Sys) : Label → List Report
  | .driver event => reportOf s.driver event
  | _ => []

def workedBy (s : Sys) : Label → List Report
  | .leave true => if s.driver.pc = .done .ok then s.worksOf else []
  | _ => []

def loggedStep (l : Label) (s : Logged) : Option Logged :=
  (step l s.sys).map fun sys =>
    { sys := sys
      reports := s.reports ++ reportedBy s.sys l
      works := s.works ++ workedBy s.sys l }

def loggedInitial (config : Config) : Logged :=
  { sys := initial config, reports := [], works := [] }

/-- The number of bytes in a list of reports. -/
def bytes (reports : List Report) : Nat := (reports.map fun r => r.2.toNat).sum

/-! ## The contract -/

/-- No user copy faults. -/
def NoFault : Label → Logged → Prop
  | .copyInFault, _ | .leave false, _ => False
  | _, _ => True

instance : ∀ (l : Label) (s : Logged), Decidable (NoFault l s)
  | .copyInFault, _ | .leave false, _ => inferInstanceAs (Decidable False)
  | .leave true, _ | .enter, _ | .interrupted, _ | .driver _, _ =>
    inferInstanceAs (Decidable True)

structure InStep (s : Logged) : Prop where
  /-- The cursors agree whenever the client calls. -/
  next : s.sys.phase = .calling → s.sys.client.next = s.sys.driver.abNext
  /-- A call that succeeds hands over what it has reported. -/
  call : s.sys.driver.pc = .done .ok →
    s.reports = s.works ++ s.sys.worksOf ∧
      ∀ buffer, buffer ∈ s.sys.informed.works ↔
        flagged s.sys.driver.ops.full buffer = true
  worked : s.sys.phase ≠ .inIoctl → s.works = s.reports
  total : s.sys.phase ≠ .inIoctl →
    s.sys.client.total = BitVec.ofNat 64 (bytes s.reports)

/-! ## The invariant -/

/-- The cursors and the logs at each statement of the call. -/
def Pace (s : Logged) : BufferAB.Pc → Prop
  | .fill false =>
    s.reports = s.works ∧ s.sys.driver.abNext = s.sys.client.next ∧
      ∀ buffer, flagged s.sys.driver.ops.full buffer = false
  | .fill true =>
    s.reports = s.works ++
        [(s.sys.client.next, s.sys.driver.ops.len s.sys.client.next)] ∧
      s.sys.driver.abNext = otherBuffer s.sys.client.next ∧
      ∀ buffer, flagged s.sys.driver.ops.full buffer
        = decide (buffer = s.sys.client.next)
  | .done .ok =>
    s.reports = s.works ++ s.sys.worksOf ∧
      s.sys.driver.abNext = s.sys.informed.consume.next ∧
      ∀ buffer, buffer ∈ s.sys.informed.works ↔
        flagged s.sys.driver.ops.full buffer = true
  | _ => s.reports = s.works ∧ s.sys.driver.abNext = s.sys.client.next

structure PaceInv (s : Logged) : Prop where
  pace : Pace s s.sys.driver.pc
  idle : s.sys.phase ≠ .inIoctl → s.sys.driver.pc = .idle
  total : s.sys.client.total = BitVec.ofNat 64 (bytes s.works)

theorem paceInv_initial (config : Config) : PaceInv (loggedInitial config) where
  pace := ⟨rfl, rfl⟩
  idle := fun _ => rfl
  total := rfl

theorem PaceInv.inStep {s : Logged} (h : PaceInv s) : InStep s := by
  have hpace : s.sys.phase ≠ .inIoctl →
      s.reports = s.works ∧ s.sys.driver.abNext = s.sys.client.next := by
    intro hphase
    have hold := h.pace
    rw [h.idle hphase] at hold
    exact hold
  refine ⟨?_, ?_, ?_, ?_⟩
  · intro hphase
    exact (hpace (by rw [hphase]; decide)).2.symm
  · intro hpc
    have hold := h.pace
    rw [hpc] at hold
    exact ⟨hold.1, hold.2.2⟩
  · intro hphase
    exact (hpace hphase).1.symm
  · intro hphase
    rw [(hpace hphase).1]
    exact h.total

/-! ## The client after a call -/

section Consume

variable {a : Action}

theorem works_none (h : flagged a.ops.full a.next = false) : a.works = [] := by
  rw [Action.works, if_neg (by rw [h]; decide)]

theorem works_one (h : flagged a.ops.full a.next = true)
    (hother : flagged a.ops.full (otherBuffer a.next) = false) :
    a.works = [a.next] := by
  rw [Action.works, if_pos h, if_neg (by rw [hother]; decide)]

theorem works_both (h : flagged a.ops.full a.next = true)
    (hother : flagged a.ops.full (otherBuffer a.next) = true) :
    a.works = [a.next, otherBuffer a.next] := by
  rw [Action.works, if_pos h, if_pos hother]

/-- The client toggles its cursor once for each buffer that it works on. -/
theorem consume_next (a : Action) :
    a.consume.next = if a.works.length = 1 then otherBuffer a.next else a.next := by
  cases hfirst : flagged a.ops.full a.next with
  | false => simp [Action.consume, Action.works, hfirst]
  | true =>
    cases hsecond : flagged a.ops.full (otherBuffer a.next) with
    | false => simp [Action.consume, Action.works, Action.work, hfirst, hsecond]
    | true =>
      simp [Action.consume, Action.works, Action.work, hfirst, hsecond,
        otherBuffer_otherBuffer]

/-- The client adds up the lengths of the buffers that it works on. -/
theorem consume_total (a : Action) {n : Nat} (h : a.total = BitVec.ofNat 64 n) :
    a.consume.total = BitVec.ofNat 64
      (n + (a.works.map fun buffer => (a.ops.len buffer).toNat).sum) := by
  have hlen : ∀ (m : Nat) (buffer : Buffer),
      BitVec.ofNat 64 m + (a.ops.len buffer).setWidth 64
        = BitVec.ofNat 64 (m + (a.ops.len buffer).toNat) := by
    intro m buffer
    rw [← BitVec.ofNat_toNat, BitVec.ofNat_add]
  cases hfirst : flagged a.ops.full a.next with
  | false =>
    rw [works_none hfirst]
    simpa [Action.consume, hfirst] using h
  | true =>
    cases hsecond : flagged a.ops.full (otherBuffer a.next) with
    | false =>
      rw [works_one hfirst hsecond]
      simp only [Action.consume, Action.work, hfirst, hsecond, if_true, h, hlen]
      simp
    | true =>
      rw [works_both hfirst hsecond]
      simp only [Action.consume, Action.work, hfirst, hsecond, if_true, h, hlen]
      simp [Nat.add_assoc]

end Consume

/-! ## Steps -/

section Steps

variable {s : Logged} {d : Driver}

/-- An event of the driver outside `fillDeviceStatus`. -/
theorem PaceInv.move (h : PaceInv s) {worked : Buffer → Bool}
    (hidle : s.sys.driver.pc = .idle → d.pc = .idle)
    (hpace : Pace { s with sys := { s.sys with driver := d, worked := worked } } d.pc) :
    PaceInv { s with sys := { s.sys with driver := d, worked := worked } } where
  pace := hpace
  idle := fun hphase => hidle (h.idle hphase)
  total := h.total

/-- The call has reported the buffers of `worked`, which are flagged. -/
theorem pace_done {worked : List Buffer} (hworks : s.sys.informed.works = worked)
    (hlog : s.reports = s.works ++
      worked.map fun buffer => (buffer, s.sys.driver.ops.len buffer))
    (hnext : s.sys.driver.abNext = if worked.length = 1 then
      otherBuffer s.sys.client.next else s.sys.client.next)
    (hflag : ∀ buffer, buffer ∈ worked ↔
      flagged s.sys.driver.ops.full buffer = true) : Pace s (.done .ok) := by
  refine ⟨?_, ?_, ?_⟩
  · rw [Sys.worksOf, hworks]
    exact hlog
  · rw [consume_next, hworks]
    exact hnext
  · rw [hworks]
    exact hflag

/-- A buffer that has nothing to report ends the call. -/
theorem Pace.unreported {second : Bool} (hpace : Pace s (.fill second)) :
    Pace s (.done .ok) := by
  cases second with
  | false =>
    obtain ⟨hlog, hnext, hnone⟩ := hpace
    refine pace_done (works_none (hnone _)) ?_ hnext ?_
    · exact hlog.trans (List.append_nil _).symm
    · intro buffer
      refine ⟨(fun hm => by cases hm), fun hflag => ?_⟩
      exact absurd ((hnone buffer).symm.trans hflag) (by decide)
  | true =>
    obtain ⟨hlog, hnext, hone⟩ := hpace
    have hworks : s.sys.informed.works = [s.sys.client.next] := by
      refine works_one ?_ ?_
      · exact (hone _).trans (decide_eq_true rfl)
      · exact (hone _).trans (decide_eq_false (otherBuffer_ne _))
    refine pace_done hworks hlog hnext ?_
    intro buffer
    rw [hone, List.mem_singleton, decide_eq_true_iff]

/-- The status of the buffer that is next in turn. -/
theorem paceInv_fill {second : Bool} {worked : Buffer → Bool} (h : PaceInv s)
    (hpc : s.sys.driver.pc = .fill second) (hd : s.sys.driver.go = some d) :
    PaceInv
      { s with
        sys := { s.sys with driver := d, worked := worked }
        reports := s.reports ++ reportOf s.sys.driver .go } := by
  have hpace := h.pace
  rw [hpc] at hpace
  have hphase : s.sys.phase = .inIoctl := by
    by_contra hout
    rw [h.idle hout] at hpc
    cases hpc
  simp only [Driver.go, hpc] at hd
  cases hslot : s.sys.driver.rchAB s.sys.driver.abNext with
  | none =>
    rw [hslot] at hd
    cases hd
  | some handler =>
    simp only [hslot] at hd
    simp only [reportOf, hpc, hslot]
    split at hd
    · rename_i hvalid
      rw [if_pos hvalid]
      obtain rfl := Option.some.inj hd
      refine ⟨?_, fun hout => absurd hphase hout, h.total⟩
      have hfull := flagged_report s.sys.driver s.sys.driver.abNext handler
      cases second with
      | false =>
        obtain ⟨hlog, hnext, hnone⟩ := hpace
        refine ⟨?_, ?_, ?_⟩
        · show s.reports ++ _ = s.works ++ [(s.sys.client.next,
            Function.update s.sys.driver.ops.len s.sys.driver.abNext
              handler.rchReturn.nbytes s.sys.client.next)]
          rw [hlog, hnext, Function.update_self]
        · show otherBuffer s.sys.driver.abNext = _
          rw [hnext]
        · intro buffer
          rw [← hnext]
          refine (hfull buffer).trans ?_
          rw [hnone buffer, Bool.false_or]
      | true =>
        obtain ⟨hlog, hnext, hone⟩ := hpace
        have hboth : ∀ buffer,
            flagged (s.sys.driver.report s.sys.driver.abNext handler).ops.full buffer
              = true := by
          intro buffer
          rw [hfull, hone, hnext, ← Bool.decide_or]
          exact decide_eq_true (eq_or_eq_other _ _)
        refine pace_done (works_both (hboth _) (hboth _)) ?_ ?_ ?_
        · show s.reports ++ _ = s.works ++ List.map (fun buffer => (buffer,
            Function.update s.sys.driver.ops.len s.sys.driver.abNext
              handler.rchReturn.nbytes buffer)) _
          rw [hlog, hnext]
          simp [Sys.informed, Function.update_of_ne (otherBuffer_ne s.sys.client.next).symm]
        · show otherBuffer s.sys.driver.abNext = _
          rw [hnext]
          exact otherBuffer_otherBuffer _
        · intro buffer
          refine ⟨fun _ => hboth buffer, fun _ => ?_⟩
          rcases eq_or_eq_other s.sys.client.next buffer with rfl | rfl
          · exact List.mem_cons_self
          · exact List.mem_cons_of_mem _ List.mem_cons_self
    · rename_i hvalid
      rw [if_neg hvalid, List.append_nil]
      obtain rfl := Option.some.inj hd
      exact h.move (fun hidle => by rw [hpc] at hidle; cases hidle) hpace.unreported

theorem paceInv_go (h : PaceInv s) (hd : s.sys.driver.go = some d)
    {worked : Buffer → Bool} :
    PaceInv
      { s with
        sys := { s.sys with driver := d, worked := worked }
        reports := s.reports ++ reportOf s.sys.driver .go } := by
  have hpace := h.pace
  rcases hpc : s.sys.driver.pc with _ | b | b | _ | second | rc
  · simp only [Driver.go, hpc] at hd
    cases hd
  · rw [hpc] at hpace
    simp only [Driver.go, hpc] at hd
    obtain rfl := Option.some.inj hd
    simp only [reportOf, hpc, List.append_nil]
    refine h.move (fun hidle => by rw [hpc] at hidle; cases hidle) ?_
    split <;> cases b <;> exact hpace
  · rw [hpc] at hpace
    simp only [Driver.go, hpc] at hd
    split at hd
    · obtain rfl := Option.some.inj hd
      simp only [reportOf, hpc, List.append_nil]
      refine h.move (fun hidle => by rw [hpc] at hidle; cases hidle) ?_
      cases b <;> exact hpace
    · cases hd
  · simp only [Driver.go, hpc] at hd
    cases hd
  · exact paceInv_fill h hpc hd
  · simp only [Driver.go, hpc] at hd
    cases hd

/-- A reply leaves the cursors and the flags alone. -/
theorem pace_reply {pc : BufferAB.Pc} {slots : Buffer → Option Handler}
    {unanswered : List Nat} (h : Pace s pc) :
    Pace { s with sys := { s.sys with driver := { s.sys.driver with
      rchAB := slots, unanswered := unanswered } } } pc := by
  rcases pc with _ | _ | _ | _ | (_ | _) | (_ | _ | _) <;> exact h

theorem paceInv_driver {event : Event} {worked : Buffer → Bool} (h : PaceInv s)
    (hd : s.sys.driver.step event = some d) :
    PaceInv
      { s with
        sys := { s.sys with driver := d, worked := worked }
        reports := s.reports ++ reportOf s.sys.driver event } := by
  have hpace := h.pace
  cases event with
  | go => exact paceInv_go h hd
  | post mfa stale =>
    simp only [reportOf, List.append_nil]
    simp only [Driver.step, Driver.post] at hd
    split at hd
    · rename_i b hpc
      rw [hpc] at hpace
      split at hd
      · obtain rfl := Option.some.inj hd
        refine h.move (fun hidle => by rw [hpc] at hidle; cases hidle) ?_
        cases b <;> exact hpace
      · cases hd
    · cases hd
  | wake =>
    simp only [reportOf, List.append_nil]
    simp only [Driver.step, Driver.wake] at hd
    split at hd
    · rename_i hwait
      rw [hwait.1] at hpace
      obtain rfl := Option.some.inj hd
      refine h.move (fun hidle => by rw [hwait.1] at hidle; cases hidle) ?_
      exact ⟨hpace.1, hpace.2, flagged_zero⟩
    · cases hd
  | timeout | signal =>
    simp only [reportOf, List.append_nil]
    simp only [Driver.step, Driver.endWait] at hd
    split at hd
    · rename_i hwait
      rw [hwait] at hpace
      obtain rfl := Option.some.inj hd
      exact h.move (fun hidle => by rw [hwait] at hidle; cases hidle) hpace
    · cases hd
  | reply n start nsamples =>
    simp only [reportOf, List.append_nil]
    obtain ⟨block, _, rfl⟩ := Option.map_eq_some_iff.mp hd
    exact h.move id (pace_reply hpace)

/-- A call that fails leaves the client where it was. -/
theorem afterIoctl_failed_next (config : Config) (a : Action) {result : Outcome}
    (h : result ≠ .success) :
    (a.afterIoctl config result).1.next = a.next ∧
      (a.afterIoctl config result).1.total = a.total := by
  cases result with
  | success => exact absurd rfl h
  | timedOut =>
    rw [Action.afterIoctl]
    split <;> exact ⟨rfl, rfl⟩
  | otherError => exact ⟨rfl, rfl⟩

theorem afterIoctl_success_next (config : Config) (a : Action) :
    (a.afterIoctl config .success).1.next = a.consume.next ∧
      (a.afterIoctl config .success).1.total = a.consume.total := by
  rw [Action.afterIoctl]
  split <;> exact ⟨rfl, rfl⟩

/-- The client goes on after its ioctl. -/
theorem paceInv_resume {result : Outcome} (hpc : s.sys.driver.pc = .idle)
    (hlog : s.reports = s.works)
    (hnext : s.sys.driver.abNext
      = (s.sys.client.afterIoctl s.sys.config result).1.next)
    (htotal : (s.sys.client.afterIoctl s.sys.config result).1.total
      = BitVec.ofNat 64 (bytes s.works)) :
    PaceInv { s with sys := s.sys.resume result } := by
  refine ⟨?_, fun _ => hpc, htotal⟩
  show Pace _ s.sys.driver.pc
  rw [hpc]
  exact ⟨hlog, hnext⟩

theorem paceInv_leave_failed {rc : Rc} {copied : Bool} (h : PaceInv s)
    (hpc : s.sys.driver.pc = .done rc) (hrc : rc ≠ .ok) :
    PaceInv { s with sys := s.sys.leave rc copied } := by
  have hpace := h.pace
  rw [hpc] at hpace
  have hold : s.reports = s.works ∧ s.sys.driver.abNext = s.sys.client.next := by
    cases rc with
    | ok => exact absurd rfl hrc
    | timedOut | interrupted => exact hpace
  have hfail : outcome rc copied ≠ .success := by
    cases rc with
    | ok => exact absurd rfl hrc
    | timedOut | interrupted => rw [outcome]; decide
  obtain ⟨hnext, htotal⟩ := afterIoctl_failed_next s.sys.config s.sys.client hfail
  rw [Sys.leave, if_neg hfail]
  exact @paceInv_resume
    { s with sys := { s.sys with
      driver := { s.sys.driver with pc := .idle }, busyFree := true } } _ rfl hold.1
    (hold.2.trans hnext.symm) (htotal.trans h.total)

theorem paceInv_leave_success (h : PaceInv s) (hpc : s.sys.driver.pc = .done .ok) :
    PaceInv
      { s with
        sys := s.sys.leave .ok true
        works := s.works ++ s.sys.worksOf } := by
  have hpace := h.pace
  rw [hpc] at hpace
  obtain ⟨hlog, hnext, _⟩ := hpace
  obtain ⟨hcursor, htotal⟩ :=
    afterIoctl_success_next s.sys.config s.sys.informed
  have hbytes : bytes (s.works ++ s.sys.worksOf) = bytes s.works +
      (s.sys.informed.works.map fun buffer => (s.sys.driver.ops.len buffer).toNat).sum := by
    simp [bytes, Sys.worksOf, Function.comp_def]
  rw [Sys.leave, show outcome .ok true = .success from rfl, if_pos rfl]
  refine @paceInv_resume
    { s with
      sys := { s.sys with
        client := s.sys.informed
        driver := { s.sys.driver with pc := .idle }
        busyFree := true
        worked := _
        delivered := _ }
      works := s.works ++ s.sys.worksOf } _ rfl hlog (hnext.trans hcursor.symm)
    (htotal.trans ?_)
  rw [hbytes]
  exact consume_total s.sys.informed h.total

end Steps

/-! ## Runs -/

theorem paceInv_step (l : Label) (s s' : Logged) (h : PaceInv s) (hok : NoFault l s)
    (hs : loggedStep l s = some s') : PaceInv s' := by
  obtain ⟨sys, hsys, rfl⟩ := Option.map_eq_some_iff.mp hs
  have hpace := h.pace
  cases l with
  | enter =>
    rw [step] at hsys
    split at hsys
    · rename_i hready
      obtain rfl := Option.some.inj hsys
      rw [h.idle (by rw [hready.1]; decide)] at hpace
      simp only [reportedBy, workedBy, List.append_nil]
      exact ⟨hpace, fun hout => absurd rfl hout, h.total⟩
    · cases hsys
  | interrupted =>
    rw [step] at hsys
    split at hsys
    · rename_i hphase
      obtain rfl := Option.some.inj hsys
      have hidle := h.idle (by rw [hphase]; decide)
      rw [hidle] at hpace
      simp only [reportedBy, workedBy, List.append_nil]
      exact paceInv_resume hidle hpace.1 hpace.2 h.total
    · cases hsys
  | copyInFault => exact absurd hok id
  | driver event =>
    obtain ⟨d, hd, rfl⟩ := Option.map_eq_some_iff.mp hsys
    simp only [workedBy, List.append_nil]
    exact paceInv_driver h hd
  | leave copied =>
    cases copied with
    | false => exact absurd hok id
    | true =>
      rw [step] at hsys
      split at hsys
      · rename_i rc hpc
        obtain rfl := Option.some.inj hsys
        simp only [reportedBy, workedBy, List.append_nil, hpc]
        by_cases hrc : rc = .ok
        · rw [hrc] at hpc ⊢
          rw [if_pos rfl]
          exact paceInv_leave_success h hpc
        · rw [if_neg (by simpa using hrc), List.append_nil]
          exact paceInv_leave_failed h hpc hrc
      · cases hsys

/-- In every run with no fault in a user copy the client and the driver are
in step.  The total is exact as long as it fits. -/
theorem client_in_step {config : Config} {labels : List Label} {s : Logged}
    (hok : RunMeets loggedStep NoFault labels (loggedInitial config))
    (hrun : runFrom loggedStep labels (loggedInitial config) = some s) :
    InStep s ∧ (s.sys.phase ≠ .inIoctl → bytes s.reports < 2 ^ 64 →
      s.sys.client.total.toNat = bytes s.reports) := by
  have hinv := runFrom_inv paceInv_step (paceInv_initial config) hok hrun
  refine ⟨hinv.inStep, fun hphase hlt => ?_⟩
  rw [hinv.inStep.total hphase, BitVec.toNat_ofNat]
  exact Nat.mod_eq_of_lt hlt

/-- After its first call, which reports buffer A, the client calls again and
the call times out. -/
theorem client_in_step_timedOut :
    ∃ s, runFrom loggedStep (firstCall ++ timedOutCall) (loggedInitial ⟨50, 60⟩) = some s ∧
      s.works = [(.bufferA, 1024)] ∧ s.sys.client.next = .bufferB ∧ InStep s :=
  ⟨_, rfl, rfl, rfl,
    (@client_in_step ⟨50, 60⟩ (firstCall ++ timedOutCall) _ (by decide) rfl).1⟩

/-! ## A total that does not fit -/

/-- A call that queues both buffers and gets both replies, with as many bytes
as a reply can give. -/
def bothReplies : List Label :=
  [.enter, .driver .go, .driver .go, .driver (.post true 0), .driver (.post true 0),
    .driver (.reply 0 0 0x7fffffff), .driver (.reply 0 0 0x7fffffff)]

/-- Both buffers are reported and worked on. -/
def bothReports : List Label :=
  [.driver .wake, .driver .go, .driver .go, .leave true]

/-- The client is about to give both buffers back. -/
structure Between (s : Logged) : Prop where
  phase : s.sys.phase = .calling
  busyFree : s.sys.busyFree = true
  pc : s.sys.driver.pc = .idle
  next : s.sys.client.next = .bufferA
  abNext : s.sys.driver.abNext = .bufferA
  recycle : s.sys.client.ops.recycle = 3#32
  unanswered : s.sys.driver.unanswered = []

/-- What a reply leaves in the handler of a buffer. -/
def filledReturn : Rch.RchReturn :=
  Rch.Device.setSamples (Driver.builtReturn 0) 0 0x7fffffff

/-- The driver waits and both buffers are full. -/
structure BothFull (s : Logged) : Prop where
  pc : s.sys.driver.pc = .wait
  next : s.sys.client.next = .bufferA
  abNext : s.sys.driver.abNext = .bufferA
  full : ∀ buffer, ∃ block, s.sys.driver.rchAB buffer = some ⟨filledReturn, block⟩
  unanswered : s.sys.driver.unanswered = []

theorem Between.bothFull {s : Logged} (h : Between s) :
    ∃ s', runFrom loggedStep bothReplies s = some s' ∧ BothFull s' ∧
      s'.reports = s.reports := by
  obtain ⟨⟨config, ⟨⟨recycle, timeout, full, sids, lens⟩, next, total, syscalls, timeouts,
    started⟩, ⟨rchAB, abNext, sid, ops, pc, requests, posted, unanswered, reported⟩,
    phase, busyFree, worked, before, delivered⟩, reports, works⟩ := s
  obtain ⟨rfl, rfl, rfl, rfl, rfl, rfl, rfl⟩ := h
  have hflag : ∀ b, flagged 3#32 b = true := by
    intro b
    cases b <;> decide
  simp only [bothReplies, BitVec.ofNat_eq_ofNat, runFrom, loggedStep, step, and_self,
    ↓reduceIte, Option.map_some, Driver.step, Driver.go, Driver.recycle,
    Driver.afterRecycle, Driver.afterQueue, Option.map_map, Driver.post,
    Option.isNone_iff_eq_none, Driver.bufferABQueue, Driver.reply, List.eraseIdx_zero,
    Option.bind_fun_some, Option.bind_some, hflag, Function.comp_apply, reduceCtorEq,
    ne_eq, not_false_eq_true, Function.update_of_ne, Function.update_self,
    List.nil_append, List.cons_append, List.tail_cons, List.length_cons,
    List.length_nil, Nat.zero_add, Nat.reduceAdd, Nat.zero_lt_succ, getElem?_pos,
    List.getElem_cons_zero, Nat.lt_add_one, Option.some.injEq, exists_eq_left']
  refine ⟨⟨rfl, rfl, rfl, fun buffer => ?_, rfl⟩, ?_⟩
  · cases buffer with
    | bufferA =>
      refine ⟨requests, ?_⟩
      simp [Driver.deliver, filledReturn]
    | bufferB =>
      refine ⟨requests + 1, ?_⟩
      simp [Driver.deliver, filledReturn]
  · simp [reportedBy, reportOf]

theorem BothFull.between {s : Logged} (h : BothFull s) :
    ∃ s', runFrom loggedStep bothReports s = some s' ∧ Between s' ∧
      bytes s'.reports = bytes s.reports + 0x1fffffffc := by
  obtain ⟨⟨config, ⟨cops, next, total, syscalls, timeouts,
    started⟩, ⟨rchAB, abNext, sid, ops, pc, requests, posted, unanswered, reported⟩,
    phase, busyFree, worked, before, delivered⟩, reports, works⟩ := s
  obtain ⟨rfl, rfl, rfl, hfull, rfl⟩ := h
  obtain ⟨a, ha⟩ := hfull .bufferA
  obtain ⟨b, hb⟩ := hfull .bufferB
  dsimp only at ha hb
  have hvalid : filledReturn.valid ≠ 0 := by decide
  have hflag : ∀ b, flagged (Driver.fullFlags .bufferA filledReturn |||
      Driver.fullFlags .bufferB filledReturn) b = true := by
    intro b
    cases b <;> decide
  have heof : (Driver.fullFlags .bufferA filledReturn |||
      Driver.fullFlags .bufferB filledReturn) &&& FULL_EOF = 0#32 := by
    decide
  simp only [bothReports, runFrom, loggedStep, step, Driver.step, Driver.wake,
    Driver.nextValid, ne_eq, decide_not, ha, Option.any_some, hvalid, decide_false,
    Bool.not_false, and_self, ↓reduceIte, BitVec.ofNat_eq_ofNat, Option.map_some,
    Driver.go, Driver.report, otherBuffer, ite_not, Option.map_map,
    Option.bind_fun_some, Option.bind_some, Bool.false_eq_true,
    Function.comp_apply, hb, Option.some.injEq, exists_eq_left']
  refine ⟨⟨?_, rfl, rfl, ?_, rfl, ?_, rfl⟩, ?_⟩
  · simp [Sys.leave, outcome, Sys.resume, Action.afterIoctl, Action.consume,
      Action.work, otherBuffer, hflag, heof]
  · simp [Sys.leave, outcome, Sys.resume, Action.afterIoctl, Action.consume,
      Action.work, Action.loopEnd, otherBuffer, hflag, heof]
  · simp [Sys.leave, outcome, Sys.resume, Action.afterIoctl, Action.consume,
      Action.work, Action.loopEnd, otherBuffer, hflag, heof]
    rfl
  · simp [bytes, reportedBy, reportOf, ha, hb, hvalid]
    decide

/-- A number of calls that each report both buffers. -/
def fullCalls : Nat → List Label
  | 0 => []
  | n + 1 => fullCalls n ++ (bothReplies ++ bothReports)

theorem between_fullCalls (n : Nat) :
    ∃ s, runFrom loggedStep (fullCalls (n + 1)) (loggedInitial ⟨50, 60⟩) = some s ∧
      Between s ∧ bytes s.reports = (n + 1) * 0x1fffffffc := by
  induction n with
  | zero =>
    refine ⟨_, rfl, ⟨rfl, rfl, rfl, rfl, rfl, ?_, rfl⟩, ?_⟩ <;> decide
  | succ n ih =>
    obtain ⟨s, hrun, hs, hbytes⟩ := ih
    obtain ⟨s₁, hreplies, hfull, hsame⟩ := hs.bothFull
    obtain ⟨s₂, hreports, hs₂, hmore⟩ := hfull.between
    refine ⟨s₂, ?_, hs₂, ?_⟩
    · rw [fullCalls, runFrom_append, hrun, Option.bind_some, runFrom_append, hreplies,
        Option.bind_some]
      exact hreports
    · rw [hmore, hsame, hbytes]
      omega

theorem noFault_fullCalls (n : Nat) :
    ∀ l ∈ fullCalls n, ∀ s, NoFault l s := by
  have hcall : ∀ l ∈ bothReplies ++ bothReports, ∀ s, NoFault l s := by
    intro l hl s
    simp only [bothReplies, bothReports, List.cons_append, List.nil_append,
      List.mem_cons, List.not_mem_nil, or_false] at hl
    rcases hl with rfl | rfl | rfl | rfl | rfl | rfl | rfl | rfl | rfl | rfl | rfl <;>
      trivial
  induction n with
  | zero =>
    intro l hl
    cases hl
  | succ n ih =>
    intro l hl
    rcases List.mem_append.mp hl with hold | hnew
    · exact ih l hold
    · exact hcall l hnew

/-- The total wraps round after `2 ^ 64` bytes. -/
theorem total_overflows :
    ∃ labels s, RunMeets loggedStep NoFault labels (loggedInitial ⟨50, 60⟩) ∧
      runFrom loggedStep labels (loggedInitial ⟨50, 60⟩) = some s ∧
      s.sys.phase = .calling ∧ s.sys.client.total.toNat ≠ bytes s.reports := by
  obtain ⟨s, hrun, hs, hbytes⟩ := between_fullCalls 2147483649
  refine ⟨_, s, runMeets_of_forall (noFault_fullCalls _) _, hrun, hs.phase, ?_⟩
  have hlt := s.sys.client.total.isLt
  omega

end Acq200.Htstream
