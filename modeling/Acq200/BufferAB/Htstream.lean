import Acq200.BufferAB.Driver

/-!
# The streaming client `htstream`

The loop of `action()` in `htstream.c` calls the AB ioctl, works on the
buffers that are reported full and gives them back with the next call.
Its variable `ops` keeps the `recycle` flags over a call that fails, and
the driver recycles before it waits and copies nothing back on failure.
So the flags are only right in the next call if the failed one had none,
or failed before it got to the driver.

`FailsClean` says that no call fails after its recycle with a flag set,
unless the client gives up over it.  `nothing_thrown_away` proves for every
run that meets it that the flags of every call name buffers that were
reported and worked on, and that the driver recycles no other.
`stale_recycle` is a run with a timeout in which the next call gives a
buffer back that the card has not filled.

The fields `worked`, `before` and `delivered` of `Sys` are ghost.
-/

namespace Acq200.Htstream

open Acq200.Lib
open Acq200.Rch (Buffer)
open Acq200.BufferAB (Driver Ops Handler Rc Event flagged bufferFlag otherBuffer FULL_EOF
  clearedOps opened flagged_or flagged_zero flagged_report eq_or_eq_other
  otherBuffer_ne)

/-! ## The client -/

/-- The variables of `action()`. -/
structure Action where
  ops : Ops
  next : Buffer
  total : BitVec 64
  syscalls : BitVec 32
  timeouts : Int
  started : Bool

/-- The globals `timeout` and `MAXTO`. -/
structure Config where
  timeout : BitVec 32
  maxto : Int

/-- How an ioctl looks to the client. -/
inductive Outcome where
  | success
  | timedOut
  | otherError
  deriving DecidableEq

/-- `INITIAL_TIMEOUT`. -/
def INITIAL_TIMEOUT : BitVec 32 := BitVec.ofNat 32 (24 * 3600 * 100)

namespace Action

/-- The statements about buffer `next` when it is full. -/
def work (a : Action) : Action :=
  { a with
    total := a.total + (a.ops.len a.next).setWidth 64
    ops := { a.ops with recycle := a.ops.recycle ||| bufferFlag a.next }
    next := otherBuffer a.next }

/-- The buffers that are handed to `doWork`, in order. -/
def works (a : Action) : List Buffer :=
  if flagged a.ops.full a.next then
    if flagged a.ops.full (otherBuffer a.next) then [a.next, otherBuffer a.next]
    else [a.next]
  else []

/-- The loop body after a successful call, up to the test for the end. -/
def consume (a : Action) : Action :=
  let a := { a with timeouts := 0, started := true, ops := { a.ops with recycle := 0 } }
  if flagged a.ops.full a.next then
    let a := a.work
    if flagged a.ops.full a.next then a.work else a
  else a

/-- The last part of the `for` statement, which `continue` runs too. -/
def loopEnd (config : Config) (a : Action) : Action :=
  { a with
    syscalls := a.syscalls + 1
    ops := { a.ops with timeout := config.timeout } }

/-- A timeout is the last one that the client puts up with. -/
def givesUp (config : Config) (a : Action) : Bool :=
  a.started && a.timeouts + 1 ≥ config.maxto

/-- The loop body after the call.  The flag says whether the loop goes on. -/
def afterIoctl (config : Config) (a : Action) : Outcome → Action × Bool
  | .success =>
    let a := a.consume
    if a.ops.full &&& FULL_EOF ≠ 0 then (a, false) else (a.loopEnd config, true)
  | .timedOut =>
    let counted := { a with timeouts := if a.started then a.timeouts + 1 else a.timeouts }
    if a.givesUp config then (counted, false) else (counted.loopEnd config, true)
  | .otherError => (a.loopEnd config, true)

end Action

/-! ## The client and the driver -/

inductive Phase where
  /-- The next thing the client does is the ioctl. -/
  | calling
  | inIoctl
  | exited
  deriving DecidableEq

structure Sys where
  config : Config
  client : Action
  driver : Driver
  phase : Phase
  /-- `buffer_AB_busy_mutex` is free. -/
  busyFree : Bool
  /-- The buffer was handed to `doWork` and has not been recycled since. -/
  worked : Buffer → Bool
  /-- The number of reports before the call in progress. -/
  before : Nat
  /-- The blocks whose report has reached the client. -/
  delivered : List Nat

inductive Label where
  /-- The ioctl gets the mutex and its argument. -/
  | enter
  /-- `down_interruptible` is interrupted. -/
  | interrupted
  /-- `COPY_FROM_USER` fails and leaves the mutex taken. -/
  | copyInFault
  | driver (event : Event)
  /-- The ioctl returns; `copied` is the outcome of `COPY_TO_USER`. -/
  | leave (copied : Bool)
  deriving DecidableEq

/-- The client goes on after its ioctl. -/
def Sys.resume (s : Sys) (outcome : Outcome) : Sys :=
  let after := s.client.afterIoctl s.config outcome
  { s with client := after.1, phase := if after.2 then .calling else .exited }

/-- A buffer that the driver recycles is not worked on any more. -/
def afterEvent (d : Driver) (worked : Buffer → Bool) : Event → Buffer → Bool
  | .go =>
    match d.pc with
    | .recycle buffer =>
      if flagged d.ops.recycle buffer then Function.update worked buffer false
      else worked
    | _ => worked
  | _ => worked

/-- What the client gets to see of a call that has come to its end. -/
def outcome (rc : Rc) (copied : Bool) : Outcome :=
  match rc with
  | .ok => if copied then .success else .otherError
  | .timedOut => .timedOut
  | .interrupted => .otherError

/-- The ioctl returns to the client. -/
def Sys.leave (s : Sys) (rc : Rc) (copied : Bool) : Sys :=
  let s := { s with driver := { s.driver with pc := .idle }, busyFree := true }
  if outcome rc copied = .success then
    let client := { s.client with ops := s.driver.ops }
    { s with
      client := client
      worked := fun buffer => s.worked buffer || decide (buffer ∈ client.works)
      delivered := s.delivered ++ s.driver.reported.drop s.before }.resume .success
  else s.resume (outcome rc copied)

def step (l : Label) (s : Sys) : Option Sys :=
  match l with
  | .enter =>
    if s.phase = .calling ∧ s.busyFree then
      some { s with
        driver := { s.driver with ops := s.client.ops, pc := .recycle .bufferA }
        phase := .inIoctl
        busyFree := false
        before := s.driver.reported.length }
    else none
  | .interrupted => if s.phase = .calling then some (s.resume .otherError) else none
  | .copyInFault =>
    if s.phase = .calling ∧ s.busyFree then
      some ({ s with busyFree := false }.resume .otherError)
    else none
  | .driver event =>
    (s.driver.step event).map fun d =>
      { s with driver := d, worked := afterEvent s.driver s.worked event }
  | .leave copied =>
    match s.driver.pc with
    | .done rc => some (s.leave rc copied)
    | _ => none

/-- `htstream` before its first call. -/
def initial (config : Config) : Sys :=
  { config := config
    client :=
      { ops := { clearedOps with timeout := INITIAL_TIMEOUT }, next := .bufferA
        total := 0, syscalls := 1, timeouts := 0, started := false }
    driver := opened
    phase := .calling
    busyFree := true
    worked := fun _ => false
    before := 0
    delivered := [] }

/-! ## The contract -/

/-- The client gives back only what it has worked on, and the driver
recycles only what was reported to the client. -/
structure NothingThrownAway (s : Sys) : Prop where
  issues : s.phase = .calling →
    ∀ buffer, flagged s.client.ops.recycle buffer = true → s.worked buffer = true
  recycles : ∀ buffer, s.driver.pc = .recycle buffer →
    flagged s.driver.ops.recycle buffer = true →
    ∀ h ∈ s.driver.rchAB buffer, h.rchReturn.valid ≠ 0 ∧ h.block ∈ s.delivered

/-- The call in progress recycles nothing. -/
def NoFlags (s : Sys) : Prop :=
  ∀ buffer, flagged s.driver.ops.recycle buffer = false

/-- No call fails after its recycle with a flag set, unless the client gives
up. -/
def FailsClean (l : Label) (s : Sys) : Prop :=
  match l with
  | .driver .timeout => NoFlags s ∨ s.client.givesUp s.config = true
  | .driver .signal => NoFlags s
  | .leave false => s.driver.pc = .done .ok → NoFlags s
  | _ => True

instance (s : Sys) : Decidable (NoFlags s) :=
  decidable_of_iff
    (flagged s.driver.ops.recycle .bufferA = false ∧
      flagged s.driver.ops.recycle .bufferB = false)
    ⟨fun h buffer => by cases buffer; exacts [h.1, h.2], fun h => ⟨h _, h _⟩⟩

instance : ∀ (l : Label) (s : Sys), Decidable (FailsClean l s)
  | .driver .timeout, s =>
    inferInstanceAs (Decidable (NoFlags s ∨ s.client.givesUp s.config = true))
  | .driver .signal, s => inferInstanceAs (Decidable (NoFlags s))
  | .leave false, s =>
    inferInstanceAs (Decidable (s.driver.pc = .done .ok → NoFlags s))
  | .leave true, _ | .enter, _ | .interrupted, _ | .copyInFault, _ | .driver .go, _
  | .driver (.post _ _), _ | .driver .wake, _ | .driver (.reply _ _ _), _ =>
    inferInstanceAs (Decidable True)

/-! ## The invariant -/

/-- The buffer is full and its block is one of `blocks`. -/
def Filled (d : Driver) (blocks : List Nat) (buffer : Buffer) : Prop :=
  ∃ h, d.rchAB buffer = some h ∧ h.rchReturn.valid ≠ 0 ∧ h.block ∈ blocks

/-- The blocks that the call in progress has reported. -/
def Sys.reportedNow (s : Sys) : List Nat := s.driver.reported.drop s.before

/-- What the call in progress relies on at each statement. -/
def CallInv (s : Sys) : BufferAB.Pc → Prop
  | .recycle .bufferA =>
    ∀ buffer, flagged s.driver.ops.recycle buffer = true → s.worked buffer = true
  | .recycle .bufferB =>
    flagged s.driver.ops.recycle .bufferB = true → s.worked .bufferB = true
  | .fill false => ∀ buffer, flagged s.driver.ops.full buffer = false
  | .fill true | .done .ok =>
    ∀ buffer, flagged s.driver.ops.full buffer = true →
      Filled s.driver s.reportedNow buffer
  | .done .timedOut => NoFlags s ∨ s.client.givesUp s.config = true
  | .done .interrupted => NoFlags s
  | _ => True

structure StreamInv (s : Sys) : Prop where
  worked : ∀ buffer, s.worked buffer = true → Filled s.driver s.delivered buffer
  issues : s.phase = .calling →
    ∀ buffer, flagged s.client.ops.recycle buffer = true → s.worked buffer = true
  /-- Outside a call the driver does nothing. -/
  idle : s.phase ≠ .inIoctl → s.driver.pc = .idle
  flags : s.phase = .inIoctl → s.client.ops.recycle = s.driver.ops.recycle
  before : s.before ≤ s.driver.reported.length
  call : CallInv s s.driver.pc

theorem streamInv_initial (config : Config) : StreamInv (initial config) where
  worked := fun _ h => by cases h
  issues := fun _ buffer h => by
    rw [show (initial config).client.ops.recycle = 0 from rfl, flagged_zero] at h
    cases h
  idle := fun _ => rfl
  flags := fun h => by cases h
  before := Nat.le_refl 0
  call := trivial

/-- The invariant gives the contract. -/
theorem StreamInv.nothingThrownAway {s : Sys} (h : StreamInv s) :
    NothingThrownAway s := by
  refine ⟨h.issues, ?_⟩
  intro buffer hpc hflag handler hslot
  have hcall := h.call
  rw [hpc] at hcall
  have hworked : s.worked buffer = true := by
    cases buffer with
    | bufferA => exact hcall .bufferA hflag
    | bufferB => exact hcall hflag
  obtain ⟨full, hfull, hvalid, hblock⟩ := h.worked buffer hworked
  obtain rfl := Option.some.inj (hfull.symm.trans hslot)
  exact ⟨hvalid, hblock⟩

/-! ## The driver's steps -/

section Driver

variable {s : Sys} {d : Driver} {blocks : List Nat} {buffer : Buffer}

theorem Filled.mono {d' : Driver} {more : List Nat} (h : Filled d blocks buffer)
    (hslot : d'.rchAB buffer = d.rchAB buffer) (hblocks : ∀ k ∈ blocks, k ∈ more) :
    Filled d' more buffer := by
  obtain ⟨handler, hold, hvalid, hblock⟩ := h
  exact ⟨handler, hslot.trans hold, hvalid, hblocks _ hblock⟩

/-- A reply leaves a full buffer full. -/
theorem Filled.deliver (h : Filled d blocks buffer) (block : Nat)
    (start nsamples : BitVec 32) (unanswered : List Nat) :
    Filled { d with
      rchAB := fun buffer => Driver.deliver (d.rchAB buffer) block start nsamples
      unanswered := unanswered } blocks buffer := by
  obtain ⟨handler, hold, hvalid, hblock⟩ := h
  have hslot : Driver.deliver (d.rchAB buffer) block start nsamples = some
      (if handler.block = block then
        { handler with rchReturn :=
          Rch.Device.setSamples handler.rchReturn start nsamples }
      else handler) := by
    rw [Driver.deliver, hold, Option.map_some]
  refine ⟨_, hslot, ?_, ?_⟩
  · split
    · show (Rch.Device.setSamples handler.rchReturn start nsamples).valid ≠ 0
      rw [Rch.Device.setSamples]
      split <;> simp
    · exact hvalid
  · split <;> exact hblock

/-- A step of the driver that goes to another statement of the call and
leaves the buffers and the flags alone. -/
theorem StreamInv.move (h : StreamInv s) (pc : BufferAB.Pc) (full : BitVec 32)
    (hpc : s.driver.pc ≠ .idle)
    (hcall : CallInv { s with
      driver := { s.driver with ops := { s.driver.ops with full := full }, pc := pc } }
      pc) :
    StreamInv { s with
      driver := { s.driver with ops := { s.driver.ops with full := full }, pc := pc } } where
  worked := fun buffer hw => (h.worked buffer hw).mono rfl fun _ hk => hk
  issues := h.issues
  idle := fun hphase => absurd (h.idle hphase) hpc
  flags := h.flags
  before := h.before
  call := hcall

theorem StreamInv.inIoctl (h : StreamInv s) (hpc : s.driver.pc ≠ .idle) :
    s.phase = .inIoctl := by
  by_contra hphase
  exact hpc (h.idle hphase)

theorem streamInv_recycle {b : Buffer} (h : StreamInv s)
    (hpc : s.driver.pc = .recycle b) (hd : s.driver.go = some d) :
    StreamInv { s with driver := d, worked := afterEvent s.driver s.worked .go } := by
  have hphase := h.inIoctl (by rw [hpc]; simp)
  have hcall := h.call
  rw [hpc] at hcall
  simp only [Driver.go, hpc] at hd
  obtain rfl := Option.some.inj hd
  have hslot : ∀ other, other ≠ b → (if flagged s.driver.ops.recycle b then
      s.driver.recycle b else s.driver).rchAB other = s.driver.rchAB other := by
    intro other hne
    split
    · exact Function.update_of_ne hne _ _
    · rfl
  have hops : (if flagged s.driver.ops.recycle b then
      s.driver.recycle b else s.driver).ops = s.driver.ops := by
    split <;> rfl
  have hreported : (if flagged s.driver.ops.recycle b then
      s.driver.recycle b else s.driver).reported = s.driver.reported := by
    split <;> rfl
  have hworked : ∀ other, other ≠ b →
      afterEvent s.driver s.worked .go other = s.worked other := by
    intro other hne
    simp only [afterEvent, hpc]
    split
    · exact Function.update_of_ne hne _ _
    · rfl
  refine ⟨?_, fun hcalling => ?_, fun hout => absurd hphase hout, fun _ => ?_, ?_, ?_⟩
  · intro other hw
    by_cases heq : other = b
    · rw [heq] at hw ⊢
      simp only [afterEvent, hpc] at hw
      cases hflag : flagged s.driver.ops.recycle b with
      | true =>
        rw [hflag, if_pos rfl, Function.update_self] at hw
        cases hw
      | false =>
        rw [hflag, if_neg Bool.false_ne_true] at hw
        exact (h.worked b hw).mono (by rfl) fun _ hk => hk
    · have hold : s.worked other = true := (hworked other heq).symm.trans hw
      exact (h.worked other hold).mono (hslot other heq) fun _ hk => hk
  · rw [show s.phase = .calling from hcalling] at hphase
    cases hphase
  · rw [hops]
    exact h.flags hphase
  · rw [hreported]
    exact h.before
  · cases b with
    | bufferA =>
      intro hflag
      have hold := hcall .bufferB (by rw [← hops]; exact hflag)
      exact (hworked .bufferB (by decide)).trans hold
    | bufferB => exact trivial

theorem streamInv_fill {second : Bool} (h : StreamInv s)
    (hpc : s.driver.pc = .fill second) (hd : s.driver.go = some d) :
    StreamInv { s with driver := d } := by
  have hphase := h.inIoctl (by rw [hpc]; simp)
  have hcall := h.call
  rw [hpc] at hcall
  have hfull : ∀ buffer, flagged s.driver.ops.full buffer = true →
      Filled s.driver s.reportedNow buffer := by
    intro buffer hflag
    cases second with
    | false =>
      rw [hcall buffer] at hflag
      cases hflag
    | true => exact hcall buffer hflag
  simp only [Driver.go, hpc] at hd
  cases hslot : s.driver.rchAB s.driver.abNext with
  | none =>
    rw [hslot] at hd
    cases hd
  | some handler =>
    simp only [hslot] at hd
    split at hd
    · rename_i hvalid
      obtain rfl := Option.some.inj hd
      have hlen : s.before ≤ (s.driver.reported ++ [handler.block]).length := by
        rw [List.length_append]
        exact Nat.le_add_right_of_le h.before
      have hdrop : (s.driver.reported ++ [handler.block]).drop s.before
          = s.reportedNow ++ [handler.block] :=
        List.drop_append_of_le_length h.before
      have hfilled : ∀ buffer,
          flagged (s.driver.report s.driver.abNext handler).ops.full buffer = true →
          Filled (s.driver.report s.driver.abNext handler)
            ((s.driver.reported ++ [handler.block]).drop s.before) buffer := by
        intro buffer hflag
        rw [hdrop]
        rw [flagged_report, Bool.or_eq_true] at hflag
        rcases hflag with hold | hnew
        · exact (hfull buffer hold).mono rfl fun _ hk => List.mem_append_left _ hk
        · rw [of_decide_eq_true hnew]
          exact ⟨handler, hslot, hvalid, List.mem_append_right _ List.mem_cons_self⟩
      refine ⟨fun other hw => (h.worked other hw).mono rfl fun _ hk => hk, h.issues,
        fun hout => absurd hphase hout, h.flags, hlen, ?_⟩
      cases second with
      | false => exact fun buffer hflag => (hfilled buffer hflag).mono rfl fun _ hk => hk
      | true => exact fun buffer hflag => (hfilled buffer hflag).mono rfl fun _ hk => hk
    · obtain rfl := Option.some.inj hd
      exact h.move (.done .ok) s.driver.ops.full (by rw [hpc]; simp)
        fun buffer hflag => (hfull buffer hflag).mono rfl fun _ hk => hk

theorem streamInv_post {mfa : Bool} {stale : BitVec 32} (h : StreamInv s)
    (hd : s.driver.post mfa stale = some d) : StreamInv { s with driver := d } := by
  rw [Driver.post] at hd
  split at hd
  · rename_i b hpc
    have hphase := h.inIoctl (by rw [hpc]; simp)
    split at hd
    · rename_i hnone
      obtain rfl := Option.some.inj hd
      refine ⟨?_, h.issues, fun hout => absurd hphase hout, h.flags, h.before, ?_⟩
      · intro other hw
        have hfilled := h.worked other hw
        have hne : other ≠ b := by
          rintro rfl
          obtain ⟨handler, hold, _⟩ := hfilled
          rw [hold] at hnone
          cases hnone
        exact hfilled.mono (Function.update_of_ne hne _ _) fun _ hk => hk
      · cases b <;> trivial
    · cases hd
  · cases hd

theorem streamInv_reply {n : Nat} {start nsamples : BitVec 32} (h : StreamInv s)
    (hd : s.driver.reply n start nsamples = some d) : StreamInv { s with driver := d } := by
  obtain ⟨block, _, rfl⟩ := Option.map_eq_some_iff.mp hd
  refine ⟨fun other hw => (h.worked other hw).deliver _ _ _ _, h.issues, h.idle, h.flags,
    h.before, ?_⟩
  have hcall := h.call
  show CallInv _ s.driver.pc
  rcases hpc : s.driver.pc with _ | (_ | _) | (_ | _) | _ | (_ | _) | (_ | _ | _) <;>
    rw [hpc] at hcall <;> try exact hcall
  · exact fun buffer hflag => (hcall buffer hflag).deliver block start nsamples
      (s.driver.unanswered.eraseIdx n)
  · exact fun buffer hflag => (hcall buffer hflag).deliver block start nsamples
      (s.driver.unanswered.eraseIdx n)

theorem streamInv_go (h : StreamInv s) (hd : s.driver.go = some d) :
    StreamInv { s with driver := d, worked := afterEvent s.driver s.worked .go } := by
  rcases hpc : s.driver.pc with _ | b | b | _ | second | rc
  · simp only [Driver.go, hpc] at hd
    cases hd
  · exact streamInv_recycle h hpc hd
  · have hsame : afterEvent s.driver s.worked .go = s.worked := by
      simp only [afterEvent, hpc]
    rw [hsame]
    simp only [Driver.go, hpc] at hd
    split at hd
    · obtain rfl := Option.some.inj hd
      refine h.move (Driver.afterQueue b) s.driver.ops.full (by rw [hpc]; simp) ?_
      cases b <;> trivial
    · cases hd
  · simp only [Driver.go, hpc] at hd
    cases hd
  · have hsame : afterEvent s.driver s.worked .go = s.worked := by
      simp only [afterEvent, hpc]
    rw [hsame]
    exact streamInv_fill h hpc hd
  · simp only [Driver.go, hpc] at hd
    cases hd

theorem streamInv_wake (h : StreamInv s) (hd : s.driver.wake = some d) :
    StreamInv { s with driver := d } := by
  rw [Driver.wake] at hd
  split at hd
  · rename_i hwait
    obtain rfl := Option.some.inj hd
    exact h.move (.fill false) 0 (by rw [hwait.1]; simp) flagged_zero
  · cases hd

/-- The wait ends with a failure. -/
theorem streamInv_endWait {rc : Rc} (h : StreamInv s) (hrc : CallInv s (.done rc))
    (hfail : rc ≠ .ok) (hd : s.driver.endWait rc = some d) :
    StreamInv { s with driver := d } := by
  rw [Driver.endWait] at hd
  split at hd
  · rename_i hwait
    obtain rfl := Option.some.inj hd
    refine h.move (.done rc) s.driver.ops.full (by rw [hwait]; simp) ?_
    cases rc with
    | ok => exact absurd rfl hfail
    | timedOut => exact hrc
    | interrupted => exact hrc
  · cases hd

theorem streamInv_driver {event : Event} (h : StreamInv s)
    (hok : FailsClean (.driver event) s) (hd : s.driver.step event = some d) :
    StreamInv { s with driver := d, worked := afterEvent s.driver s.worked event } := by
  cases event with
  | go => exact streamInv_go h hd
  | post mfa stale => exact streamInv_post h hd
  | wake => exact streamInv_wake h hd
  | timeout => exact @streamInv_endWait s d .timedOut h hok (by decide) hd
  | signal => exact @streamInv_endWait s d .interrupted h hok (by decide) hd
  | reply n start nsamples => exact streamInv_reply h hd

end Driver

/-! ## The client's steps -/

section Client

variable {s : Sys} {buffer : Buffer}

theorem flagged_bufferFlag (buffer other : Buffer) :
    flagged (bufferFlag buffer) other = decide (other = buffer) := by
  cases buffer <;> cases other <;> decide

/-- The client gives back the buffers that it has worked on. -/
theorem flagged_consume (a : Action) (buffer : Buffer) :
    flagged a.consume.ops.recycle buffer = decide (buffer ∈ a.works) := by
  by_cases hfirst : flagged a.ops.full a.next = true
  · by_cases hsecond : flagged a.ops.full (otherBuffer a.next) = true
    · simp [Action.consume, Action.works, Action.work, hfirst, hsecond, flagged_or,
        flagged_bufferFlag]
    · simp [Action.consume, Action.works, Action.work, hfirst, hsecond,
        flagged_bufferFlag]
  · rw [Action.consume, Action.works, if_neg hfirst, if_neg hfirst]
    exact flagged_zero buffer

/-- Only full buffers are worked on. -/
theorem flagged_of_mem_works {a : Action} (h : buffer ∈ a.works) :
    flagged a.ops.full buffer = true := by
  rw [Action.works] at h
  split at h
  · rename_i hfirst
    split at h
    · rename_i hsecond
      rcases List.mem_pair.mp h with rfl | rfl
      · exact hfirst
      · exact hsecond
    · rw [List.mem_singleton.mp h]
      exact hfirst
  · cases h

theorem afterIoctl_success (config : Config) (a : Action) :
    (a.afterIoctl config .success).1.ops.recycle = a.consume.ops.recycle := by
  rw [Action.afterIoctl]
  split <;> rfl

/-- A call that fails leaves the flags of the client as they are. -/
theorem afterIoctl_failed (config : Config) (a : Action) {result : Outcome}
    (h : result ≠ .success) :
    (a.afterIoctl config result).1.ops.recycle = a.ops.recycle := by
  cases result with
  | success => exact absurd rfl h
  | timedOut =>
    rw [Action.afterIoctl]
    split <;> rfl
  | otherError => rfl

/-- The client goes on with flags that name buffers it has worked on. -/
theorem streamInv_resume {result : Outcome} (hpc : s.driver.pc = .idle)
    (hworked : ∀ buffer, s.worked buffer = true → Filled s.driver s.delivered buffer)
    (hbefore : s.before ≤ s.driver.reported.length)
    (hissues : (s.client.afterIoctl s.config result).2 = true →
      ∀ buffer, flagged (s.client.afterIoctl s.config result).1.ops.recycle buffer = true →
        s.worked buffer = true) :
    StreamInv (s.resume result) := by
  have hnot : (s.resume result).phase ≠ .inIoctl := by
    rw [Sys.resume]
    dsimp only
    split <;> simp
  refine ⟨hworked, fun hcalling => hissues ?_, fun _ => hpc, fun hin => absurd hin hnot,
    hbefore, ?_⟩
  · rw [Sys.resume] at hcalling
    dsimp only at hcalling
    split at hcalling
    · assumption
    · cases hcalling
  · rw [show (s.resume result).driver.pc = .idle from hpc]
    trivial

/-- A call that fails before it gets to the driver. -/
theorem streamInv_refused {busyFree : Bool} (h : StreamInv s) (hphase : s.phase = .calling) :
    StreamInv ({ s with busyFree := busyFree }.resume .otherError) :=
  streamInv_resume (h.idle (by rw [hphase]; simp)) h.worked h.before
    fun _ => h.issues hphase

theorem streamInv_enter (h : StreamInv s) (hphase : s.phase = .calling) :
    StreamInv { s with
      driver := { s.driver with ops := s.client.ops, pc := .recycle .bufferA }
      phase := .inIoctl
      busyFree := false
      before := s.driver.reported.length } where
  worked := fun other hw => (h.worked other hw).mono rfl fun _ hk => hk
  issues := fun hcalling => by cases hcalling
  idle := fun hout => absurd rfl hout
  flags := fun _ => rfl
  before := Nat.le_refl _
  call := h.issues hphase

/-- A call that succeeds hands its reports to the client. -/
theorem streamInv_leave_success (h : StreamInv s) (hpc : s.driver.pc = .done .ok) :
    StreamInv (s.leave .ok true) := by
  have hcall := h.call
  rw [hpc] at hcall
  rw [Sys.leave, show outcome .ok true = .success from rfl, if_pos rfl]
  refine streamInv_resume rfl ?_ h.before ?_
  · intro other hw
    rcases (Bool.or_eq_true _ _).mp hw with hold | hnew
    · exact (h.worked other hold).mono rfl fun _ hk => List.mem_append_left _ hk
    · have hfull := flagged_of_mem_works (of_decide_eq_true hnew)
      exact (hcall other hfull).mono rfl fun _ hk => List.mem_append_right _ hk
  · intro _ other hflag
    rw [afterIoctl_success, flagged_consume] at hflag
    exact (Bool.or_eq_true _ _).mpr (Or.inr hflag)

/-- A call that fails had no flags, or the client gives up. -/
theorem streamInv_leave_failed {rc : Rc} {copied : Bool} (h : StreamInv s)
    (hpc : s.driver.pc = .done rc) (hfail : outcome rc copied ≠ .success)
    (hclean : NoFlags s ∨ outcome rc copied = .timedOut ∧
      s.client.givesUp s.config = true) : StreamInv (s.leave rc copied) := by
  have hphase := h.inIoctl (by rw [hpc]; simp)
  rw [Sys.leave, if_neg hfail]
  refine streamInv_resume rfl (fun other hw => (h.worked other hw).mono rfl fun _ hk => hk)
    h.before ?_
  intro hgoes other hflag
  rcases hclean with hnone | ⟨htimedOut, hgivesUp⟩
  · rw [afterIoctl_failed _ _ hfail] at hflag
    rw [show flagged s.client.ops.recycle other = false by
      rw [h.flags hphase]; exact hnone other] at hflag
    cases hflag
  · rw [htimedOut, Action.afterIoctl] at hgoes
    dsimp only at hgoes
    rw [if_pos hgivesUp] at hgoes
    cases hgoes

theorem streamInv_leave {rc : Rc} {copied : Bool} (h : StreamInv s)
    (hok : FailsClean (.leave copied) s) (hpc : s.driver.pc = .done rc) :
    StreamInv (s.leave rc copied) := by
  have hcall := h.call
  rw [hpc] at hcall
  cases rc with
  | ok =>
    cases copied with
    | true => exact streamInv_leave_success h hpc
    | false => exact streamInv_leave_failed h hpc (by decide) (Or.inl (hok hpc))
  | timedOut =>
    exact streamInv_leave_failed h hpc (by rw [outcome]; decide)
      (hcall.imp id fun hgivesUp => ⟨rfl, hgivesUp⟩)
  | interrupted =>
    exact streamInv_leave_failed h hpc (by rw [outcome]; decide) (Or.inl hcall)

end Client

/-! ## Runs -/

theorem streamInv_step (l : Label) (s s' : Sys) (h : StreamInv s) (hok : FailsClean l s)
    (hs : step l s = some s') : StreamInv s' := by
  cases l with
  | enter =>
    rw [step] at hs
    split at hs
    · rename_i hready
      obtain rfl := Option.some.inj hs
      exact streamInv_enter h hready.1
    · cases hs
  | interrupted =>
    rw [step] at hs
    split at hs
    · rename_i hphase
      obtain rfl := Option.some.inj hs
      exact streamInv_refused h hphase
    · cases hs
  | copyInFault =>
    rw [step] at hs
    split at hs
    · rename_i hready
      obtain rfl := Option.some.inj hs
      exact streamInv_refused h hready.1
    · cases hs
  | driver event =>
    obtain ⟨d, hd, rfl⟩ := Option.map_eq_some_iff.mp hs
    exact streamInv_driver h hok hd
  | leave copied =>
    rw [step] at hs
    split at hs
    · rename_i rc hpc
      obtain rfl := Option.some.inj hs
      exact streamInv_leave h hok hpc
    · cases hs

/-- In every run whose calls fail clean, the client gives back only what it
has worked on, and the driver recycles only what was reported to it. -/
theorem nothing_thrown_away {config : Config} {labels : List Label} {s : Sys}
    (hok : RunMeets step FailsClean labels (initial config))
    (hrun : runFrom step labels (initial config) = some s) : NothingThrownAway s :=
  (runFrom_inv streamInv_step (streamInv_initial config) hok hrun).nothingThrownAway

/-- A call that finds no handler queued and reports buffer A. -/
def firstCall : List Label :=
  [.enter, .driver .go, .driver .go, .driver (.post true 0), .driver (.post true 0),
    .driver (.reply 0 0 512), .driver .wake, .driver .go, .driver .go, .leave true]

/-- After it the next call gives buffer A back. -/
theorem nothing_thrown_away_secondCall :
    ∃ s, runFrom step (firstCall ++ [.enter]) (initial ⟨50, 60⟩) = some s ∧
      s.driver.pc = .recycle .bufferA ∧ flagged s.driver.ops.recycle .bufferA = true ∧
      s.delivered = [0] ∧ NothingThrownAway s :=
  ⟨_, rfl, rfl, by decide, rfl,
    @nothing_thrown_away ⟨50, 60⟩ (firstCall ++ [.enter]) _ (by decide) rfl⟩

/-- A call that gives buffer A back and times out on buffer B.  The card
fills both buffers before the client calls again. -/
def timedOutCall : List Label :=
  [.enter, .driver .go, .driver .go, .driver (.post true 0), .driver .go,
    .driver .timeout, .leave true, .driver (.reply 0 0 512), .driver (.reply 0 0 512)]

/-- The call after that recycles buffer A, with block 2 in it that nobody has
seen. -/
theorem stale_recycle :
    ∃ s, runFrom step (firstCall ++ timedOutCall ++ [.enter]) (initial ⟨50, 60⟩) = some s ∧
      s.driver.pc = .recycle .bufferA ∧ flagged s.driver.ops.recycle .bufferA = true ∧
      s.worked .bufferA = false ∧ (s.driver.rchAB .bufferA).map Handler.block = some 2 ∧
      s.delivered = [0] ∧ ¬NothingThrownAway s := by
  refine ⟨_, rfl, rfl, by decide, rfl, by decide, rfl, ?_⟩
  intro h
  have hblock := (h.recycles .bufferA rfl (by decide) _ rfl).2
  exact absurd hblock (by decide)

end Acq200.Htstream
