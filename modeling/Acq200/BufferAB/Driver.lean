import Mathlib.Data.List.Basic
import Acq200.Lib.Run
import Acq200.Rch.System

/-!
# The swinging buffers of one path

`acq200_bufferABaction` recycles the buffers that its client gives back,
queues a request for each buffer that has none, waits for the buffer that
is next in turn and reports the buffers that are full.  This module has
the call with a program counter between its statements, so that replies of
the card can come at any point.

Here a handler is only its `rchReturn`, with the number of its request.
A path whose client gives back only buffers that were reported has at most
two requests on the card, so their ids differ and a reply goes to the
handler of its own request.  A handler that has been recycled gets none.
Where `acq200_pool_alloc_rch` gives up, the source follows a null pointer
and the run ends there.

Requests are numbered in the order in which `acq200_bufferAB_queue` makes
them.  The card serves those that were posted in that order, so the number
of a request also names its block of data.
-/

namespace Acq200.BufferAB

open Acq200.Rch (Buffer RchReturn)

/-! ## Data -/

/-- `BUFFER_FLAG_LUT`. -/
def bufferFlag : Buffer → BitVec 32
  | .bufferA => 1#32
  | .bufferB => 2#32

/-- `FULL_EOF`. -/
def FULL_EOF : BitVec 32 := 0x80000000#32

/-- `struct BufferAB_Ops`, the client's instructions and the status that the
driver fills in. -/
structure Ops where
  recycle : BitVec 32
  timeout : BitVec 32
  full : BitVec 32
  sid : Buffer → BitVec 32
  len : Buffer → BitVec 32

def flagged (flags : BitVec 32) (buffer : Buffer) : Bool :=
  flags &&& bufferFlag buffer ≠ 0

def otherBuffer : Buffer → Buffer
  | .bufferA => .bufferB
  | .bufferB => .bufferA

/-- A handler in `rchAB`, with the number of its request. -/
structure Handler where
  rchReturn : RchReturn
  block : Nat
  deriving DecidableEq

/-- How the call returns. -/
inductive Rc where
  | ok
  | timedOut
  /-- `-ERESTARTSYS`. -/
  | interrupted
  deriving DecidableEq

/-- The next statement of `acq200_bufferABaction`. -/
inductive Pc where
  | idle
  | recycle (buffer : Buffer)
  | queue (buffer : Buffer)
  | wait
  /-- `fillDeviceStatus`, for the first or the second time. -/
  | fill (second : Bool)
  | done (rc : Rc)
  deriving DecidableEq

structure Driver where
  rchAB : Buffer → Option Handler
  abNext : Buffer
  sid : BitVec 32
  ops : Ops
  pc : Pc
  /-- The number of requests made so far, and those that were posted. -/
  requests : Nat
  posted : List Nat
  /-- The requests that the card has not answered. -/
  unanswered : List Nat
  /-- The blocks reported full, in the order of the reports. -/
  reported : List Nat

/-! ## The call -/

namespace Driver

/-- `_recycle`. -/
def recycle (d : Driver) (buffer : Buffer) : Driver :=
  { d with rchAB := Function.update d.rchAB buffer none }

/-- A handler that `buildRch` has set up.  Its `start_id` is left from its
previous use. -/
def builtReturn (stale : BitVec 32) : RchReturn :=
  { valid := 0, startId := stale, nbytes := 0, kbuf := some .other, flags := 0 }

/-- `acq200_bufferAB_queue`; `mfa` says whether the card has a free frame for
the message. -/
def bufferABQueue (d : Driver) (buffer : Buffer) (mfa : Bool) (stale : BitVec 32) :
    Driver :=
  { d with
    rchAB := Function.update d.rchAB buffer (some ⟨builtReturn stale, d.requests⟩)
    sid := d.sid + 1
    requests := d.requests + 1
    posted := if mfa then d.posted ++ [d.requests] else d.posted
    unanswered := if mfa then d.unanswered ++ [d.requests] else d.unanswered }

/-- The flags of a buffer that is full. -/
def fullFlags (buffer : Buffer) (r : RchReturn) : BitVec 32 :=
  bufferFlag buffer ||| if r.nbytes = 0 then FULL_EOF else 0

/-- `fillDeviceStatus` on a buffer whose handler is valid. -/
def report (d : Driver) (buffer : Buffer) (h : Handler) : Driver :=
  { d with
    ops := { d.ops with
      full := d.ops.full ||| fullFlags buffer h.rchReturn
      sid := Function.update d.ops.sid buffer h.rchReturn.startId
      len := Function.update d.ops.len buffer h.rchReturn.nbytes }
    abNext := otherBuffer buffer
    reported := d.reported ++ [h.block] }

def afterRecycle : Buffer → Pc
  | .bufferA => .recycle .bufferB
  | .bufferB => .queue .bufferA

def afterQueue : Buffer → Pc
  | .bufferA => .queue .bufferB
  | .bufferB => .wait

/-- The condition of the wait. -/
def nextValid (d : Driver) : Bool :=
  (d.rchAB d.abNext).any fun h => h.rchReturn.valid ≠ 0

/-- The next statement of the call.  A null handler in `fillDeviceStatus` is
a fault. -/
def go (d : Driver) : Option Driver :=
  match d.pc with
  | .recycle buffer =>
    let d := if flagged d.ops.recycle buffer then d.recycle buffer else d
    some { d with pc := afterRecycle buffer }
  | .queue buffer =>
    match d.rchAB buffer with
    | some _ => some { d with pc := afterQueue buffer }
    | none => none
  | .fill second =>
    match d.rchAB d.abNext with
    | none => none
    | some h =>
      if h.rchReturn.valid ≠ 0 then
        let d := d.report d.abNext h
        some { d with pc := if second then .done .ok else .fill true }
      else some { d with pc := .done .ok }
  | .idle | .wait | .done _ => none

/-- A buffer with no handler is queued. -/
def post (d : Driver) (mfa : Bool) (stale : BitVec 32) : Option Driver :=
  match d.pc with
  | .queue buffer =>
    if (d.rchAB buffer).isNone then
      some { d.bufferABQueue buffer mfa stale with pc := afterQueue buffer }
    else none
  | _ => none

/-- The wait ends. -/
def wake (d : Driver) : Option Driver :=
  if d.pc = .wait ∧ d.nextValid then
    some { d with ops := { d.ops with full := 0 }, pc := .fill false }
  else none

def endWait (d : Driver) (rc : Rc) : Option Driver :=
  if d.pc = .wait then some { d with pc := .done rc } else none

/-- The handler that gets the reply to request `block`. -/
def deliver (h : Option Handler) (block : Nat) (start nsamples : BitVec 32) :
    Option Handler :=
  h.map fun h =>
    if h.block = block then
      { h with rchReturn := Rch.Device.setSamples h.rchReturn start nsamples }
    else h

/-- The card's reply to one of the requests it has. -/
def reply (d : Driver) (n : Nat) (start nsamples : BitVec 32) : Option Driver :=
  d.unanswered[n]?.map fun block =>
    { d with
      rchAB := fun buffer => deliver (d.rchAB buffer) block start nsamples
      unanswered := d.unanswered.eraseIdx n }

end Driver

/-- The steps that do not depend on the client. -/
inductive Event where
  | go
  | post (mfa : Bool) (stale : BitVec 32)
  | wake
  | timeout
  | signal
  | reply (n : Nat) (start nsamples : BitVec 32)
  deriving DecidableEq

def Driver.step (d : Driver) : Event → Option Driver
  | .go => d.go
  | .post mfa stale => d.post mfa stale
  | .wake => d.wake
  | .timeout => d.endWait .timedOut
  | .signal => d.endWait .interrupted
  | .reply n start nsamples => d.reply n start nsamples

/-- The instructions of a client that has made no call yet. -/
def clearedOps : Ops :=
  { recycle := 0, timeout := 0, full := 0, sid := fun _ => 0, len := fun _ => 0 }

/-- A path that `acq200_open` has just set up. -/
def opened : Driver :=
  { rchAB := fun _ => none, abNext := .bufferA, sid := 0, ops := clearedOps
    pc := .idle, requests := 0, posted := [], unanswered := [], reported := [] }

/-! ## Flags -/

theorem otherBuffer_ne (buffer : Buffer) : otherBuffer buffer ≠ buffer := by
  cases buffer <;> decide

theorem otherBuffer_otherBuffer (buffer : Buffer) :
    otherBuffer (otherBuffer buffer) = buffer := by
  cases buffer <;> rfl

theorem eq_or_eq_other (buffer other : Buffer) :
    other = buffer ∨ other = otherBuffer buffer := by
  cases buffer <;> cases other <;> decide

@[simp] theorem flagged_zero (buffer : Buffer) : flagged 0 buffer = false := by
  cases buffer <;> decide

theorem or_and_ne_zero {x y z : BitVec 32} :
    (x ||| y) &&& z ≠ 0 ↔ x &&& z ≠ 0 ∨ y &&& z ≠ 0 := by
  have hor : (x ||| y) &&& z = x &&& z ||| y &&& z := BitVec.and_or_distrib_right
  have hzero : x &&& z ||| y &&& z = 0 ↔ x &&& z = 0 ∧ y &&& z = 0 := BitVec.or_eq_zero_iff
  rw [hor, ne_eq, hzero, Decidable.not_and_iff_not_or_not]

theorem flagged_or (flags more : BitVec 32) (buffer : Buffer) :
    flagged (flags ||| more) buffer = (flagged flags buffer || flagged more buffer) := by
  simp only [flagged, or_and_ne_zero, Bool.decide_or]

theorem flagged_fullFlags (buffer other : Buffer) (r : RchReturn) :
    flagged (Driver.fullFlags buffer r) other = decide (other = buffer) := by
  rw [Driver.fullFlags, flagged_or]
  split <;> cases buffer <;> cases other <;> decide

/-- A report adds the flag of its buffer. -/
theorem flagged_report (driver : Driver) (buffer : Buffer) (handler : Handler)
    (other : Buffer) :
    flagged (driver.report buffer handler).ops.full other
      = (flagged driver.ops.full other || decide (other = buffer)) := by
  rw [← flagged_fullFlags buffer other handler.rchReturn]
  exact flagged_or _ _ _

end Acq200.BufferAB
