import Acq200.Lib.Run
import Acq200.Rch.Device

/-!
# Clients, the card and the interleaving of their steps

A client is an open bridge or AB file with one thread.  Its program counter
`Pc` stands between two statements of `acq200_bridge_read_generic`,
`acq200_bridge_write_generic`, `acq200_bufferABaction` or
`acq200_bridge_release_message` that touch the shared device, so the steps
of any number of clients and of the card interleave.  A stretch of a pool
scan between two sleeps is one step, and so is the dispatch of a reply,
which runs in a bottom half.  A round of `_cleanup_on_bridge_release` is one
step too, although the driver holds no lock between the find and the recycle:
the model leaves out a reply that is dispatched just there.

The card answers the messages that were posted in any order and after any
delay.  `answer` is the moment the card has done with a message, and
`dispatch` the moment its reply reaches
`acq200_processCommandMessageReturn`.

A step that follows a null pointer or unlinks an unlinked entry sets
`oopsed`, and then nothing moves any more.
-/

namespace Acq200.Rch

open Acq200.Lib

/-! ## Clients -/

/-- The kinds of files that send requests.  A bridge file holds
`buffer_AB_busy_mutex` from open to release. -/
inductive Kind where
  | bridge
  | bufferAB
  deriving DecidableEq

inductive Buffer where
  | bufferA
  | bufferB
  deriving DecidableEq

/-- The functions that send a request. -/
inductive Op where
  | read
  | readAB
  | write
  | queue (buffer : Buffer)
  | release
  deriving DecidableEq

/-- The handler function that the operation gives to `buildRch`. -/
def Op.handler : Op → Handler
  | .read | .readAB | .queue _ => .handleReadMessageFile
  | .write => .recycleRchWrapper
  | .release => .handleLastMessage

/-- The flags that the operation gives to `buildRch`. -/
def Op.flags : Op → Nat
  | .read | .write | .release => RCH_KB_POOL
  | .readAB | .queue _ => 0

/-- What `buildRch` predicts for the message of its handler: the id, and how
many messages had been sent by then. -/
structure Predicted where
  commandId : BitVec 16
  sentBefore : Nat
  deriving DecidableEq

/-- Where a client stands.  A constructor names the statement that comes
next, with the handler `e`, its allocation `t` and the mapping that the
function has at that point. -/
inductive Pc where
  | unopened
  | idle
  | allocRch (op : Op) (asleep : Option Nat)
  | allocMapping (op : Op) (e : Nat) (t : Tag) (asleep : Option Nat)
  /-- The test of `kbuf->len`, or of `count` in a write. -/
  | checkLen (op : Op) (e : Nat) (t : Tag) (kbuf : Kbuf)
  /-- `i2o_recycleRch` on the error returns before `buildRch`. -/
  | recycleUnbuilt (e : Nat) (t : Tag) (kbuf : Option Kbuf)
  | freeMapping (kbuf : Kbuf)
  | build (op : Op) (e : Nat) (t : Tag) (kbuf : Option Kbuf)
  | append (op : Op) (e : Nat) (t : Tag) (kbuf : Option Kbuf) (predicted : Predicted)
  | send (op : Op) (e : Nat) (t : Tag) (kbuf : Option Kbuf) (predicted : Predicted)
  | waitRead (e : Nat) (t : Tag)
  | removeIfNotValid (e : Nat) (t : Tag)
  /-- The last `i2o_recycleRch` of a read. -/
  | recycleRead (e : Nat) (t : Tag)
  | waitLast (e : Nat) (t : Tag)
  /-- The test of `my_rch->rchReturn.valid`. -/
  | testLast (e : Nat) (t : Tag)
  | recycleLast (e : Nat) (t : Tag)
  | cleanup
  | closed
  | recycleAB (buffer : Buffer) (recycleA recycleB : Bool)
  | queueAB (buffer : Buffer)
  | waitAB
  /-- `fillDeviceStatus`, for the first or the second time. -/
  | fillAB (second : Bool)
  deriving DecidableEq

/-- `struct Acq200Path`, and where its thread stands. -/
structure Client where
  kind : Kind
  pc : Pc
  /-- `last_direction_hack` is not `LDH_NONE`. -/
  directed : Bool
  hasBusyMutex : Bool
  /-- The entry of `rchAB` and, as ghost, its allocation. -/
  rchAB : Buffer → Option (Nat × Tag)
  abNext : Buffer

/-! ## The system -/

/-- A message that `acq200_sendI2O_kbuf` has written to the card. -/
structure Posted where
  id : BitVec 16
  /-- The pool mapping whose offset is `hrdr[0].pci`.  The messages of the
  AB buffers name absolute addresses, and an end-of-file message moves no
  data. -/
  target : Option Nat
  /-- The request, its handler, and what `buildRch` predicted. -/
  request : Tag
  entry : Nat
  predicted : Predicted
  /-- The number of messages sent before this one. -/
  serial : Nat
  deriving DecidableEq

structure Sys where
  dev : Device
  /-- `buffer_AB_busy_mutex` is free. -/
  busyFree : Bool
  clients : Nat → Client
  /-- The messages that the card has not answered. -/
  unanswered : List Posted
  /-- The replies that wait for the bottom half. -/
  replies : List Posted
  sent : List Posted
  oopsed : Bool

/-- What a program calls on its file. -/
inductive Call where
  | read
  | write
  /-- `copied` says whether the argument could be copied from the user. -/
  | ioctlAB (copied recycleA recycleB : Bool)
  | release
  deriving DecidableEq

inductive Label where
  | openFile (c : Nat) (kind : Kind)
  | call (c : Nat) (call : Call)
  /-- The next statement of the client. -/
  | go (c : Nat)
  /-- The outcome of the length test: `zero` is the error return. -/
  | check (c : Nat) (zero : Bool)
  /-- `acq200_sendI2O_kbuf`; `mfa` says whether the card has a free frame. -/
  | send (c : Nat) (mfa : Bool)
  | wake (c : Nat)
  | timeout (c : Nat)
  | signal (c : Nat)
  | answer (n : Nat)
  | dispatch (n : Nat) (start nsamples : BitVec 32)
  deriving DecidableEq

/-- The target of a message about `kbuf`. -/
def kbufTarget : Option Kbuf → Option Nat
  | some (.mapping m) => some m
  | some .other | none => none

namespace Sys

/-- The system after a step of client `c`. -/
def setClient (s : Sys) (c : Nat) (client : Client) : Sys :=
  { s with clients := Function.update s.clients c client }

def setPc (s : Sys) (c : Nat) (pc : Pc) : Sys :=
  s.setClient c { s.clients c with pc := pc }

theorem setClient_self (s : Sys) (c : Nat) (client : Client) :
    (s.setClient c client).clients c = client := by
  simp [setClient]

theorem setClient_of_ne (s : Sys) {c other : Nat} (h : other ≠ c)
    (client : Client) : (s.setClient c client).clients other = s.clients other :=
  Function.update_of_ne h _ _

theorem setPc_self (s : Sys) (c : Nat) (pc : Pc) :
    (s.setPc c pc).clients c = { s.clients c with pc := pc } :=
  s.setClient_self c _

/-- The device after a call that may fault. -/
def orOops (s : Sys) (d : Option Device) (next : Device → Sys) : Sys :=
  match d with
  | none => { s with oopsed := true }
  | some d => next d

/-- `acq200_ioctlAB` returns: it gives the mutex back. -/
def returnAB (s : Sys) (c : Nat) (client : Client) : Sys :=
  { s with busyFree := true }.setClient c
    { client with pc := .idle, hasBusyMutex := false }

/-- What a request does once its handler is allocated. -/
def afterAllocRch (op : Op) (e : Nat) (t : Tag) : Pc :=
  match op with
  | .read | .write => .allocMapping op e t none
  | .readAB => .checkLen op e t .other
  | .queue _ => .build op e t (some .other)
  | .release => .build op e t none

/-- The handler for an AB buffer goes into `rchAB` at once. -/
def slotsAfterAlloc (op : Op) (slots : Buffer → Option (Nat × Tag)) (e : Nat)
    (t : Tag) : Buffer → Option (Nat × Tag) :=
  match op with
  | .queue buffer => Function.update slots buffer (some (e, t))
  | _ => slots

/-- A read that finds its mapping empty frees it after the handler. -/
def afterRecycleUnbuilt : Option Kbuf → Pc
  | none => .idle
  | some kbuf => .freeMapping kbuf

/-- A stretch of `acq200_pool_alloc_rch`. -/
def goAllocRch (s : Sys) (c : Nat) (op : Op) (asleep : Option Nat) :
    Option Sys :=
  match s.dev.handlers.stretch asleep with
  | none => none
  | some (.sleep ibuf) => some (s.setPc c (.allocRch op (some ibuf)))
  | some (.found e) =>
    let t := ⟨c, s.dev.allocs⟩
    let client := s.clients c
    some ({ s with dev := s.dev.poolAllocRch e c }.setClient c
      { client with
        pc := afterAllocRch op e t
        rchAB := slotsAfterAlloc op client.rchAB e t })

/-- A stretch of `acq200_pool_alloc_mapping`. -/
def goAllocMapping (s : Sys) (c : Nat) (op : Op) (e : Nat) (t : Tag)
    (asleep : Option Nat) : Option Sys :=
  match s.dev.mappings.stretch asleep with
  | none => none
  | some (.sleep ibuf) => some (s.setPc c (.allocMapping op e t (some ibuf)))
  | some (.found m) =>
    some ({ s with dev := s.dev.poolAllocMapping m t }.setPc c
      (.checkLen op e t (.mapping m)))

/-- The next statement of a client that is in one of the calls that send a
request. -/
def goRequest (s : Sys) (c : Nat) : Pc → Option Sys
  | .allocRch op none => s.goAllocRch c op none
  | .allocMapping op e t none => s.goAllocMapping c op e t none
  | .recycleUnbuilt e t kbuf =>
    some (s.orOops (s.dev.i2oRecycleRch e t) fun d =>
      { s with dev := d }.setPc c (afterRecycleUnbuilt kbuf))
  | .freeMapping kbuf =>
    some ({ s with dev := s.dev.poolFreeMapping kbuf }.setPc c .idle)
  | .build op e t kbuf =>
    let d := s.dev.buildRch e op.handler c kbuf op.flags t
    -- Building the message sets `last_direction_hack`.
    some ({ s with dev := d }.setClient c
      { s.clients c with
        pc := .append op e t kbuf ⟨(d.rch e).commandId, s.sent.length⟩
        directed := true })
  | .append op e t kbuf predicted =>
    some (s.orOops (s.dev.rchAppend e) fun d =>
      { s with dev := d }.setPc c (.send op e t kbuf predicted))
  | .removeIfNotValid e t =>
    match s.dev.rchRemoveIfNotValid e with
    | none => some { s with oopsed := true }
    | some (d, valid) =>
      -- An interrupted read leaves its handler to the bottom half.
      some ({ s with dev := d }.setPc c
        (if valid = 0 then .idle else .recycleRead e t))
  | .recycleRead e t =>
    some (s.orOops (s.dev.i2oRecycleRch e t) fun d =>
      { s with dev := d }.setPc c .idle)
  | _ => none

/-- The next statement of a client that closes its file.  In `cleanup` it is a whole
round of the search: the find and the recycle of the handler that was found. -/
def goRelease (s : Sys) (c : Nat) : Pc → Option Sys
  | .testLast e t =>
    some (s.setPc c
      (if (s.dev.rch e).rchReturn.valid = 1 then .recycleLast e t else .cleanup))
  | .recycleLast e t =>
    some (s.orOops (s.dev.i2oRecycleRch e t) fun d =>
      { s with dev := d }.setPc c .cleanup)
  | .cleanup =>
    match s.dev.cleanupRch c with
    | some e =>
      some (s.orOops (s.dev.i2oRecycleRch e (s.dev.rch e).request) fun d =>
        { s with dev := d })
    | none =>
      -- `acq200_release`
      some ({ s with busyFree := s.busyFree || (s.clients c).hasBusyMutex }.setPc c
        .closed)
  | _ => none

/-- The next statement of a client in `acq200_bufferABaction`. -/
def goAB (s : Sys) (c : Nat) : Pc → Option Sys
  | .recycleAB buffer recycleA recycleB =>
    let client := s.clients c
    let next := match buffer with
      | .bufferA => Pc.recycleAB .bufferB recycleA recycleB
      | .bufferB => .queueAB .bufferA
    let wanted := match buffer with
      | .bufferA => recycleA
      | .bufferB => recycleB
    match wanted, client.rchAB buffer with
    | true, some (e, t) =>
      some (s.orOops (s.dev.i2oRecycleRch e t) fun d =>
        { s with dev := d }.setClient c
          { client with
            pc := next, rchAB := Function.update client.rchAB buffer none })
    | _, _ => some (s.setPc c next)
  | .queueAB buffer =>
    match (s.clients c).rchAB buffer, buffer with
    | none, _ => some (s.setPc c (.allocRch (.queue buffer) none))
    | some _, .bufferA => some (s.setPc c (.queueAB .bufferB))
    | some _, .bufferB => some (s.setPc c .waitAB)
  | .fillAB second =>
    let client := s.clients c
    match client.rchAB client.abNext with
    | none => some { s with oopsed := true }
    | some (e, _) =>
      if (s.dev.rch e).rchReturn.valid ≠ 0 then
        let other := match client.abNext with
          | .bufferA => Buffer.bufferB
          | .bufferB => .bufferA
        if second then
          some (s.returnAB c { client with abNext := other })
        else
          some (s.setClient c { client with abNext := other, pc := .fillAB true })
      else some (s.returnAB c client)
  | _ => none

/-- What follows the send of a request. -/
def afterSend (op : Op) (e : Nat) (t : Tag) : Pc :=
  match op with
  | .read | .readAB => .waitRead e t
  | .write => .idle
  | .queue .bufferA => .queueAB .bufferB
  | .queue .bufferB => .waitAB
  | .release => .waitLast e t

/-- The message of the request `t`, if it is sent now. -/
def nextMessage (s : Sys) (e : Nat) (t : Tag) (kbuf : Option Kbuf)
    (predicted : Predicted) : Posted :=
  { id := Device.makeIdDtacq ((s.dev.i2oLastIdOut + 1).signExtend 32)
    target := kbufTarget kbuf
    request := t
    entry := e
    predicted := predicted
    serial := s.sent.length }

/-- `acq200_sendI2O_kbuf`. -/
def sendI2OKbuf (s : Sys) (e : Nat) (t : Tag) (kbuf : Option Kbuf)
    (predicted : Predicted) (mfa : Bool) : Sys :=
  if mfa then
    let message := s.nextMessage e t kbuf predicted
    { s with
      dev := { s.dev with
        i2oLastIdOut := s.dev.i2oLastIdOut + 1
        i2oPacketsOutgoing := s.dev.i2oPacketsOutgoing + 1 }
      unanswered := s.unanswered ++ [message]
      sent := s.sent ++ [message] }
  else s

/-- The condition that a waiting client waits for. -/
def validOf (s : Sys) (e : Nat) : Bool := (s.dev.rch e).rchReturn.valid ≠ 0

/-- The entry that `acq200_bufferABaction` waits for. -/
def nextAB (client : Client) : Option Nat :=
  (client.rchAB client.abNext).map Prod.fst

def wake (s : Sys) (c : Nat) : Pc → Option Sys
  | .allocRch op (some ibuf) => s.goAllocRch c op (some ibuf)
  | .allocMapping op e t (some ibuf) => s.goAllocMapping c op e t (some ibuf)
  | .waitRead e t =>
    if s.validOf e then some (s.setPc c (.removeIfNotValid e t)) else none
  | .waitLast e t => if s.validOf e then some (s.setPc c (.testLast e t)) else none
  | .waitAB =>
    match nextAB (s.clients c) with
    | none => some { s with oopsed := true }
    | some e => if s.validOf e then some (s.setPc c (.fillAB false)) else none
  | _ => none

def timeout (s : Sys) (c : Nat) : Pc → Option Sys
  | .allocRch .release (some _) => some (s.setPc c (.allocRch .release none))
  -- `buildRch` on a null handler.
  | .allocRch (.queue _) (some _) => some { s with oopsed := true }
  | .allocRch _ (some _) => some (s.setPc c .idle)
  | .allocMapping _ e t (some _) => some (s.setPc c (.recycleUnbuilt e t none))
  | .waitAB => some (s.returnAB c (s.clients c))
  | _ => none

def signal (s : Sys) (c : Nat) : Pc → Option Sys
  | .waitRead e t => some (s.setPc c (.removeIfNotValid e t))
  | .waitLast e t => some (s.setPc c (.testLast e t))
  | .waitAB => some (s.returnAB c (s.clients c))
  | _ => none

/-- The length test.  A write with no bytes returns at once. -/
def check (s : Sys) (c : Nat) (zero : Bool) : Pc → Option Sys
  | .checkLen op e t kbuf =>
    if zero then
      if op = .write then some (s.setPc c .idle)
      else some (s.setPc c (.recycleUnbuilt e t (some kbuf)))
    else some (s.setPc c (.build op e t (some kbuf)))
  | _ => none

/-- A client with no call in progress makes a call. -/
def call (s : Sys) (c : Nat) (client : Client) : Call → Option Sys
  | .read =>
    let op := match client.kind with
      | .bridge => Op.read
      | .bufferAB => .readAB
    some (s.setPc c (.allocRch op none))
  | .write => some (s.setPc c (.allocRch .write none))
  | .ioctlAB copied recycleA recycleB =>
    if client.kind = .bufferAB ∧ s.busyFree then
      -- `COPY_FROM_USER` returns with the mutex held.
      some ({ s with busyFree := false }.setClient c
        { client with
          pc := if copied then .recycleAB .bufferA recycleA recycleB else .idle
          hasBusyMutex := true })
    else none
  | .release =>
    some (s.setPc c (if client.directed then .allocRch .release none else .cleanup))

def openFile (s : Sys) (c : Nat) : Kind → Option Sys
  | .bridge =>
    if s.busyFree then
      some ({ s with busyFree := false }.setClient c
        { s.clients c with kind := .bridge, pc := .idle, hasBusyMutex := true })
    else none
  | .bufferAB =>
    some (s.setClient c { s.clients c with kind := .bufferAB, pc := .idle })

/-- A step of client `c`. -/
def clientStep (s : Sys) (c : Nat) (l : Label) : Option Sys :=
  let pc := (s.clients c).pc
  match l with
  | .openFile _ kind => if pc = .unopened then s.openFile c kind else none
  | .call _ call => if pc = .idle then s.call c (s.clients c) call else none
  | .go _ =>
    (s.goRequest c pc).orElse fun _ =>
      (s.goRelease c pc).orElse fun _ => s.goAB c pc
  | .check _ zero => s.check c zero pc
  | .send _ mfa =>
    match pc with
    | .send op e t kbuf predicted =>
      some ((s.sendI2OKbuf e t kbuf predicted mfa).setPc c (afterSend op e t))
    | _ => none
  | .wake _ => s.wake c pc
  | .timeout _ => s.timeout c pc
  | .signal _ => s.signal c pc
  | .answer _ | .dispatch _ _ _ => none

def step (l : Label) (s : Sys) : Option Sys :=
  if s.oopsed then none
  else
    match l with
    | .answer n =>
      s.unanswered[n]?.map fun p =>
        { s with unanswered := s.unanswered.eraseIdx n, replies := s.replies ++ [p] }
    | .dispatch n start nsamples =>
      s.replies[n]?.map fun p =>
        s.orOops (s.dev.processCommandMessageReturn p.id start nsamples) fun d =>
          { s with dev := d, replies := s.replies.eraseIdx n }
    | .openFile c _ | .call c _ | .go c | .check c _ | .send c _ | .wake c
    | .timeout c | .signal c => s.clientStep c l

end Sys

/-- A path that is not open. -/
def unopenedClient : Client :=
  { kind := .bridge, pc := .unopened, directed := false, hasBusyMutex := false,
    rchAB := fun _ => none, abNext := .bufferA }

/-- A device with no file open, whose id counter stands at `lastId`. -/
def initial (lastId : BitVec 16) : Sys :=
  { dev := poolCreate lastId, busyFree := true, clients := fun _ => unopenedClient,
    unanswered := [], replies := [], sent := [], oopsed := false }

end Acq200.Rch
