import Mathlib.Data.List.Basic
import Mathlib.Data.List.Nodup
import Acq200.Rch.Pool

/-!
# Return command handlers

A request to the card carries an id, and a `ReturnCommandHandler` with the
same id waits on the device's `rch` list for the reply.  This module has
the handlers, the two pools of the device and the functions of `rch.h` and
`acq200_i2o.c` that work on them.

Handlers and mappings are known by their index in their pool, and a path
by the number of the client that opened it.  A function that would follow
a null pointer, or unlink an entry that is not linked, answers `none`.

The last four fields of `Device`, the field `request` of a handler and the
argument `caller` are ghost.  They number the allocations of handlers, say
which allocation holds an entry, and record each call of
`acq200_pool_free_rch` with the allocation on whose behalf it was made.
-/

namespace Acq200.Rch

/-! ## Data -/

/-- One successful `acq200_pool_alloc_rch`: the client that made it, and its
number among the allocations of the device. -/
structure Tag where
  client : Nat
  seq : Nat
  deriving DecidableEq

/-- The functions that a `handler` field can point to. -/
inductive Handler where
  | handleReadMessageFile
  | recycleRchWrapper
  | handleLastMessage
  deriving DecidableEq

/-- What a `kbuf` field points to: a mapping of the pool, or a mapping on
the stack or in the path. -/
inductive Kbuf where
  | mapping (ibuf : Nat)
  | other
  deriving DecidableEq

/-- `RCH_KB_POOL`. -/
def RCH_KB_POOL : Nat := 1

structure RchReturn where
  valid : Int
  startId : BitVec 32
  nbytes : BitVec 32
  kbuf : Option Kbuf
  flags : Nat
  deriving DecidableEq

/-- `struct ReturnCommandHandler`.  The field `device` says whether the
pointer is set. -/
structure ReturnCommandHandler where
  handler : Option Handler
  path : Option Nat
  device : Bool
  commandId : BitVec 16
  rchReturn : RchReturn
  /-- The allocation that the handler was built for. -/
  request : Tag
  deriving DecidableEq

/-- One call of `acq200_pool_free_rch`, with what held just before it. -/
structure Free where
  entry : Nat
  caller : Tag
  reserved : Bool
  owner : Option Tag
  deriving DecidableEq

structure Device where
  rch : Nat → ReturnCommandHandler
  /-- The list `m_dpd.rch.list`. -/
  list : List Nat
  handlers : Pool
  mappings : Pool
  i2oLastIdOut : BitVec 16
  i2oPacketsOutgoing : BitVec 32
  i2oPacketsDiscarded : BitVec 32
  /-- The allocation that holds a handler. -/
  owner : Nat → Option Tag
  /-- The request that a mapping was allocated for. -/
  mappingOwner : Nat → Option Tag
  allocs : Nat
  frees : List Free

/-- `NHANDLERS` and `NMAPPINGS`. -/
def NHANDLERS : Nat := 16
def NMAPPINGS : Nat := 4

/-- `MSG_MAPPING`, the mapping that holds the message frames. -/
def MSG_MAPPING : Nat := NMAPPINGS - 1

/-- A handler that `_create_handlers` has cleared. -/
def clearedRch : ReturnCommandHandler :=
  { handler := none, path := none, device := false, commandId := 0#16,
    rchReturn := ⟨0, 0#32, 0#32, none, 0⟩, request := ⟨0, 0⟩ }

/-- A device after `acq200_pool_create`, with an id counter of `lastId`. -/
def poolCreate (lastId : BitVec 16) : Device :=
  { rch := fun _ => clearedRch
    list := []
    handlers := ⟨NHANDLERS, fun _ => false, 0⟩
    mappings := ⟨NMAPPINGS, fun ibuf => ibuf == MSG_MAPPING, 0⟩
    i2oLastIdOut := lastId
    i2oPacketsOutgoing := 0#32
    i2oPacketsDiscarded := 0#32
    owner := fun _ => none
    mappingOwner := fun _ => none
    allocs := 0
    frees := [] }

/-! ## The pools -/

namespace Device

/-- `acq200_pool_alloc_rch` has found entry `e` for `client`. -/
def poolAllocRch (d : Device) (e client : Nat) : Device :=
  { d with
    handlers := d.handlers.take e
    owner := Function.update d.owner e (some ⟨client, d.allocs⟩)
    allocs := d.allocs + 1 }

def poolFreeRch (d : Device) (e : Nat) (caller : Tag) : Device :=
  { d with
    handlers := d.handlers.free e
    owner := Function.update d.owner e none
    frees := d.frees ++ [⟨e, caller, d.handlers.reserved e, d.owner e⟩] }

/-- `acq200_pool_alloc_mapping` has found mapping `m` for `request`. -/
def poolAllocMapping (d : Device) (m : Nat) (request : Tag) : Device :=
  { d with
    mappings := d.mappings.take m
    mappingOwner := Function.update d.mappingOwner m (some request) }

def poolFreeMapping (d : Device) : Kbuf → Device
  | .mapping m =>
    { d with
      mappings := d.mappings.free m
      mappingOwner := Function.update d.mappingOwner m none }
  | .other => d

/-! ## The list of handlers -/

def setRch (d : Device) (e : Nat) (rch : ReturnCommandHandler) : Device :=
  { d with rch := Function.update d.rch e rch }

/-- `rchAppend`.  Linking an entry twice would corrupt the list. -/
def rchAppend (d : Device) (e : Nat) : Option Device :=
  if e ∈ d.list then none else some { d with list := d.list ++ [e] }

/-- `list_del`, on an entry that has to be linked. -/
def listDel (d : Device) (e : Nat) : Option Device :=
  if e ∈ d.list then some { d with list := d.list.erase e } else none

def rchRemove (d : Device) (e : Nat) : Option Device :=
  (d.listDel e).map fun d =>
    d.setRch e { d.rch e with path := none, handler := none }

/-- `rchRemoveIfNotValid`, with the `valid` flag that it answers. -/
def rchRemoveIfNotValid (d : Device) (e : Nat) : Option (Device × Int) :=
  let valid := (d.rch e).rchReturn.valid
  if valid ≠ 1 then
    (if valid < 0 then d.listDel e else some d).map fun d =>
      (d.setRch e { d.rch e with handler := none }, valid)
  else some (d, valid)

/-- The fields that `rchSetSamplesAndGetPath` fills in. -/
def setSamples (r : RchReturn) (id nsamples : BitVec 32) : RchReturn :=
  if nsamples = 0xffffffff#32 then { r with valid := -1 }
  else { r with startId := id, nbytes := nsamples * 2, valid := 1 }

/-- The bytes that a reply speaks of.  An error reply speaks of none. -/
def saidBytes (nsamples : BitVec 32) : Nat :=
  if nsamples = 0xffffffff#32 then 0 else (nsamples * 2).toNat

/-- `rchSetSamplesAndGetPath`, with the path that it answers. -/
def rchSetSamplesAndGetPath (d : Device) (e : Nat) (id nsamples : BitVec 32) :
    Device × Option Nat :=
  let r := setSamples (d.rch e).rchReturn id nsamples
  (d.setRch e { d.rch e with rchReturn := r }, (d.rch e).path)

/-! ## Requests and replies -/

/-- `MAKE_ID_DTACQ`. -/
def makeIdDtacq (n : BitVec 32) : BitVec 16 :=
  ((n &&& 0x7f#32) <<< 8 ||| 0xdc#32).setWidth 16

/-- `buildRch`.  The id is the one that the next message will get. -/
def buildRch (d : Device) (e : Nat) (handler : Handler) (path : Nat)
    (kbuf : Option Kbuf) (flags : Nat) (request : Tag) : Device :=
  d.setRch e
    { handler := some handler
      path := some path
      device := true
      commandId := makeIdDtacq (d.i2oLastIdOut.signExtend 32 + 1)
      rchReturn :=
        { (d.rch e).rchReturn with
          valid := 0, nbytes := 0, kbuf := kbuf, flags := flags }
      request := request }

/-- The mapping that `i2o_recycleRch` frees with the handler, if any. -/
def poolKbuf (r : RchReturn) : Option Kbuf :=
  if r.flags &&& RCH_KB_POOL ≠ 0 then r.kbuf else none

def i2oRecycleRch (d : Device) (e : Nat) (caller : Tag) : Option Device :=
  (if (d.rch e).path.isSome then d.rchRemove e else some d).bind fun d =>
    -- Both frees go through `self->device`.
    if (d.rch e).device then
      let d := match poolKbuf (d.rch e).rchReturn with
        | none => d
        | some kbuf => d.poolFreeMapping kbuf
      some (d.poolFreeRch e caller)
    else none

/-- The three handler functions. -/
def handle (d : Device) (e : Nat) (start nsamples : BitVec 32) :
    Handler → Option Device
  | .handleReadMessageFile =>
    match d.rchSetSamplesAndGetPath e start nsamples with
    | (d, some _) => some d
    | (d, none) => d.i2oRecycleRch e (d.rch e).request
  | .recycleRchWrapper => d.i2oRecycleRch e (d.rch e).request
  | .handleLastMessage =>
    let r := { (d.rch e).rchReturn with valid := 1 }
    let d := d.setRch e { d.rch e with rchReturn := r }
    -- The path is woken up before the handler is recycled.
    if (d.rch e).path.isSome then d.i2oRecycleRch e (d.rch e).request else none

/-- The handler on the list that a reply with this id goes to. -/
def findRch (d : Device) (id : BitVec 16) : Option Nat :=
  d.list.find? fun e => (d.rch e).commandId == id

def processCommandMessageReturn (d : Device) (id : BitVec 16)
    (start nsamples : BitVec 32) : Option Device :=
  match d.findRch id with
  | none => some d
  | some e =>
    match (d.rch e).handler with
    | some handler => d.handle e start nsamples handler
    | none =>
      (d.i2oRecycleRch e (d.rch e).request).map fun d =>
        { d with i2oPacketsDiscarded := d.i2oPacketsDiscarded + 1 }

/-- The handler that the next round of `_cleanup_on_bridge_release`
recycles. -/
def cleanupRch (d : Device) (path : Nat) : Option Nat :=
  d.list.find? fun e => (d.rch e).path == some path

end Device

end Acq200.Rch
