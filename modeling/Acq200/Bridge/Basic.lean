import Acq200.Buffers.Mappings
import Acq200.Rch.DeviceInv

/-!
# One call on a bridge file

`acq200_bridge_read_generic`, `acq200_bridge_write_generic`,
`acq200_bufferAB_queue` and `acq200_bridge_release_message` from entry to
return, for a client that is alone on the device.  `Rch.System` has the
same functions cut into steps; here a call is one function, and it has the
data that the steps leave out: the position, the counts, the record that
goes to the card and the address ranges that are copied and synchronised.

`Env` says what the card and the user do during the call.  A reply that
comes in time is dispatched to the handler of the request.  A sleep of a
pool scan that nobody ends is a timeout.

The result of `acq200_sendI2O_kbuf` is in `Outcome.sendRc`.  No caller of
the source looks at it.
-/

namespace Acq200.Bridge

open Acq200.Buffers
open Acq200.Rch

/-! ## Data -/

def EINTR : Int := 4
def ENOMEM : Int := 12
def EFAULT : Int := 14
def ETIMEDOUT : Int := 110
def EACQ32_NO_INCOMING_I2O : Int := 3200

def HRD_CHAN_IS_FILE : BitVec 16 := 0x8000#16
def HRD_ABS_PCI : BitVec 16 := 0x2000#16
def HRD_READ_NEXT : BitVec 16 := 0x1000#16
def HRD_CHAN_EOF : BitVec 16 := 0x0400#16

/-- `struct IoMapping` with its virtual address. -/
structure KBuf extends IoMapping where
  va : Nat
  deriving DecidableEq

/-- The loop of `_create_mappings`, with both addresses of each mapping. -/
def createKBufsFrom (buf : DmaBuf) (offset : BitVec 32) : Nat → List KBuf
  | 0 => []
  | n + 1 =>
    { va := buf.va.getD 0 + offset.toNat, pa := buf.pa + offset, len := mappingLen buf }
      :: createKBufsFrom buf (offset + mappingLen buf) n

def createKBufs (buf : DmaBuf) : List KBuf := createKBufsFrom buf 0#32 NMAPPINGS

/-- The parts of an open file that its calls use: its path, its channel, the
buffer of the device and the items of the mapping pool. -/
structure File where
  path : Nat
  chan : BitVec 16
  dmaBuf : DmaBuf
  kbuf : Nat → KBuf
  /-- The length of a mapping is an `int` that is not negative. -/
  len_lt : ∀ m, (kbuf m).len.toNat < 2 ^ 31

/-- A file on a device whose mappings have 1024 bytes. -/
def onePage : File where
  path := 0
  chan := 1#16
  dmaBuf := ⟨0, some 0xc0100000, 0x100000#32⟩
  kbuf := fun m =>
    { pa := 0x100000#32 + BitVec.ofNat 32 (1024 * m), len := 1024#32
      va := 0xc0100000 + 1024 * m }
  len_lt := by
    intro m
    show 1024 < 2 ^ 31
    decide

/-- `min(count, (size_t)kbuf->len)`. -/
def KBuf.clip (kbuf : KBuf) (count : Nat) : Nat := min count (kbuf.len.signExtend 64).toNat

/-- Which way the data goes. -/
inductive Direction where
  | outbound
  | inbound
  deriving DecidableEq

/-- `hrdr[0]` of a message, and the direction in its header. -/
structure HostRequest where
  direction : Direction
  pci : BitVec 32
  start : BitVec 32
  nsamples : BitVec 32
  chan : BitVec 16
  stride : BitVec 16
  deriving DecidableEq

/-- What happens outside the driver during a call. -/
structure Env where
  /-- The inbound queue has a free frame. -/
  mfa : Bool
  /-- `start` and `nsamples` of the reply that ends the wait.  Without one
  a signal ends it. -/
  reply : Option (BitVec 32 × BitVec 32)

/-- What a call did. -/
structure Outcome where
  /-- A call that faults or hangs returns nothing. -/
  rc : Option Int
  device : Device
  posp : BitVec 64
  request : Option HostRequest
  sendRc : Option Int
  /-- The call has waited for a reply. -/
  waited : Bool
  /-- Where a user copy went to or came from, and its count. -/
  copied : Option (Nat × Int)
  /-- What was passed to `dma_sync_single_for_device` or `_for_cpu`. -/
  synced : Option (BitVec 32 × Int)

/-! ## Messages -/

/-- `build_hrd_message`. -/
def buildHrdMessage (file : File) (pa start length : BitVec 32) (stride : BitVec 16)
    (direction : Direction) (cflags : BitVec 16) : HostRequest where
  direction := direction
  pci := pa
  start := start
  nsamples := length
  chan := file.chan ||| cflags
  stride := stride

/-- `build_outgoing_raw_message`. -/
def buildOutgoingRawMessage (file : File) (pa startByte nbytes : BitVec 32)
    (cflags : BitVec 16) : HostRequest :=
  buildHrdMessage file pa (startByte / 2) (nbytes / 2) 1 .outbound cflags

/-- `build_incoming_raw_message`. -/
def buildIncomingRawMessage (file : File) (pa startByte nbytes : BitVec 32)
    (cflags : BitVec 16) : HostRequest :=
  buildHrdMessage file pa (startByte / 2) (nbytes / 2) 1 .inbound cflags

/-- `acq200_sendI2O_kbuf`. -/
def sendI2OKbuf (d : Device) (mfa : Bool) : Device × Int :=
  if mfa then
    ({ d with
        i2oLastIdOut := d.i2oLastIdOut + 1
        i2oPacketsOutgoing := d.i2oPacketsOutgoing + 1 }, 0)
  else (d, -EACQ32_NO_INCOMING_I2O)

/-! ## The calls -/

/-- `buildRch`, `rchAppend` and `acq200_sendI2O_kbuf`, one after another as
in each of the four callers. -/
def postRequest (d : Device) (e : Nat) (handler : Handler) (path : Nat) (kbuf : Option Kbuf)
    (flags : Nat) (t : Tag) (mfa : Bool) : Option (Device × Int) :=
  ((d.buildRch e handler path kbuf flags t).rchAppend e).map fun d => sendI2OKbuf d mfa

/-- `_alloc` for a client that is alone. -/
def allocAlone (p : Pool) : Option Nat :=
  match p.stretch none with
  | some (.found ibuf) => some ibuf
  | _ => none

/-- A call that has done nothing yet but return `rc`. -/
def Outcome.early (rc : Option Int) (d : Device) (posp : BitVec 64) : Outcome where
  rc := rc
  device := d
  posp := posp
  request := none
  sendRc := none
  waited := false
  copied := none
  synced := none

/-- `i2o_recycleRch` before `buildRch`, and the return after it. -/
def recycleUnbuilt (d : Device) (e : Nat) (t : Tag) (posp : BitVec 64)
    (next : Device → Outcome) : Outcome :=
  match d.i2oRecycleRch e t with
  | none => Outcome.early none d posp
  | some d => next d

/-- `acq200_bridge_write_generic`. -/
def bridgeWriteGeneric (file : File) (hrdCode : BitVec 16) (d : Device) (count : Nat)
    (posp : BitVec 64) (env : Env) : Outcome :=
  match allocAlone d.handlers with
  | none => Outcome.early (some (-ETIMEDOUT)) d posp
  | some e =>
    let t : Tag := ⟨file.path, d.allocs⟩
    let d := d.poolAllocRch e file.path
    match allocAlone d.mappings with
    | none =>
      recycleUnbuilt d e t posp fun d => Outcome.early (some (-ETIMEDOUT)) d posp
    | some m =>
      let d := d.poolAllocMapping m t
      let kbuf := file.kbuf m
      let pam := mkDmabufOffset kbuf.toIoMapping file.dmaBuf
      let count := kbuf.clip count
      -- Both the handler and the mapping stay reserved here.
      if count = 0 then Outcome.early (some (-ENOMEM)) d posp
      else
        let message := buildOutgoingRawMessage file pam (posp.setWidth 32)
          (BitVec.ofNat 32 count) hrdCode
        let done : Outcome :=
          { rc := none, device := d, posp := posp, request := some message, sendRc := none
            waited := false, copied := some (kbuf.va, count)
            synced := some (file.dmaBuf.pa, count) }
        match postRequest d e .recycleRchWrapper file.path (some (.mapping m)) RCH_KB_POOL t
          env.mfa with
        | none => done
        | some (d, sendRc) =>
          { done with
            rc := some count
            device := d
            posp := posp + BitVec.ofNat 64 count
            sendRc := some sendRc }

/-- The device when the wait of a read is over. -/
def afterWait (d : Device) (e : Nat) (handler : Handler) (env : Env) : Option Device :=
  match env.mfa, env.reply with
  | true, some (start, nsamples) => d.handle e start nsamples handler
  | _, _ => some d

/-- The end of `acq200_bridge_read_generic`, from the `switch` on. -/
def finishRead (done : Outcome) (e : Nat) (t : Tag) (kbuf : KBuf) : Outcome :=
  match done.device.rchRemoveIfNotValid e with
  | none => done
  | some (d, valid) =>
    if valid = 1 then
      let count := (d.rch e).rchReturn.nbytes.toInt
      let done := { done with
        device := d
        synced := some (kbuf.pa, count)
        copied := some (kbuf.va, count)
        posp := done.posp + BitVec.ofInt 64 count }
      match d.i2oRecycleRch e t with
      | none => done
      | some d => { done with rc := some count, device := d }
    else if valid = 0 then { done with rc := some (-EINTR), device := d }
    else
      match d.i2oRecycleRch e t with
      | none => { done with device := d }
      | some d => { done with rc := some (-EFAULT), device := d }

/-- `acq200_bridge_read_generic` from the test of `kbuf->len` on. -/
def readInto (file : File) (hrdCode : BitVec 16) (d : Device) (count : Nat)
    (posp : BitVec 64) (env : Env) (e : Nat) (t : Tag) (kbuf : KBuf) (pooled : Kbuf)
    (pam : BitVec 32) (flags : Nat) : Outcome :=
  if kbuf.len = 0 then
    recycleUnbuilt d e t posp fun d =>
      Outcome.early (some (-ENOMEM)) (d.poolFreeMapping pooled) posp
  else
    let count := kbuf.clip count
    let message := buildIncomingRawMessage file pam (posp.setWidth 32)
      (BitVec.ofNat 32 count) hrdCode
    let done : Outcome :=
      { rc := none, device := d, posp := posp, request := some message, sendRc := none
        waited := false, copied := none, synced := none }
    match postRequest d e .handleReadMessageFile file.path (some pooled) flags t env.mfa with
    | none => done
    | some (d, sendRc) =>
      let done := { done with device := d, sendRc := some sendRc, waited := true }
      match afterWait d e .handleReadMessageFile env with
      | none => done
      | some d => finishRead { done with device := d } e t kbuf

/-- `acq200_bridge_read_generic`.  Without a mapping of its own (`USE_POOL`)
the call takes one from the pool. -/
def bridgeReadGeneric (file : File) (hrdCode : BitVec 16) (d : Device) (count : Nat)
    (posp : BitVec 64) (given : Option KBuf) (env : Env) : Outcome :=
  match allocAlone d.handlers with
  | none => Outcome.early (some (-ETIMEDOUT)) d posp
  | some e =>
    let t : Tag := ⟨file.path, d.allocs⟩
    let d := d.poolAllocRch e file.path
    match given with
    | some kbuf =>
      readInto file hrdCode d count posp env e t kbuf .other kbuf.pa 0
    | none =>
      match allocAlone d.mappings with
      | none =>
        recycleUnbuilt d e t posp fun d => Outcome.early (some (-ETIMEDOUT)) d posp
      | some m =>
        let kbuf := file.kbuf m
        readInto file hrdCode (d.poolAllocMapping m t) count posp env e t kbuf (.mapping m)
          (mkDmabufOffset kbuf.toIoMapping file.dmaBuf) RCH_KB_POOL

/-- `acq200_bridge_write`. -/
def bridgeWrite (file : File) (d : Device) (count : Nat) (posp : BitVec 64) (env : Env) :
    Outcome :=
  bridgeWriteGeneric file HRD_CHAN_IS_FILE d count posp env

/-- `acq200_bridge_read`. -/
def bridgeRead (file : File) (d : Device) (count : Nat) (posp : BitVec 64) (env : Env) :
    Outcome :=
  bridgeReadGeneric file HRD_CHAN_IS_FILE d count posp none env

/-- `acq200_bridge_readAB`, with the mapping of its first buffer. -/
def bridgeReadAB (file : File) (d : Device) (count : Nat) (posp : BitVec 64)
    (mapping : KBuf) (env : Env) : Outcome :=
  bridgeReadGeneric file (HRD_CHAN_IS_FILE ||| HRD_ABS_PCI) d count posp (some mapping) env

/-- `acq200_bufferAB_queue` for a buffer at `mapping`, with the sequence
number `sid`.  The function returns nothing, which is 0 here, and a null
handler is a fault. -/
def bufferABQueue (file : File) (d : Device) (sid : BitVec 32) (mapping : KBuf)
    (env : Env) : Outcome :=
  match allocAlone d.handlers with
  | none => Outcome.early none d 0
  | some e =>
    let t : Tag := ⟨file.path, d.allocs⟩
    let message := buildHrdMessage file mapping.pa sid (mapping.len / 2) 1 .inbound
      (HRD_CHAN_IS_FILE ||| HRD_ABS_PCI ||| HRD_READ_NEXT)
    let d := d.poolAllocRch e file.path
    let done : Outcome := { Outcome.early none d 0 with request := some message }
    match postRequest d e .handleReadMessageFile file.path (some .other) 0 t env.mfa with
    | none => done
    | some (d, sendRc) =>
      { done with rc := some 0, device := d, sendRc := some sendRc }

/-- The loop of `_cleanup_on_bridge_release`.  Each round unlinks an entry. -/
def cleanupOnBridgeRelease (path : Nat) : Nat → Device → Option Device
  | 0, d => some d
  | rounds + 1, d =>
    match d.cleanupRch path with
    | none => some d
    | some e =>
      (d.i2oRecycleRch e (d.rch e).request).bind (cleanupOnBridgeRelease path rounds)

/-- `acq200_bridge_release_message`.  A client that is alone asks for a
handler for ever when there is none. -/
def bridgeReleaseMessage (file : File) (d : Device) (message : HostRequest) (env : Env) :
    Outcome :=
  match allocAlone d.handlers with
  | none => Outcome.early none d 0
  | some e =>
    let t : Tag := ⟨file.path, d.allocs⟩
    let d := d.poolAllocRch e file.path
    let done : Outcome := { Outcome.early none d 0 with request := some message }
    match postRequest d e .handleLastMessage file.path none RCH_KB_POOL t env.mfa with
    | none => done
    | some (d, sendRc) =>
      let done := { done with device := d, sendRc := some sendRc, waited := true }
      match afterWait d e .handleLastMessage env with
      | none => done
      | some d =>
        let ended := if (d.rch e).rchReturn.valid = 1 then d.i2oRecycleRch e t else some d
        match ended.bind fun d => cleanupOnBridgeRelease file.path d.list.length d with
        | none => { done with device := d }
        | some d => { done with rc := some 0, device := d }

/-- `acq200_bridge_release` after a transfer in this direction. -/
def bridgeRelease (file : File) (d : Device) (direction : Direction) (env : Env) : Outcome :=
  let message := match direction with
    | .outbound => buildOutgoingRawMessage file 0 0 0 (HRD_CHAN_IS_FILE ||| HRD_CHAN_EOF)
    | .inbound => buildIncomingRawMessage file 0 0 0 (HRD_CHAN_IS_FILE ||| HRD_CHAN_EOF)
  bridgeReleaseMessage file d message env

/-! ## What a call does -/

section Calls

variable {file : File} {hrdCode : BitVec 16} {d d' : Device} {count e m : Nat}
  {posp : BitVec 64} {env : Env} {t : Tag} {kbuf : KBuf} {pooled : Kbuf}
  {pam : BitVec 32} {flags : Nat}

theorem clip_le (kbuf : KBuf) (count : Nat) : kbuf.clip count ≤ count := Nat.min_le_left _ _

theorem clip_eq (file : File) (m count : Nat) :
    (file.kbuf m).clip count = min count (file.kbuf m).len.toNat := by
  have hlt := file.len_lt m
  rw [KBuf.clip, BitVec.toNat_signExtend, BitVec.msb_eq_decide,
    decide_eq_false (by omega)]
  simp only [Bool.false_eq_true, if_false, Nat.add_zero, BitVec.toNat_setWidth]
  rw [Nat.mod_eq_of_lt (by omega)]

theorem clip_lt (file : File) (m count : Nat) : (file.kbuf m).clip count < 2 ^ 31 := by
  have := file.len_lt m
  rw [clip_eq]
  omega

theorem allocAlone_found {p : Pool} {ibuf : Nat} (h : allocAlone p = some ibuf) :
    p.reserved ibuf = false ∧ ibuf < p.maxEntries := by
  rw [allocAlone] at h
  split at h
  · rename_i found hfound
    cases h
    exact Pool.stretch_found hfound
  · cases h

/-- The mapping pool after the mapping of a handler is freed. -/
def freePooled (kbuf : Option Kbuf) (p : Pool) : Pool :=
  match kbuf with
  | some (.mapping m) => p.free m
  | _ => p

theorem recycled_mappings (h : d.i2oRecycleRch e t = some d') :
    d'.mappings = freePooled (Device.poolKbuf (d.rch e).rchReturn) d.mappings := by
  have hmaps := congrArg Prod.fst (Device.recycled h).mappings
  revert hmaps
  rcases Device.poolKbuf (d.rch e).rchReturn with _ | ⟨m | _⟩ <;> exact id

/-- A request whose handler is linked and whose message has been offered to
the card. -/
structure Requested (d d' : Device) (e : Nat) (handler : Handler) (path : Nat)
    (kbuf : Option Kbuf) (flags : Nat) (t : Tag) (mfa : Bool) (rc : Int) : Prop where
  fresh : e ∉ d.list
  list : d'.list = d.list ++ [e]
  rch : d'.rch e =
    { handler := some handler
      path := some path
      device := true
      commandId := Device.makeIdDtacq (d.i2oLastIdOut.signExtend 32 + 1)
      rchReturn :=
        { (d.rch e).rchReturn with
          valid := 0, nbytes := 0, kbuf := kbuf, flags := flags }
      request := t }
  handlers : d'.handlers = d.handlers
  mappings : d'.mappings = d.mappings
  lastId : d'.i2oLastIdOut = if mfa then d.i2oLastIdOut + 1 else d.i2oLastIdOut
  rc : rc = if mfa then 0 else -EACQ32_NO_INCOMING_I2O

theorem requested {handler : Handler} {path : Nat} {kbuf : Option Kbuf} {mfa : Bool}
    {rc : Int} (h : postRequest d e handler path kbuf flags t mfa = some (d', rc)) :
    Requested d d' e handler path kbuf flags t mfa rc := by
  obtain ⟨d₁, happend, hsend⟩ := Option.map_eq_some_iff.mp h
  rw [Device.rchAppend] at happend
  split at happend
  · cases happend
  · rename_i hfresh
    cases happend
    cases mfa <;> cases hsend <;>
      exact ⟨hfresh, rfl, by simp [Device.buildRch, Device.setRch], rfl, rfl, rfl, rfl⟩

/-- A request faults only when its handler is linked already. -/
theorem postRequest_eq_none {handler : Handler} {path : Nat} {kbuf : Option Kbuf}
    {mfa : Bool} : postRequest d e handler path kbuf flags t mfa = none ↔ e ∈ d.list := by
  rw [postRequest, Option.map_eq_none_iff, Device.rchAppend]
  show (if e ∈ d.list then _ else _) = none ↔ _
  split
  · exact iff_of_true rfl ‹_›
  · exact iff_of_false (Option.some_ne_none _) ‹_›

section Finish

variable {mfa : Bool} {rc : Int} {path : Nat} {start nsamples : BitVec 32} {done : Outcome}

/-- The device after a reply to the request. -/
def replied (d : Device) (e : Nat) (start nsamples : BitVec 32) : Device :=
  d.setRch e { d.rch e with
    rchReturn := Device.setSamples (d.rch e).rchReturn start nsamples }

theorem afterWait_reply
    (h : Requested d d' e .handleReadMessageFile path (some pooled) flags t env.mfa rc)
    (hmfa : env.mfa = true) (hreply : env.reply = some (start, nsamples)) :
    afterWait d' e .handleReadMessageFile env = some (replied d' e start nsamples) := by
  rw [afterWait, hmfa, hreply]
  exact Device.handle_read (by rw [h.rch])

theorem afterWait_signal {handler : Handler} (h : env.mfa = false ∨ env.reply = none) :
    afterWait d e handler env = some d := by
  rw [afterWait]
  rcases h with h | h
  · rw [h]
  · rw [h]
    cases env.mfa <;> rfl

/-- A reply with data: its bytes are copied and the handler is recycled. -/
theorem finishRead_data (hvalid : (done.device.rch e).rchReturn.valid = 1)
    (hrecycle : done.device.i2oRecycleRch e t = some d') :
    finishRead done e t kbuf =
      { done with
        rc := some (done.device.rch e).rchReturn.nbytes.toInt
        device := d'
        synced := some (kbuf.pa, (done.device.rch e).rchReturn.nbytes.toInt)
        copied := some (kbuf.va, (done.device.rch e).rchReturn.nbytes.toInt)
        posp := done.posp +
          BitVec.ofInt 64 (done.device.rch e).rchReturn.nbytes.toInt } := by
  have hremove : done.device.rchRemoveIfNotValid e = some (done.device, 1) := by
    simp [Device.rchRemoveIfNotValid, hvalid]
  simp only [finishRead, hremove, hrecycle, if_true]

/-- No reply: the handler is left to the bottom half. -/
theorem finishRead_signal (hvalid : (done.device.rch e).rchReturn.valid = 0) :
    finishRead done e t kbuf =
      { done with
        rc := some (-EINTR)
        device := done.device.setRch e { done.device.rch e with handler := none } } := by
  have hremove : done.device.rchRemoveIfNotValid e =
      some (done.device.setRch e { done.device.rch e with handler := none }, 0) := by
    simp [Device.rchRemoveIfNotValid, hvalid]
  simp only [finishRead, hremove]
  simp

/-- An error reply: the handler is unlinked, and `i2o_recycleRch` unlinks it
again. -/
theorem finishRead_error (hvalid : (done.device.rch e).rchReturn.valid = -1)
    (hpath : (done.device.rch e).path.isSome = true) (hm : e ∈ done.device.list)
    (hnodup : e ∉ done.device.list.erase e) (hrc : done.rc = none) :
    (finishRead done e t kbuf).rc = none ∧ (finishRead done e t kbuf).posp = done.posp := by
  have hremove : done.device.rchRemoveIfNotValid e =
      some ({ done.device with list := done.device.list.erase e }.setRch e
        { done.device.rch e with handler := none }, -1) := by
    simp [Device.rchRemoveIfNotValid, hvalid, Device.listDel, hm]
  have hrecycle : ∀ d' : Device, ({ done.device with
      list := done.device.list.erase e }.setRch e
        { done.device.rch e with handler := none }).i2oRecycleRch e t ≠ some d' := by
    intro d' h
    have := Device.recycle_isSome.mp ⟨d', h⟩
    rcases this.1 with hnone | hmem
    · simp only [Device.setRch, Function.update_self] at hnone
      rw [hnone] at hpath
      cases hpath
    · exact hnodup hmem
  simp only [finishRead, hremove]
  split
  · rename_i hone
    cases hone
  · split
    · rename_i hzero
      cases hzero
    · split
      · exact ⟨hrc, rfl⟩
      · rename_i d' hsome
        exact absurd hsome (hrecycle d')

end Finish

/-! ### Reads -/

/-- The request record of a read into `kbuf`. -/
def readRequest (file : File) (hrdCode : BitVec 16) (count : Nat) (posp : BitVec 64)
    (kbuf : KBuf) (pam : BitVec 32) : HostRequest :=
  buildIncomingRawMessage file pam (posp.setWidth 32) (BitVec.ofNat 32 (kbuf.clip count))
    hrdCode

/-- A read that waits: what it has done when the wait starts. -/
def waitingRead (d : Device) (posp : BitVec 64) (request : HostRequest) (sendRc : Int) :
    Outcome where
  rc := none
  device := d
  posp := posp
  request := some request
  sendRc := some sendRc
  waited := true
  copied := none
  synced := none

theorem readInto_waits (hlen : kbuf.len ≠ 0) {sendRc : Int}
    (hpost : postRequest d e .handleReadMessageFile file.path (some pooled) flags t env.mfa
      = some (d', sendRc)) :
    readInto file hrdCode d count posp env e t kbuf pooled pam flags =
      match afterWait d' e .handleReadMessageFile env with
      | none => waitingRead d' posp (readRequest file hrdCode count posp kbuf pam) sendRc
      | some d =>
        finishRead (waitingRead d posp (readRequest file hrdCode count posp kbuf pam) sendRc)
          e t kbuf := by
  rw [readInto, if_neg hlen]
  simp only [hpost]
  rfl

/-- A read that gets past the length test is a request, unless its handler
is linked already. -/
theorem exists_requested {handler : Handler} {kbuf : Option Kbuf} {mfa : Bool} {path : Nat}
    (hfresh : e ∉ d.list) :
    ∃ d' rc, postRequest d e handler path kbuf flags t mfa = some (d', rc) := by
  cases h : postRequest d e handler path kbuf flags t mfa with
  | none => exact absurd (postRequest_eq_none.mp h) hfresh
  | some p => exact ⟨p.1, p.2, rfl⟩

/-- What a read has done when it returns the data of a reply. -/
structure ReadData (o : Outcome) (d : Device) (e : Nat) (posp : BitVec 64) (kbuf : KBuf)
    (pooled : Option Kbuf) (request : HostRequest) (nsamples : BitVec 32) : Prop where
  rc : o.rc = some (nsamples * 2).toInt
  posp : o.posp = posp + BitVec.ofInt 64 (nsamples * 2).toInt
  request : o.request = some request
  sendRc : o.sendRc = some 0
  copied : o.copied = some (kbuf.va, (nsamples * 2).toInt)
  synced : o.synced = some (kbuf.pa, (nsamples * 2).toInt)
  handlers : o.device.handlers = d.handlers.free e
  mappings : o.device.mappings = freePooled pooled d.mappings

/-- The mapping that a request with these flags gives back to the pool. -/
def pooledOf (pooled : Kbuf) (flags : Nat) : Option Kbuf :=
  if flags &&& RCH_KB_POOL ≠ 0 then some pooled else none

/-- A read that gets data copies it and gives its handler and its mapping
back. -/
theorem readInto_data {start nsamples : BitVec 32} (hlen : kbuf.len ≠ 0)
    (hfresh : e ∉ d.list) (hmfa : env.mfa = true)
    (hreply : env.reply = some (start, nsamples)) (hn : nsamples ≠ 0xffffffff#32) :
    ReadData (readInto file hrdCode d count posp env e t kbuf pooled pam flags) d e posp kbuf
      (pooledOf pooled flags) (readRequest file hrdCode count posp kbuf pam) nsamples := by
  obtain ⟨d', sendRc, hpost⟩ := exists_requested hfresh
  rw [readInto_waits hlen hpost]
  have hreq := requested hpost
  rw [afterWait_reply hreq hmfa hreply]
  simp only
  have hrch : (replied d' e start nsamples).rch e = { d'.rch e with
      rchReturn := Device.setSamples (d'.rch e).rchReturn start nsamples } := by
    simp [replied, Device.setRch]
  have hsamples : ∀ r : RchReturn, Device.setSamples r start nsamples =
      { r with startId := start, nbytes := nsamples * 2, valid := 1 } := by
    intro r
    rw [Device.setSamples, if_neg hn]
  have hlinked : e ∈ (replied d' e start nsamples).list := by
    show e ∈ d'.list
    simp [hreq.list]
  obtain ⟨d'', hrecycle⟩ :=
    (Device.recycle_isSome (d := replied d' e start nsamples) (t := t)).mpr
      ⟨Or.inr hlinked, by rw [hrch, hreq.rch]⟩
  rw [finishRead_data (by rw [waitingRead, hrch, hsamples]) hrecycle]
  have hdone := Device.recycled hrecycle
  have hbytes : ((replied d' e start nsamples).rch e).rchReturn.nbytes = nsamples * 2 := by
    rw [hrch, hsamples]
  refine ⟨by rw [waitingRead, hbytes], by rw [waitingRead, hbytes], rfl, ?_,
    by rw [waitingRead, hbytes], by rw [waitingRead, hbytes], ?_, ?_⟩
  · rw [waitingRead, hreq.rc, hmfa]
    rfl
  · rw [hdone.handlers]
    exact congrArg (fun p => Pool.free p e) hreq.handlers
  · have hpooled : Device.poolKbuf ((replied d' e start nsamples).rch e).rchReturn
        = pooledOf pooled flags := by
      rw [hrch, Device.poolKbuf_setSamples, hreq.rch]
      rfl
    have hsame : (replied d' e start nsamples).mappings = d.mappings := hreq.mappings
    show d''.mappings = freePooled (pooledOf pooled flags) d.mappings
    rw [recycled_mappings hrecycle, hpooled, hsame]

/-- A read that gets an error reply does not return. -/
theorem readInto_error {start : BitVec 32} (hlen : kbuf.len ≠ 0) (hfresh : e ∉ d.list)
    (hmfa : env.mfa = true) (hreply : env.reply = some (start, 0xffffffff#32)) :
    (readInto file hrdCode d count posp env e t kbuf pooled pam flags).rc = none ∧
      (readInto file hrdCode d count posp env e t kbuf pooled pam flags).posp = posp := by
  obtain ⟨d', sendRc, hpost⟩ := exists_requested hfresh
  rw [readInto_waits hlen hpost]
  have hreq := requested hpost
  rw [afterWait_reply hreq hmfa hreply]
  have hrch : (replied d' e start 0xffffffff#32).rch e = { d'.rch e with
      rchReturn := { (d'.rch e).rchReturn with valid := -1 } } := by
    simp [replied, Device.setRch, Device.setSamples]
  have hlist : (replied d' e start 0xffffffff#32).list = d.list ++ [e] := hreq.list
  refine finishRead_error ?_ ?_ ?_ ?_ rfl
  · rw [waitingRead, hrch]
  · rw [waitingRead, hrch, hreq.rch]
    rfl
  · rw [waitingRead, hlist]
    exact List.mem_append_right _ List.mem_cons_self
  · rw [waitingRead, hlist, List.erase_append_right _ hfresh, List.erase_cons_head,
      List.append_nil]
    exact hfresh

/-- A read whose wait ends without a reply returns `-EINTR`. -/
theorem readInto_signal (hlen : kbuf.len ≠ 0) (hfresh : e ∉ d.list)
    (hsignal : env.mfa = false ∨ env.reply = none) :
    (readInto file hrdCode d count posp env e t kbuf pooled pam flags).rc = some (-EINTR) ∧
      (readInto file hrdCode d count posp env e t kbuf pooled pam flags).posp = posp := by
  obtain ⟨d', sendRc, hpost⟩ := exists_requested hfresh
  rw [readInto_waits hlen hpost, afterWait_signal hsignal]
  simp only
  rw [finishRead_signal]
  · exact ⟨rfl, rfl⟩
  · rw [waitingRead, (requested hpost).rch]

/-- A read whose handler is linked already does not return. -/
theorem readInto_linked (hlen : kbuf.len ≠ 0) (hlinked : e ∈ d.list) :
    (readInto file hrdCode d count posp env e t kbuf pooled pam flags).rc = none ∧
      (readInto file hrdCode d count posp env e t kbuf pooled pam flags).posp = posp := by
  rw [readInto, if_neg hlen]
  simp only [postRequest_eq_none.mpr hlinked, and_self]

theorem finishRead_waited (done : Outcome) (e : Nat) (t : Tag) (kbuf : KBuf) :
    (finishRead done e t kbuf).waited = done.waited := by
  rw [finishRead]
  split
  · rfl
  · split
    · simp only
      split <;> rfl
    · split
      · rfl
      · split <;> rfl

/-- A read copies and synchronises one range or none. -/
theorem finishRead_ranges {done : Outcome} (hcopied : done.copied = none) {va : Nat}
    {count : Int} (h : (finishRead done e t kbuf).copied = some (va, count)) :
    va = kbuf.va ∧ (finishRead done e t kbuf).synced = some (kbuf.pa, count) ∧
      (finishRead done e t kbuf).request = done.request := by
  rw [finishRead] at h ⊢
  split at h
  · rw [hcopied] at h
    cases h
  · split at h
    · rename_i hone
      simp only [if_pos hone]
      simp only at h
      split at h <;>
      · simp only [Option.some.injEq, Prod.mk.injEq] at h
        simp only [← h.2]
        exact ⟨h.1.symm, trivial, trivial⟩
    · split at h
      · rw [hcopied] at h
        cases h
      · split at h <;>
        · rw [hcopied] at h
          cases h

theorem readInto_ranges {va : Nat} {bytes : Int}
    (h : (readInto file hrdCode d count posp env e t kbuf pooled pam flags).copied
      = some (va, bytes)) :
    va = kbuf.va ∧
      (readInto file hrdCode d count posp env e t kbuf pooled pam flags).synced
        = some (kbuf.pa, bytes) ∧
      (readInto file hrdCode d count posp env e t kbuf pooled pam flags).request
        = some (readRequest file hrdCode count posp kbuf pam) := by
  by_cases hlen : kbuf.len = 0
  · rw [readInto, if_pos hlen, recycleUnbuilt] at h
    split at h <;> cases h
  · by_cases hfresh : e ∈ d.list
    · rw [readInto, if_neg hlen] at h
      simp only [postRequest_eq_none.mpr hfresh] at h
      cases h
    · obtain ⟨d', rc, hpost⟩ := exists_requested hfresh
      rw [readInto_waits hlen hpost] at h ⊢
      split at h
      · cases h
      · exact finishRead_ranges rfl h

/-- Every read that offers a message to the card waits for the reply. -/
theorem readInto_waited {sendRc : Int}
    (hsent : (readInto file hrdCode d count posp env e t kbuf pooled pam flags).sendRc
      = some sendRc) :
    (readInto file hrdCode d count posp env e t kbuf pooled pam flags).waited = true := by
  by_cases hlen : kbuf.len = 0
  · rw [readInto, if_pos hlen, recycleUnbuilt] at hsent
    split at hsent <;> cases hsent
  · by_cases hfresh : e ∈ d.list
    · rw [readInto, if_neg hlen] at hsent
      simp only [postRequest_eq_none.mpr hfresh] at hsent
      cases hsent
    · obtain ⟨d', rc, hpost⟩ := exists_requested hfresh
      rw [readInto_waits hlen hpost]
      split
      · rfl
      · exact finishRead_waited _ e t kbuf

/-- A read that waits has a mapping and a handler that was not linked. -/
theorem readInto_of_waited
    (h : (readInto file hrdCode d count posp env e t kbuf pooled pam flags).waited = true) :
    kbuf.len ≠ 0 ∧ e ∉ d.list := by
  by_cases hlen : kbuf.len = 0
  · rw [readInto, if_pos hlen, recycleUnbuilt] at h
    split at h <;> cases h
  · refine ⟨hlen, fun hlinked => ?_⟩
    rw [readInto, if_neg hlen] at h
    simp only [postRequest_eq_none.mpr hlinked] at h
    cases h

/-! ### From the pools -/

/-- The allocation that a call on `file` makes. -/
def nextTag (file : File) (d : Device) : Tag := ⟨file.path, d.allocs⟩

/-- The device of a request that has its handler and its mapping. -/
def granted (file : File) (d : Device) (e m : Nat) : Device :=
  (d.poolAllocRch e file.path).poolAllocMapping m (nextTag file d)

/-- The request record of a write from `kbuf`. -/
def writeRequest (file : File) (hrdCode : BitVec 16) (count : Nat) (posp : BitVec 64)
    (kbuf : KBuf) : HostRequest :=
  buildOutgoingRawMessage file (mkDmabufOffset kbuf.toIoMapping file.dmaBuf)
    (posp.setWidth 32) (BitVec.ofNat 32 (kbuf.clip count)) hrdCode

section Pools

variable (hrdCode posp env count)

theorem write_no_handler (he : allocAlone d.handlers = none) :
    bridgeWriteGeneric file hrdCode d count posp env
      = Outcome.early (some (-ETIMEDOUT)) d posp := by
  rw [bridgeWriteGeneric, he]

theorem write_no_mapping (he : allocAlone d.handlers = some e)
    (hm : allocAlone d.mappings = none) :
    bridgeWriteGeneric file hrdCode d count posp env =
      recycleUnbuilt (d.poolAllocRch e file.path) e (nextTag file d) posp fun d =>
        Outcome.early (some (-ETIMEDOUT)) d posp := by
  have hm' : allocAlone (d.poolAllocRch e file.path).mappings = none := hm
  rw [bridgeWriteGeneric, he]
  simp only [hm']
  rfl

theorem write_no_bytes (he : allocAlone d.handlers = some e)
    (hm : allocAlone d.mappings = some m) (hn : (file.kbuf m).clip count = 0) :
    bridgeWriteGeneric file hrdCode d count posp env
      = Outcome.early (some (-ENOMEM)) (granted file d e m) posp := by
  have hm' : allocAlone (d.poolAllocRch e file.path).mappings = some m := hm
  rw [bridgeWriteGeneric, he]
  simp only [hm']
  rw [if_pos hn]
  rfl

theorem write_linked (he : allocAlone d.handlers = some e)
    (hm : allocAlone d.mappings = some m) (hn : (file.kbuf m).clip count ≠ 0)
    (hlinked : e ∈ d.list) :
    (bridgeWriteGeneric file hrdCode d count posp env).rc = none ∧
      (bridgeWriteGeneric file hrdCode d count posp env).sendRc = none ∧
      (bridgeWriteGeneric file hrdCode d count posp env).posp = posp := by
  have hm' : allocAlone (d.poolAllocRch e file.path).mappings = some m := hm
  have hpost : ∀ handler kbuf flags t mfa,
      postRequest (granted file d e m) e handler file.path kbuf flags t mfa = none :=
    fun _ _ _ _ _ => postRequest_eq_none.mpr hlinked
  rw [bridgeWriteGeneric, he]
  simp only [hm', if_neg hn]
  rw [show (d.poolAllocRch e file.path).poolAllocMapping m ⟨file.path, d.allocs⟩
    = granted file d e m from rfl]
  simp only [hpost, and_self]

/-- A write that has everything it needs. -/
theorem write_sent (he : allocAlone d.handlers = some e)
    (hm : allocAlone d.mappings = some m) (hn : (file.kbuf m).clip count ≠ 0)
    (hfresh : e ∉ d.list) :
    ∃ d' rc, postRequest (granted file d e m) e .recycleRchWrapper file.path
        (some (.mapping m)) RCH_KB_POOL (nextTag file d) env.mfa = some (d', rc) ∧
      bridgeWriteGeneric file hrdCode d count posp env =
        { rc := some ((file.kbuf m).clip count)
          device := d'
          posp := posp + BitVec.ofNat 64 ((file.kbuf m).clip count)
          request := some (writeRequest file hrdCode count posp (file.kbuf m))
          sendRc := some rc
          waited := false
          copied := some ((file.kbuf m).va, Int.ofNat ((file.kbuf m).clip count))
          synced := some (file.dmaBuf.pa, Int.ofNat ((file.kbuf m).clip count)) } := by
  have hm' : allocAlone (d.poolAllocRch e file.path).mappings = some m := hm
  have hfresh' : e ∉ (granted file d e m).list := hfresh
  obtain ⟨d', rc, hpost⟩ := exists_requested hfresh'
  refine ⟨d', rc, hpost, ?_⟩
  rw [bridgeWriteGeneric, he]
  simp only [hm', if_neg hn]
  rw [show (d.poolAllocRch e file.path).poolAllocMapping m ⟨file.path, d.allocs⟩
    = granted file d e m from rfl]
  rw [nextTag] at hpost
  simp only [hpost]
  rfl

/-- Everything that a write can do.  It sends a request, or it returns an
error or faults before that. -/
theorem write_cases (file : File) (d : Device) :
    ((∀ e m, allocAlone d.handlers = some e → allocAlone d.mappings = some m →
        e ∉ d.list → (file.kbuf m).clip count = 0) ∧
      ((∃ rc d', rc < 0 ∧ bridgeWriteGeneric file hrdCode d count posp env
          = Outcome.early (some rc) d' posp) ∨
        ((bridgeWriteGeneric file hrdCode d count posp env).rc = none ∧
          (bridgeWriteGeneric file hrdCode d count posp env).sendRc = none ∧
          (bridgeWriteGeneric file hrdCode d count posp env).posp = posp))) ∨
    ∃ e m, allocAlone d.handlers = some e ∧ allocAlone d.mappings = some m ∧ e ∉ d.list ∧
      (file.kbuf m).clip count ≠ 0 := by
  cases he : allocAlone d.handlers with
  | none =>
    refine Or.inl ⟨by simp, Or.inl ⟨-ETIMEDOUT, d, by decide, ?_⟩⟩
    exact write_no_handler hrdCode count posp env he
  | some e =>
    cases hm : allocAlone d.mappings with
    | none =>
      refine Or.inl ⟨by simp, ?_⟩
      rw [write_no_mapping hrdCode count posp env he hm, recycleUnbuilt]
      split
      · exact Or.inr ⟨rfl, rfl, rfl⟩
      · exact Or.inl ⟨_, _, by decide, rfl⟩
    | some m =>
      by_cases hn : (file.kbuf m).clip count = 0
      · refine Or.inl ⟨?_, Or.inl ⟨_, _, ?_, write_no_bytes hrdCode count posp env he hm hn⟩⟩
        · rintro e' m' - ⟨⟩ -
          exact hn
        · decide
      · by_cases hlinked : e ∈ d.list
        · refine Or.inl ⟨?_, Or.inr (write_linked hrdCode count posp env he hm hn hlinked)⟩
          rintro e' m' ⟨⟩ - hfresh
          exact absurd hlinked hfresh
        · exact Or.inr ⟨e, m, rfl, rfl, hlinked, hn⟩

/-- The ranges of a write that has bytes to send, linked or not. -/
theorem write_ranges (he : allocAlone d.handlers = some e)
    (hm : allocAlone d.mappings = some m) (hn : (file.kbuf m).clip count ≠ 0) :
    (bridgeWriteGeneric file hrdCode d count posp env).request
        = some (writeRequest file hrdCode count posp (file.kbuf m)) ∧
      (bridgeWriteGeneric file hrdCode d count posp env).copied
        = some ((file.kbuf m).va, Int.ofNat ((file.kbuf m).clip count)) ∧
      (bridgeWriteGeneric file hrdCode d count posp env).synced
        = some (file.dmaBuf.pa, Int.ofNat ((file.kbuf m).clip count)) := by
  have hm' : allocAlone (d.poolAllocRch e file.path).mappings = some m := hm
  rw [bridgeWriteGeneric, he]
  simp only [hm', if_neg hn]
  split <;> exact ⟨rfl, rfl, rfl⟩

theorem read_no_handler (given : Option KBuf) (he : allocAlone d.handlers = none) :
    bridgeReadGeneric file hrdCode d count posp given env
      = Outcome.early (some (-ETIMEDOUT)) d posp := by
  rw [bridgeReadGeneric, he]

theorem read_no_mapping (he : allocAlone d.handlers = some e)
    (hm : allocAlone d.mappings = none) :
    bridgeReadGeneric file hrdCode d count posp none env =
      recycleUnbuilt (d.poolAllocRch e file.path) e (nextTag file d) posp fun d =>
        Outcome.early (some (-ETIMEDOUT)) d posp := by
  have hm' : allocAlone (d.poolAllocRch e file.path).mappings = none := hm
  rw [bridgeReadGeneric, he]
  simp only [hm']
  rfl

theorem read_pool (he : allocAlone d.handlers = some e)
    (hm : allocAlone d.mappings = some m) :
    bridgeReadGeneric file hrdCode d count posp none env =
      readInto file hrdCode (granted file d e m) count posp env e (nextTag file d)
        (file.kbuf m) (.mapping m)
        (mkDmabufOffset (file.kbuf m).toIoMapping file.dmaBuf) RCH_KB_POOL := by
  have hm' : allocAlone (d.poolAllocRch e file.path).mappings = some m := hm
  rw [bridgeReadGeneric, he]
  simp only [hm']
  rfl

theorem read_given (he : allocAlone d.handlers = some e) (kbuf : KBuf) :
    bridgeReadGeneric file hrdCode d count posp (some kbuf) env =
      readInto file hrdCode (d.poolAllocRch e file.path) count posp env e (nextTag file d)
        kbuf .other kbuf.pa 0 := by
  rw [bridgeReadGeneric, he]
  rfl

/-- Every read ends early or is a read into some mapping. -/
theorem read_enters (given : Option KBuf) (file : File) (d : Device) :
    (∃ rc d', bridgeReadGeneric file hrdCode d count posp given env
      = Outcome.early rc d' posp) ∨
    ∃ d₁ e t kbuf pooled pam flags,
      bridgeReadGeneric file hrdCode d count posp given env
        = readInto file hrdCode d₁ count posp env e t kbuf pooled pam flags := by
  cases he : allocAlone d.handlers with
  | none => exact Or.inl ⟨_, _, read_no_handler hrdCode count posp env given he⟩
  | some e =>
    cases given with
    | some kbuf =>
      exact Or.inr ⟨_, _, _, _, _, _, _, read_given hrdCode count posp env he kbuf⟩
    | none =>
      cases hm : allocAlone d.mappings with
      | none =>
        rw [read_no_mapping hrdCode count posp env he hm, recycleUnbuilt]
        split
        · exact Or.inl ⟨_, _, rfl⟩
        · exact Or.inl ⟨_, _, rfl⟩
      | some m =>
        exact Or.inr ⟨_, _, _, _, _, _, _, read_pool hrdCode count posp env he hm⟩

/-- Every read that waits is a read into some mapping, with a handler that it
has linked. -/
theorem read_of_waited {given : Option KBuf}
    (h : (bridgeReadGeneric file hrdCode d count posp given env).waited = true) :
    ∃ d₁ e t kbuf pooled pam flags, kbuf.len ≠ 0 ∧ e ∉ d₁.list ∧
      bridgeReadGeneric file hrdCode d count posp given env
        = readInto file hrdCode d₁ count posp env e t kbuf pooled pam flags := by
  rcases read_enters hrdCode count posp env given file d with
    ⟨rc, d', heq⟩ | ⟨d₁, e, t, kbuf, pooled, pam, flags, heq⟩
  · rw [heq] at h
    cases h
  · rw [heq] at h
    obtain ⟨hlen, hfresh⟩ := readInto_of_waited h
    exact ⟨d₁, e, t, kbuf, pooled, pam, flags, hlen, hfresh, heq⟩

/-- The call ends with an error or a fault, at the position where it began. -/
def Outcome.Stays (o : Outcome) (posp : BitVec 64) : Prop :=
  (∀ rc, o.rc = some rc → rc < 0) ∧ o.posp = posp

theorem stays_of_fault {o : Outcome} (h : o.rc = none ∧ o.posp = posp) : o.Stays posp := by
  refine ⟨fun rc hrc => ?_, h.2⟩
  rw [h.1] at hrc
  cases hrc

theorem stays_of_error {o : Outcome} {rc : Int} (hneg : rc < 0)
    (h : o.rc = some rc ∧ o.posp = posp) : o.Stays posp := by
  refine ⟨fun rc' hrc => ?_, h.2⟩
  rw [h.1] at hrc
  cases hrc
  exact hneg

/-- What a read that gets data meets: a handler, a mapping and a reply. -/
structure GetsData (file : File) (d : Device) (env : Env) (e m : Nat)
    (start nsamples : BitVec 32) : Prop where
  handler : allocAlone d.handlers = some e
  mapping : allocAlone d.mappings = some m
  len : (file.kbuf m).len ≠ 0
  fresh : e ∉ d.list
  mfa : env.mfa = true
  reply : env.reply = some (start, nsamples)
  data : nsamples ≠ 0xffffffff#32

theorem GetsData.readData {start nsamples : BitVec 32}
    (h : GetsData file d env e m start nsamples) :
    ReadData (bridgeReadGeneric file hrdCode d count posp none env) (granted file d e m) e
      posp (file.kbuf m) (some (.mapping m))
      (readRequest file hrdCode count posp (file.kbuf m)
        (mkDmabufOffset (file.kbuf m).toIoMapping file.dmaBuf)) nsamples := by
  rw [read_pool hrdCode count posp env h.handler h.mapping]
  exact readInto_data h.len h.fresh h.mfa h.reply h.data

/-- Everything that a read from the pool can do.  It returns the data of a
reply, or it stays where it began. -/
theorem read_cases (file : File) (d : Device) :
    ((∀ e m start nsamples, ¬ GetsData file d env e m start nsamples) ∧
      (bridgeReadGeneric file hrdCode d count posp none env).Stays posp) ∨
    ∃ e m start nsamples, GetsData file d env e m start nsamples := by
  by_cases hget : ∃ e m start nsamples, GetsData file d env e m start nsamples
  · exact Or.inr hget
  refine Or.inl ⟨fun e m start nsamples h => hget ⟨e, m, start, nsamples, h⟩, ?_⟩
  cases he : allocAlone d.handlers with
  | none =>
    rw [read_no_handler hrdCode count posp env none he]
    exact stays_of_error posp (by decide) ⟨rfl, rfl⟩
  | some e =>
    cases hm : allocAlone d.mappings with
    | none =>
      rw [read_no_mapping hrdCode count posp env he hm, recycleUnbuilt]
      split
      · exact stays_of_fault posp ⟨rfl, rfl⟩
      · exact stays_of_error posp (by decide) ⟨rfl, rfl⟩
    | some m =>
      rw [read_pool hrdCode count posp env he hm]
      by_cases hlen : (file.kbuf m).len = 0
      · rw [readInto, if_pos hlen, recycleUnbuilt]
        split
        · exact stays_of_fault posp ⟨rfl, rfl⟩
        · exact stays_of_error posp (by decide) ⟨rfl, rfl⟩
      · by_cases hfresh : e ∈ d.list
        · exact stays_of_fault posp (readInto_linked hlen hfresh)
        · by_cases hsignal : env.mfa = false ∨ env.reply = none
          · exact stays_of_error posp (by decide) (readInto_signal hlen hfresh hsignal)
          · have hmfa : env.mfa = true :=
              Bool.of_not_eq_false fun h => hsignal (Or.inl h)
            obtain ⟨⟨start, nsamples⟩, hreply⟩ : ∃ p, env.reply = some p :=
              Option.ne_none_iff_exists'.mp fun h => hsignal (Or.inr h)
            by_cases hdata : nsamples = 0xffffffff#32
            · rw [hdata] at hreply
              exact stays_of_fault posp (readInto_error hlen hfresh hmfa hreply)
            · exact absurd ⟨e, m, start, nsamples, he, hm, hlen, hfresh, hmfa, hreply, hdata⟩
                hget

end Pools

theorem toNat_samples {n : BitVec 32} (h : n.toNat < 2 ^ 31) :
    (n * 2).toNat = 2 * n.toNat := by
  have htwo : (2 : BitVec 32).toNat = 2 := rfl
  rw [BitVec.toNat_mul, htwo, Nat.mod_eq_of_lt (by omega)]
  omega

/-- A reply of fewer than `2 ^ 30` samples is a count of bytes. -/
theorem toInt_samples {n : BitVec 32} (h : n.toNat < 2 ^ 30) :
    (n * 2).toInt = (2 * n.toNat : Nat) := by
  have hnat := toNat_samples (n := n) (by omega)
  rw [BitVec.toInt_eq_toNat_of_lt (by omega), hnat]

end Calls

end Acq200.Bridge
