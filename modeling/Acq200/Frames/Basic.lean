import Acq200.Lib.Run
import Acq200.Rch.Device
import Acq200.Lib.Window
import Acq200.StreamBuf.Ring

/-!
# Message frames from the card

The card hands a message over by pushing the address of its frame, the
MFA, onto a queue that the host pops through `ACQ200_OQP`.  The host gives
the frame back by writing the address to the same register.  Frames are
popped by the message interrupt and by the backstop thread, wait in the
stream ring, and are taken out again by the bottom half
`acq200_streaming_isr_bh`.

A call of `acq200_consume_i2o` is one step here, and so is a `streamGet`
of the bottom half, what it does about the message, and the return of the
frame.  The debug level is an argument of the steps that read it.  The
handlers may be changed by the clients between any two steps.

The last six fields of `Sys` are ghost.  They record what went through
`ACQ200_OQP` and through the ring.
-/

namespace Acq200.Frames

open Acq200.Lib Acq200.StreamBuf

/-! ## Data -/

/-- The fields of a `Message` that the bottom half reads. -/
structure Message where
  id : BitVec 16
  type : BitVec 32
  start : BitVec 32
  nsamples : BitVec 32

/-- `MT_TYPE_MASK`, `MT_COMMAND_PACKET` and `BAD_MFA_THRESHOLD`. -/
def MT_TYPE_MASK : BitVec 32 := 0xff000000#32
def MT_COMMAND_PACKET : BitVec 32 := 0x7a000000#32
def BAD_MFA_THRESHOLD : Nat := 100

/-- `ACQ200_OISR_OPQI`. -/
def ACQ200_OISR_OPQI : BitVec 32 := 0x08#32

/-- `MT_ID`. -/
def mtId (type : BitVec 32) : BitVec 32 := type &&& MT_TYPE_MASK

/-- Where the bottom half stands. -/
inductive Bh where
  | idle
  /-- The loop test with its `streamGet`. -/
  | loop
  | process (mfa : UInt32)
  /-- `i2o_return_message`. -/
  | giveBack (mfa : UInt32)
  deriving DecidableEq

structure Sys where
  streambuf : GenericIntBuf
  /-- The handlers, with `i2o_packets_discarded`. -/
  rch : Rch.Device
  i2oPacketsIncoming : BitVec 32
  i2oPacketsReturned : BitVec 32
  i2oLastIn : UInt32
  badMfaCount : BitVec 32
  /-- The interrupt mask register. -/
  oimr : BitVec 32
  auxTaskWaiting : Bool
  auxMfa : UInt32
  /-- The tasklet is scheduled. -/
  scheduled : Bool
  bh : Bh
  oopsed : Bool
  /-- The frames popped from `ACQ200_OQP`. -/
  popped : List UInt32
  /-- The frames written to `ACQ200_OQP`. -/
  written : List UInt32
  /-- The frames that the ring took. -/
  arrived : List UInt32
  /-- The frames that the bottom half has given back. -/
  served : List UInt32
  /-- What was in the ring at the last `streamGet`, and what was in it at the
  last one of every bottom half that has ended. -/
  atGet : List UInt32
  atEnd : List (List UInt32)

/-- The frames in the ring, from `iget` on. -/
def queued (buf : GenericIntBuf) : List UInt32 :=
  window NSTREAMBUF buf.buffers buf.iget
    ((genericIntBufNumEntries buf NSTREAMBUF).getD 0)

/-- The frame that the bottom half has taken and not given back. -/
def Bh.inProcess : Bh → List UInt32
  | .idle | .loop => []
  | .process mfa | .giveBack mfa => [mfa]

/-! ## Frames in and out -/

namespace Sys

def i2oReturnMessage (s : Sys) (mfa : UInt32) : Sys :=
  { s with
    written := s.written ++ [mfa]
    i2oPacketsReturned := s.i2oPacketsReturned + 1 }

def discard (s : Sys) : Sys :=
  { s with
    rch := { s.rch with i2oPacketsDiscarded := s.rch.i2oPacketsDiscarded + 1 } }

/-- `acq200_consume_i2o`. -/
def consumeI2o (s : Sys) (mfa : UInt32) (debug : Int) : Sys :=
  let s := { s with i2oPacketsIncoming := s.i2oPacketsIncoming + 1 }
  if debug = 8 then s.i2oReturnMessage mfa
  else
    let put := streamPut s.streambuf mfa
    if put.2 < 0 then
      ({ s with streambuf := put.1 }.i2oReturnMessage mfa).discard
    else
      { s with
        streambuf := put.1
        i2oLastIn := mfa
        scheduled := true
        arrived := s.arrived ++ [mfa] }

/-- The frame is one that the card has posted. -/
def validMfa (mfa : UInt32) : Bool := mfa != 0xffffffff && mfa != 0

/-- `acq200_handle_incoming_message`, when the register reads `mfa`. -/
def handleIncomingMessage (s : Sys) (mfa : UInt32) (debug : Int) : Sys :=
  if validMfa mfa then
    { s with badMfaCount := 0, popped := s.popped ++ [mfa] }.consumeI2o mfa debug
  else s

/-- `acq200_incoming_message_isr`, when the register reads `mfa`. -/
def incomingMessageIsr (s : Sys) (mfa : UInt32) (debug : Int) : Sys :=
  if validMfa mfa then
    { s with badMfaCount := 0, popped := s.popped ++ [mfa] }.consumeI2o mfa debug
  else
    let count := s.badMfaCount + 1
    -- The interrupt is masked to get back in the game.
    let oimr :=
      if count.toNat > BAD_MFA_THRESHOLD then s.oimr ||| ACQ200_OISR_OPQI else s.oimr
    { s with badMfaCount := count, oimr := oimr }

/-- The bottom half ends. -/
def endBh (s : Sys) : Sys :=
  { s with bh := .idle, atEnd := s.atEnd ++ [s.atGet] }

/-- The loop test of `acq200_streaming_isr_bh`. -/
def bhLoop (s : Sys) : Sys :=
  let got := streamGet s.streambuf
  let s := { s with streambuf := got.1, atGet := queued s.streambuf }
  if got.2 = STREAM_MFA_INVALID then s.endBh else { s with bh := .process got.2 }

/-- The loop body of `acq200_streaming_isr_bh` up to the return of the
frame, with the message that the frame holds. -/
def bhProcess (s : Sys) (mfa : UInt32) (message : Message) (debug : Int) : Sys :=
  if debug = 7 then { s with bh := .giveBack mfa }
  else if mtId message.type = MT_COMMAND_PACKET then
    match s.rch.processCommandMessageReturn message.id message.start
        message.nsamples with
    | none => { s with oopsed := true }
    | some rch => { s with rch := rch, bh := .giveBack mfa }
  else if s.auxTaskWaiting then
    { s with auxMfa := mfa, auxTaskWaiting := false }.endBh
  else { s.discard with bh := .giveBack mfa }

/-- The end of the loop body. -/
def bhGiveBack (s : Sys) (mfa : UInt32) : Sys :=
  { s.i2oReturnMessage mfa with bh := .loop, served := s.served ++ [mfa] }

end Sys

/-! ## Steps -/

inductive Label where
  /-- A message interrupt that reads `mfa`. -/
  | interrupt (mfa : UInt32) (debug : Int)
  /-- A poll of the backstop thread that reads `mfa`. -/
  | poll (mfa : UInt32) (debug : Int)
  /-- The tasklet starts. -/
  | start
  | loop
  | process (message : Message) (debug : Int)
  | giveBack
  /-- The clients have changed the handlers. -/
  | clients (rch : Rch.Device)

def step (l : Label) (s : Sys) : Option Sys :=
  if s.oopsed then none
  else
    match l, s.bh with
    | .interrupt mfa debug, _ => some (s.incomingMessageIsr mfa debug)
    | .poll mfa debug, _ => some (s.handleIncomingMessage mfa debug)
    | .start, .idle => some { s with bh := .loop, scheduled := false }
    | .loop, .loop => some s.bhLoop
    | .process message debug, .process mfa => some (s.bhProcess mfa message debug)
    | .giveBack, .giveBack mfa => some (s.bhGiveBack mfa)
    | .clients rch, _ => some { s with rch := rch }
    | _, _ => none

/-- A device that `acq200_device_create` has just set up. -/
def initial (rch : Rch.Device) (oimr : BitVec 32) : Sys :=
  { streambuf := streamBufInit zeroed, rch := rch, i2oPacketsIncoming := 0
    i2oPacketsReturned := 0, i2oLastIn := 0, badMfaCount := 0, oimr := oimr
    auxTaskWaiting := false, auxMfa := 0, scheduled := false, bh := .idle
    oopsed := false, popped := [], written := [], arrived := [], served := []
    atGet := [], atEnd := [] }

end Acq200.Frames
