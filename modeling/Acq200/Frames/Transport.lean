import Mathlib.Data.List.Basic
import Acq200.Rch.Transitions
import Acq200.Frames.Basic

/-!
# The whole way of a reply

The clients post requests, the card writes its answer into a message frame
and pushes the address of the frame onto its outbound queue.  The message
interrupt or the backstop thread pops the address and puts it into the
stream ring, and the bottom half takes it out, reads the message and looks
for the handler.  Then the frame is the card's again.

`Rch.Sys` has the clients and the handlers, and takes the dispatch of any
reply at any moment as one step.  `Frames.Sys` has the ring and the bottom
half, and takes any message from anywhere.  Here both are put together with
the card in between, which owns a fixed set of frames and writes into one
only while it holds it.

The device is the same in both halves, and each step that changes it in one
half hands it to the other.  The last two fields of `Sys` are ghost, and so
is the field `answers` of a packet.
-/

namespace Acq200.Transport

open Acq200.Lib

/-! ## Data -/

/-- `ACQ200_PCIWINSZ` and `ACQ200_PCIWINMSK`. -/
def ACQ200_PCIWINSZ : UInt32 := 0x01000000
def ACQ200_PCIWINMSK : UInt32 := ACQ200_PCIWINSZ - 1

/-- `acq200_dev_i2o_mfa2va`, as an offset from `dma_buf.va`. -/
def devI2oMfa2va (mfa : UInt32) : UInt32 := mfa &&& ACQ200_PCIWINMSK

/-- What the card has written into a frame.  A command packet answers a
request and carries its id, and other packets answer none. -/
structure Packet where
  message : Frames.Message
  answers : Option Rch.Posted
  coherent : match answers with
    | some p => Frames.mtId message.type = Frames.MT_COMMAND_PACKET ∧ message.id = p.id
    | none => Frames.mtId message.type ≠ Frames.MT_COMMAND_PACKET

/-- A frame that the card has not written yet. -/
def blankPacket : Packet where
  message := ⟨0, 0, 0, 0⟩
  answers := none
  coherent := by decide

structure Sys where
  /-- The clients, and the requests that the card has not answered. -/
  host : Rch.Sys
  /-- The ring and the bottom half. -/
  io : Frames.Sys
  /-- The frames that the card may write. -/
  free : List UInt32
  /-- The frames that wait at `ACQ200_OQP`. -/
  outbound : List UInt32
  /-- The message area, by offset. -/
  packets : UInt32 → Packet
  /-- The requests in the order in which the card has answered them. -/
  answered : List Rch.Posted
  /-- The requests whose answers have gone to
  `acq200_processCommandMessageReturn`. -/
  dispatched : List Rch.Posted

/-- The frame that the bottom half has taken and not looked at. -/
def unread (io : Frames.Sys) : List UInt32 :=
  match io.bh, io.oopsed with
  | .process mfa, false => [mfa]
  | _, _ => []

namespace Sys

/-- The packet in a frame. -/
def packetAt (s : Sys) (mfa : UInt32) : Packet := s.packets (devI2oMfa2va mfa)

/-- The frames on their way to the bottom half, the first one first. -/
def inTransit (s : Sys) : List UInt32 :=
  unread s.io ++ Frames.queued s.io.streambuf ++ s.outbound

/-- The requests that the packets in these frames answer. -/
def answersIn (s : Sys) (frames : List UInt32) : List Rch.Posted :=
  frames.filterMap fun mfa => (s.packetAt mfa).answers

/-- The requests whose answers are on their way. -/
def pending (s : Sys) : List Rch.Posted := s.answersIn s.inTransit

/-! ## Steps -/

/-- The card writes a packet into a frame of its own and posts it. -/
def post (s : Sys) (mfa : UInt32) (packet : Packet) : Sys :=
  { s with
    free := s.free.erase mfa
    outbound := s.outbound ++ [mfa]
    packets := Function.update s.packets (devI2oMfa2va mfa) packet }

/-- The system after a step of the ring or the bottom half.  The card has
every frame back that the step has written to `ACQ200_OQP`. -/
def withIo (s : Sys) (io : Frames.Sys) : Sys :=
  { s with
    host := { s.host with dev := io.rch, oopsed := io.oopsed }
    io := io
    free := s.free ++ io.written.drop s.io.written.length }

/-- A step of the ring or the bottom half. -/
def ioStep (s : Sys) (l : Frames.Label) : Option Sys := (Frames.step l s.io).map s.withIo

/-- A read of `ACQ200_OQP` takes the first frame, and an empty queue reads as
all ones. -/
def oqp (s : Sys) : UInt32 := s.outbound.headD 0xffffffff

def popOutbound (s : Sys) : Sys := { s with outbound := s.outbound.tail }

/-- The card answers `p` in the frame `mfa`. -/
def reply (s : Sys) (n : Nat) (p : Rch.Posted) (mfa : UInt32) (packet : Packet) : Sys :=
  { s.post mfa packet with
    host := { s.host with unanswered := s.host.unanswered.eraseIdx n }
    answered := s.answered ++ [p] }

/-- The bottom half handles the message in its frame.  At debug level 7 it
looks at no message. -/
def process (s : Sys) (mfa : UInt32) (debug : Int) : Option Sys :=
  let packet := s.packetAt mfa
  { s with
    dispatched :=
      if debug = 7 then s.dispatched
      else s.dispatched ++ packet.answers.toList }.ioStep (.process packet.message debug)

end Sys

inductive Label where
  /-- A step of a client. -/
  | client (l : Rch.Label)
  /-- The card answers the `n`-th of the unanswered requests. -/
  | reply (n : Nat) (mfa : UInt32) (message : Frames.Message)
  /-- The card posts a packet that answers no request. -/
  | notify (mfa : UInt32) (message : Frames.Message)
  | interrupt (debug : Int)
  | poll (debug : Int)
  | start
  | loop
  | process (debug : Int)
  | giveBack

def step (l : Label) (s : Sys) : Option Sys :=
  if s.host.oopsed then none
  else
    match l with
    | .client l =>
      if l.client.isSome then
        (Rch.Sys.step l s.host).map fun host =>
          { s with host := host, io := { s.io with rch := host.dev, oopsed := host.oopsed } }
      else none
    | .reply n mfa message =>
      match s.host.unanswered[n]? with
      | none => none
      | some p =>
        if h : Frames.mtId message.type = Frames.MT_COMMAND_PACKET ∧ message.id = p.id then
          if mfa ∈ s.free then some (s.reply n p mfa ⟨message, some p, h⟩) else none
        else none
    | .notify mfa message =>
      if h : Frames.mtId message.type ≠ Frames.MT_COMMAND_PACKET then
        if mfa ∈ s.free then some (s.post mfa ⟨message, none, h⟩) else none
      else none
    | .interrupt debug => s.popOutbound.ioStep (.interrupt s.oqp debug)
    | .poll debug => s.popOutbound.ioStep (.poll s.oqp debug)
    | .start => s.ioStep .start
    | .loop => s.ioStep .loop
    | .process debug =>
      match s.io.bh with
      | .process mfa => s.process mfa debug
      | _ => none
    | .giveBack => s.ioStep .giveBack

/-- A device with no file open and a card that holds the frames `frames`. -/
def initial (lastId : BitVec 16) (oimr : BitVec 32) (frames : List UInt32) : Sys :=
  { host := Rch.initial lastId
    io := Frames.initial (Rch.poolCreate lastId) oimr
    free := frames, outbound := [], packets := fun _ => blankPacket
    answered := [], dispatched := [] }

/-- The frames of a card: they are valid addresses, and no two of them share
their place in the message area. -/
structure FramesOk (frames : List UInt32) : Prop where
  valid : ∀ mfa ∈ frames, Frames.Sys.validMfa mfa = true
  apart : (frames.map devI2oMfa2va).Nodup

instance (frames : List UInt32) : Decidable (FramesOk frames) :=
  decidable_of_iff (frames.all Frames.Sys.validMfa = true ∧ (frames.map devI2oMfa2va).Nodup)
    ⟨fun h => ⟨List.all_eq_true.mp h.1, h.2⟩,
      fun h => ⟨List.all_eq_true.mpr h.valid, h.apart⟩⟩

end Acq200.Transport
