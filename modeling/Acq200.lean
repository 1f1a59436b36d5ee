import Acq200.Lib.Run
import Acq200.Lib.Tally
import Acq200.Lib.Window
import Acq200.Lib.PutBackQueue
import Acq200.Lib.Splice
import Acq200.Lib.Fgets
import Acq200.Lib.Simulation
import Acq200.Lib.Behaviour
import Acq200.StreamBuf.Ring
import Acq200.StreamBuf.Queue
import Acq200.StreamBuf.Preempt
import Acq200.Mailbox.Basic
import Acq200.Mailbox.Pairing
import Acq200.Mailbox.Waits
import Acq200.Mailbox.Command
import Acq200.Rch.Pool
import Acq200.Rch.PoolRuns
import Acq200.Rch.Device
import Acq200.Rch.System
import Acq200.Rch.Transitions
import Acq200.Rch.DeviceInv
import Acq200.Rch.HandOff
import Acq200.Rch.Ownership
import Acq200.Rch.DoubleFree
import Acq200.Rch.MessageId
import Acq200.Rch.Routing
import Acq200.Rch.Served
import Acq200.Rch.Returns
import Acq200.Rch.Closes
import Acq200.Rch.DmaTarget
import Acq200.Rch.Transfers
import Acq200.Rch.Recycles
import Acq200.Rch.ListDiscipline
import Acq200.Rch.StaleMapping
import Acq200.Rch.Rebase
import Acq200.Rch.NoLeak
import Acq200.Rch.PoolsFree
import Acq200.Frames.Basic
import Acq200.Frames.Conservation
import Acq200.Frames.Transport
import Acq200.Frames.Refinement
import Acq200.Frames.Delivery
import Acq200.BufferAB.Driver
import Acq200.BufferAB.Order
import Acq200.BufferAB.Replies
import Acq200.BufferAB.Htstream
import Acq200.BufferAB.InStep
import Acq200.Buffers.DmaBuf
import Acq200.Buffers.Mmap
import Acq200.Buffers.Mappings
import Acq200.Bridge.Basic
import Acq200.Bridge.OneBuffer
import Acq200.Bridge.Errors
import Acq200.Bridge.Tiling
import Acq200.Bridge.RoundTrip
import Acq200.Bridge.Steps
import Acq200.Bridge.ReadBound
import Acq200.Bridge.Cleanup
import Acq200.Output.Files
import Acq200.Output.Rotation
import Acq200.Output.SizeLimit
import Acq200.Output.Disk
import Acq200.Recorder.Card
import Acq200.Recorder.Reports
import Acq200.Recorder.Contents
import Acq200.Irq.Imask
import Acq200.Irq.MaskText
import Acq200.Irq.DisableTest
import Acq200.Irq.Iterator
import Acq200.Irq.Isr
import Acq200.Probe.Registry
import Acq200.Probe.Ledger
import Acq200.Files.ClientCount
import Acq200.Files.BusyMutex
import Acq200.Files.BigbufLine
import Acq200.Acqcmd.Reply
import Acq200.Acqcmd.Script
import Acq200.Acqcmd.Filter
import Acq200.Acqcmd.Poll
