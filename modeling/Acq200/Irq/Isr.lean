import Acq200.Frames.Basic

/-!
# The registers that the interrupt handler writes

`acq200_isr` reads the status register and goes one of four ways: it leaves
an interrupt that is not its own alone, takes a message frame, takes a doorbell
or clears a status that it does not know.  A register is addressed as
`CSR(dev, byte_off)`, an index of words from the base of the message unit.

The branch for the ignored bits of the status has their mask in the place of the
register, so it writes the word at the base.  `isr_footprint_iff` says that the
handler writes what it should exactly for every other status, whatever the
device holds and the other registers read.  The device counts the invalid frames
in a row, and `badMfaCount_le` is what its count says about a run.
-/

namespace Acq200.Irq

open Acq200.Lib
open Acq200.Frames (BAD_MFA_THRESHOLD ACQ200_OISR_OPQI)
open Acq200.Frames.Sys (validMfa)

/-! ## Registers -/

def ACQ200_ODR : Nat := 0x2c
def ACQ200_OISR : Nat := 0x30
def ACQ200_OIMR : Nat := 0x34
def ACQ200_OQP : Nat := 0x44

def ACQ200_OISR_OM_0 : BitVec 32 := 0x01#32
def ACQ200_OISR_OM_1 : BitVec 32 := 0x02#32
def ACQ200_OISR_ODI : BitVec 32 := 0x04#32

def IRQ_IGNORE : BitVec 32 := ACQ200_OISR_OM_0 ||| ACQ200_OISR_OM_1

/-- `CSR`, as an index from `csr.va`, which points to words. -/
def csr (byteOff : Nat) : Nat := byteOff / 4

/-- A call of `writel`. -/
structure Write where
  csr : Nat
  value : BitVec 32
  deriving DecidableEq

inductive IrqReturn where
  | none
  | handled
  deriving DecidableEq

/-! ## The handlers -/

/-- The fields of the device that the handlers use.  `badReport` is the static
variable of `acq200_isr`. -/
structure IsrDevice where
  frames : Frames.Sys
  responseReceived : Bool
  interruptCount : Nat → BitVec 32
  badReport : BitVec 32

/-- What the registers read. -/
structure Reads where
  status : BitVec 32
  mfa : UInt32
  doorbell : BitVec 32

structure IsrOutcome where
  device : IsrDevice
  writes : List Write
  rc : IrqReturn

/-- What `acq200_consume_i2o` writes. -/
def consumeWrites (s : Frames.Sys) (mfa : UInt32) (debug : Int) : List Write :=
  if debug = 8 then [⟨csr ACQ200_OQP, mfa.toBitVec⟩]
  else if (StreamBuf.streamPut s.streambuf mfa).2 < 0 then [⟨csr ACQ200_OQP, mfa.toBitVec⟩]
  else []

/-- `acq200_incoming_message_isr`. -/
def incomingMessageIsr (dev : IsrDevice) (mfa : UInt32) (debug : Int) : IsrOutcome where
  device := { dev with frames := dev.frames.incomingMessageIsr mfa debug }
  writes :=
    if validMfa mfa then consumeWrites dev.frames mfa debug
    else if (dev.frames.badMfaCount + 1).toNat > BAD_MFA_THRESHOLD then
      [⟨csr ACQ200_OIMR, dev.frames.oimr ||| ACQ200_OISR_OPQI⟩]
    else []
  rc := if validMfa mfa then .handled else .none

/-- `acq200_doorbell_isr`, after the doorbell was written back. -/
def doorbellIsr (dev : IsrDevice) : IsrDevice := { dev with responseReceived := true }

def IsrDevice.count (dev : IsrDevice) (kind : Nat) : IsrDevice :=
  { dev with
    interruptCount := Function.update dev.interruptCount kind (dev.interruptCount kind + 1) }

def acq200Isr (dev : IsrDevice) (reads : Reads) (debug : Int) : IsrOutcome :=
  let status := reads.status
  if status &&& ~~~IRQ_IGNORE = 0 then
    { device := dev
      writes := if status &&& IRQ_IGNORE ≠ 0 then [⟨csr IRQ_IGNORE.toNat, status⟩] else []
      rc := .none }
  else if status &&& ACQ200_OISR_OPQI ≠ 0 then
    incomingMessageIsr ({ dev with badReport := 0 }.count 0) reads.mfa debug
  else if status &&& ACQ200_OISR_ODI ≠ 0 then
    { device := doorbellIsr ({ dev with badReport := 0 }.count 1)
      writes := [⟨csr ACQ200_ODR, reads.doorbell⟩]
      rc := .handled }
  else
    { device := { dev with badReport := dev.badReport + 1 }.count 2
      writes := [⟨csr ACQ200_OISR, status⟩]
      rc := .handled }

/-! ## What the handler may write -/

/-- The registers after one interrupt, when `streak` invalid frames in a row
were read before it. -/
structure Footprint (streak : Nat) (dev : IsrDevice) (reads : Reads) (o : IsrOutcome) :
    Prop where
  registers : ∀ w ∈ o.writes,
    w.csr = csr ACQ200_OISR ∨ w.csr = csr ACQ200_ODR ∨ w.csr = csr ACQ200_OIMR ∨
      w.csr = csr ACQ200_OQP
  oisr : ∀ w ∈ o.writes, w.csr = csr ACQ200_OISR → w.value = reads.status
  odr : ∀ w ∈ o.writes, w.csr = csr ACQ200_ODR → w.value = reads.doorbell
  /-- The mask register only gets the bit of the message interrupt, and only
  after more invalid frames than the threshold. -/
  oimr : ∀ w ∈ o.writes, w.csr = csr ACQ200_OIMR →
    w.value = dev.frames.oimr ||| ACQ200_OISR_OPQI ∧ validMfa reads.mfa = false ∧
      BAD_MFA_THRESHOLD < streak + 1
  /-- The mask register holds what was written last. -/
  mask : o.device.frames.oimr =
    ((o.writes.filter (·.csr = csr ACQ200_OIMR)).getLast?.map Write.value).getD
      dev.frames.oimr
  /-- The frame queue gets the frames that `acq200_consume_i2o` gives back. -/
  oqp : (o.writes.filter (·.csr = csr ACQ200_OQP)).map (fun w => UInt32.ofBitVec w.value) =
    o.device.frames.written.drop dev.frames.written.length
  /-- A status of ignored bits is cleared. -/
  ignored : reads.status ≠ 0 → reads.status &&& ~~~IRQ_IGNORE = 0 →
    ⟨csr ACQ200_OISR, reads.status⟩ ∈ o.writes

/-! ## The branches -/

section Branches

variable {streak : Nat} {dev : IsrDevice} {reads : Reads} {debug : Int}

/-- What `acq200_consume_i2o` does to the registers. -/
theorem consumeI2o_writes (s : Frames.Sys) (mfa : UInt32) (debug : Int) :
    (s.consumeI2o mfa debug).oimr = s.oimr ∧
      (s.consumeI2o mfa debug).badMfaCount = s.badMfaCount ∧
      (s.consumeI2o mfa debug).written =
        s.written ++ (consumeWrites s mfa debug).map fun w => UInt32.ofBitVec w.value := by
  unfold Frames.Sys.consumeI2o consumeWrites
  by_cases hdebug : debug = 8
  · simp only [hdebug, if_true]
    exact ⟨rfl, rfl, rfl⟩
  · simp only [hdebug, if_false]
    by_cases hfull : (StreamBuf.streamPut s.streambuf mfa).2 < 0
    · simp only [hfull, if_true]
      exact ⟨rfl, rfl, rfl⟩
    · simp only [hfull, if_false]
      exact ⟨trivial, trivial, (List.append_nil _).symm⟩

theorem csr_of_consume {s : Frames.Sys} {mfa : UInt32} {w : Write}
    (hw : w ∈ consumeWrites s mfa debug) : w.csr = csr ACQ200_OQP := by
  unfold consumeWrites at hw
  split at hw
  · rw [List.mem_singleton.mp hw]
  · split at hw
    · rw [List.mem_singleton.mp hw]
    · exact absurd hw List.not_mem_nil

/-- A branch that writes nothing. -/
theorem footprint_nil {o : IsrOutcome} (hwrites : o.writes = [])
    (hoimr : o.device.frames.oimr = dev.frames.oimr)
    (hwritten : o.device.frames.written = dev.frames.written)
    (hstatus : reads.status ≠ 0 → reads.status &&& ~~~IRQ_IGNORE ≠ 0) :
    Footprint streak dev reads o := by
  have hnone : ∀ w, w ∉ o.writes := by
    rw [hwrites]
    exact fun w => List.not_mem_nil
  constructor
  · exact fun w hw => absurd hw (hnone w)
  · exact fun w hw => absurd hw (hnone w)
  · exact fun w hw => absurd hw (hnone w)
  · exact fun w hw => absurd hw (hnone w)
  · rw [hwrites, hoimr]
    rfl
  · rw [hwrites, hwritten, List.drop_length]
    rfl
  · exact fun hne hignored => absurd hignored (hstatus hne)

theorem csr_ne_of_single {a b : Nat} {value : BitVec 32} {w : Write} (h : csr a ≠ csr b)
    (hw : w ∈ [Write.mk (csr a) value]) : w.csr ≠ csr b := by
  rw [List.mem_singleton.mp hw]
  exact h

/-- A branch that clears the status. -/
theorem footprint_oisr {d : IsrDevice} (hframes : d.frames = dev.frames) :
    Footprint streak dev reads ⟨d, [⟨csr ACQ200_OISR, reads.status⟩], .handled⟩ where
  registers := fun w hw => Or.inl (by rw [List.mem_singleton.mp hw])
  oisr := fun w hw _ => by rw [List.mem_singleton.mp hw]
  odr := fun _ hw hcsr => absurd hcsr (csr_ne_of_single (by decide) hw)
  oimr := fun _ hw hcsr => absurd hcsr (csr_ne_of_single (by decide) hw)
  mask := by rw [hframes]; rfl
  oqp := by rw [hframes, List.drop_length]; rfl
  ignored := fun _ _ => List.mem_singleton_self _

/-- The doorbell branch. -/
theorem footprint_odr {d : IsrDevice} (hframes : d.frames = dev.frames)
    (hstatus : reads.status &&& ~~~IRQ_IGNORE ≠ 0) :
    Footprint streak dev reads ⟨d, [⟨csr ACQ200_ODR, reads.doorbell⟩], .handled⟩ where
  registers := fun w hw => Or.inr (Or.inl (by rw [List.mem_singleton.mp hw]))
  oisr := fun _ hw hcsr => absurd hcsr (csr_ne_of_single (by decide) hw)
  odr := fun w hw _ => by rw [List.mem_singleton.mp hw]
  oimr := fun _ hw hcsr => absurd hcsr (csr_ne_of_single (by decide) hw)
  mask := by rw [hframes]; rfl
  oqp := by rw [hframes, List.drop_length]; rfl
  ignored := fun _ hnone => absurd hnone hstatus

/-- A branch that masks the message interrupt. -/
theorem footprint_oimr {o : IsrOutcome}
    (hwrites : o.writes = [⟨csr ACQ200_OIMR, dev.frames.oimr ||| ACQ200_OISR_OPQI⟩])
    (hoimr : o.device.frames.oimr = dev.frames.oimr ||| ACQ200_OISR_OPQI)
    (hwritten : o.device.frames.written = dev.frames.written)
    (hstatus : reads.status &&& ~~~IRQ_IGNORE ≠ 0) (hvalid : validMfa reads.mfa = false)
    (hstreak : BAD_MFA_THRESHOLD < streak + 1) : Footprint streak dev reads o := by
  have hmem : ∀ w ∈ o.writes,
      w = ⟨csr ACQ200_OIMR, dev.frames.oimr ||| ACQ200_OISR_OPQI⟩ := by
    rw [hwrites]
    exact fun w hw => List.mem_singleton.mp hw
  have hother : ∀ off, csr ACQ200_OIMR ≠ csr off → ∀ w ∈ o.writes, w.csr ≠ csr off := by
    intro off hne w hw
    rw [hmem w hw]
    exact hne
  constructor
  · exact fun w hw => Or.inr (Or.inr (Or.inl (by rw [hmem w hw])))
  · exact fun w hw hcsr => absurd hcsr (hother ACQ200_OISR (by decide) w hw)
  · exact fun w hw hcsr => absurd hcsr (hother ACQ200_ODR (by decide) w hw)
  · exact fun w hw _ => ⟨by rw [hmem w hw], hvalid, hstreak⟩
  · rw [hoimr, hwrites]
    rfl
  · rw [hwrites, hwritten, List.drop_length]
    rfl
  · exact fun _ hignored => absurd hignored hstatus

/-- The message branch with a frame. -/
theorem footprint_frame {d : IsrDevice} (hframes : d.frames = dev.frames)
    (hstatus : reads.status &&& ~~~IRQ_IGNORE ≠ 0) (hvalid : validMfa reads.mfa = true) :
    Footprint streak dev reads (incomingMessageIsr d reads.mfa debug) := by
  obtain ⟨hoimr, -, hwritten⟩ := consumeI2o_writes
    { dev.frames with badMfaCount := 0, popped := dev.frames.popped ++ [reads.mfa] }
    reads.mfa debug
  have hwrites : (incomingMessageIsr d reads.mfa debug).writes =
      consumeWrites dev.frames reads.mfa debug := by
    unfold incomingMessageIsr
    rw [hframes]
    exact if_pos hvalid
  have hend : (incomingMessageIsr d reads.mfa debug).device.frames =
      { dev.frames with
        badMfaCount := 0,
        popped := dev.frames.popped ++ [reads.mfa] }.consumeI2o reads.mfa debug := by
    show d.frames.incomingMessageIsr reads.mfa debug = _
    rw [hframes]
    exact if_pos hvalid
  have hoqp : ∀ w ∈ (incomingMessageIsr d reads.mfa debug).writes, w.csr = csr ACQ200_OQP := by
    rw [hwrites]
    exact fun w hw => csr_of_consume hw
  have hother : ∀ off, csr off ≠ csr ACQ200_OQP →
      ∀ w ∈ (incomingMessageIsr d reads.mfa debug).writes, w.csr ≠ csr off :=
    fun off hne w hw heq => hne (heq.symm.trans (hoqp w hw))
  constructor
  · exact fun w hw => Or.inr (Or.inr (Or.inr (hoqp w hw)))
  · exact fun w hw hcsr => absurd hcsr (hother ACQ200_OISR (by decide) w hw)
  · exact fun w hw hcsr => absurd hcsr (hother ACQ200_ODR (by decide) w hw)
  · exact fun w hw hcsr => absurd hcsr (hother ACQ200_OIMR (by decide) w hw)
  · have hnone : (incomingMessageIsr d reads.mfa debug).writes.filter
        (·.csr = csr ACQ200_OIMR) = [] := by
      apply List.filter_eq_nil_iff.mpr
      intro w hw
      rw [decide_eq_true_eq]
      exact hother ACQ200_OIMR (by decide) w hw
    rw [hnone, hend, hoimr]
    rfl
  · have hall : (incomingMessageIsr d reads.mfa debug).writes.filter
        (·.csr = csr ACQ200_OQP) = consumeWrites dev.frames reads.mfa debug := by
      rw [← hwrites]
      apply List.filter_eq_self.mpr
      intro w hw
      rw [decide_eq_true_eq]
      exact hoqp w hw
    rw [hall, hend, hwritten]
    exact (List.drop_left).symm
  · exact fun _ hnone => absurd hnone hstatus

/-- The message branch without a frame. -/
theorem footprint_invalid {d : IsrDevice} (hframes : d.frames = dev.frames)
    (hstatus : reads.status &&& ~~~IRQ_IGNORE ≠ 0) (hvalid : validMfa reads.mfa = false)
    (hcount : dev.frames.badMfaCount.toNat ≤ streak) :
    Footprint streak dev reads (incomingMessageIsr d reads.mfa debug) := by
  have hnot : ¬ validMfa reads.mfa = true := by
    rw [hvalid]
    exact Bool.false_ne_true
  have hwritten : (incomingMessageIsr d reads.mfa debug).device.frames.written =
      dev.frames.written := by
    show (d.frames.incomingMessageIsr reads.mfa debug).written = _
    unfold Frames.Sys.incomingMessageIsr
    rw [if_neg hnot, hframes]
  have hoimr : (incomingMessageIsr d reads.mfa debug).device.frames.oimr =
      if (dev.frames.badMfaCount + 1).toNat > BAD_MFA_THRESHOLD then
        dev.frames.oimr ||| ACQ200_OISR_OPQI
      else dev.frames.oimr := by
    show (d.frames.incomingMessageIsr reads.mfa debug).oimr = _
    unfold Frames.Sys.incomingMessageIsr
    rw [if_neg hnot, hframes]
  have hwrites : (incomingMessageIsr d reads.mfa debug).writes =
      if (dev.frames.badMfaCount + 1).toNat > BAD_MFA_THRESHOLD then
        [⟨csr ACQ200_OIMR, dev.frames.oimr ||| ACQ200_OISR_OPQI⟩]
      else [] := by
    unfold incomingMessageIsr
    rw [hframes]
    exact if_neg hnot
  generalize incomingMessageIsr d reads.mfa debug = o at hwritten hoimr hwrites
  by_cases hover : (dev.frames.badMfaCount + 1).toNat > BAD_MFA_THRESHOLD
  · rw [if_pos hover] at hoimr hwrites
    have hstreak : BAD_MFA_THRESHOLD < streak + 1 := by
      have hle := BitVec.toNat_add dev.frames.badMfaCount 1
      rw [show (1 : BitVec 32).toNat = 1 from rfl] at hle
      have hmod := Nat.mod_le (dev.frames.badMfaCount.toNat + 1) (2 ^ 32)
      omega
    exact footprint_oimr hwrites hoimr hwritten hstatus hvalid hstreak
  · rw [if_neg hover] at hoimr hwrites
    exact footprint_nil hwrites hoimr hwritten (fun _ => hstatus)

end Branches

/-! ## One interrupt -/

/-- The handler keeps to its registers except for a status of ignored bits. -/
theorem acq200Isr_footprint_iff {streak : Nat} {dev : IsrDevice}
    (hcount : dev.frames.badMfaCount.toNat ≤ streak) (reads : Reads) (debug : Int) :
    Footprint streak dev reads (acq200Isr dev reads debug) ↔
      reads.status = 0 ∨ reads.status &&& ~~~IRQ_IGNORE ≠ 0 := by
  by_cases hignored : reads.status &&& ~~~IRQ_IGNORE = 0
  · have hisr : acq200Isr dev reads debug =
        { device := dev
          writes :=
            if reads.status &&& IRQ_IGNORE ≠ 0 then [⟨csr IRQ_IGNORE.toNat, reads.status⟩]
            else []
          rc := .none } := if_pos hignored
    rw [hisr]
    by_cases hzero : reads.status = 0
    · refine iff_of_true ?_ (Or.inl hzero)
      refine footprint_nil ?_ rfl rfl (fun hne => absurd hzero hne)
      rw [hzero]
      rfl
    · refine iff_of_false (fun h => ?_) (not_or.mpr ⟨hzero, not_not.mpr hignored⟩)
      have hclear := h.ignored hzero hignored
      dsimp only at hclear
      split at hclear
      · have hcsr : csr ACQ200_OISR = csr IRQ_IGNORE.toNat :=
          congrArg Write.csr (List.mem_singleton.mp hclear)
        exact absurd hcsr (by decide)
      · exact absurd hclear List.not_mem_nil
  · refine iff_of_true ?_ (Or.inr hignored)
    unfold acq200Isr
    dsimp only
    rw [if_neg hignored]
    split
    · cases hvalid : validMfa reads.mfa with
      | true => exact footprint_frame rfl hignored hvalid
      | false => exact footprint_invalid rfl hignored hvalid hcount
    · split
      · exact footprint_odr rfl hignored
      · exact footprint_oisr rfl

/-! ## Invalid frames in a row -/

/-- An interrupt of the card, or a step of the rest of the driver. -/
inductive Event where
  | isr (reads : Reads) (debug : Int)
  | driver (label : Frames.Label)

/-- The frame that is read from `ACQ200_OQP`, if one is. -/
def Event.mfaRead : Event → Option UInt32
  | .isr reads _ =>
    if reads.status &&& ~~~IRQ_IGNORE ≠ 0 ∧ reads.status &&& ACQ200_OISR_OPQI ≠ 0 then
      some reads.mfa
    else none
  | .driver (.interrupt mfa _) | .driver (.poll mfa _) => some mfa
  | .driver _ => none

/-- The device, and as ghost the invalid frames read since the last valid one. -/
structure IsrSys where
  device : IsrDevice
  streak : Nat

def nextStreak (streak : Nat) : Option UInt32 → Nat
  | none => streak
  | some mfa => if validMfa mfa then 0 else streak + 1

def isrStep (event : Event) (s : IsrSys) : Option IsrSys :=
  let frames := match event with
    | .isr reads debug =>
      if s.device.frames.oopsed then none else some (acq200Isr s.device reads debug).device
    | .driver label =>
      (Frames.step label s.device.frames).map fun frames => { s.device with frames := frames }
  frames.map fun device => ⟨device, nextStreak s.streak event.mfaRead⟩

/-- A device that has just been set up. -/
def isrInitial (rch : Rch.Device) (oimr : BitVec 32) : IsrSys where
  device := ⟨Frames.initial rch oimr, false, fun _ => 0, 0⟩
  streak := 0

theorem nextStreak_mono {a b : Nat} (h : a ≤ b) (mfa : Option UInt32) :
    nextStreak a mfa ≤ nextStreak b mfa := by
  cases mfa with
  | none => exact h
  | some mfa =>
    unfold nextStreak
    dsimp only
    split
    · exact Nat.le_refl 0
    · exact Nat.succ_le_succ h

theorem incomingMessageIsr_count (f : Frames.Sys) (mfa : UInt32) (debug : Int) :
    (f.incomingMessageIsr mfa debug).badMfaCount.toNat ≤
      nextStreak f.badMfaCount.toNat (some mfa) := by
  unfold Frames.Sys.incomingMessageIsr nextStreak
  dsimp only
  split
  · rw [(consumeI2o_writes _ mfa debug).2.1]
    exact Nat.le_refl 0
  · show (f.badMfaCount + 1).toNat ≤ f.badMfaCount.toNat + 1
    rw [BitVec.toNat_add]
    exact Nat.mod_le _ _

/-- The bottom half does not count invalid frames. -/
theorem bottomHalf_count (f : Frames.Sys) :
    f.bhLoop.badMfaCount = f.badMfaCount ∧
      (∀ mfa message debug, (f.bhProcess mfa message debug).badMfaCount = f.badMfaCount) ∧
      ∀ mfa, (f.bhGiveBack mfa).badMfaCount = f.badMfaCount := by
  refine ⟨?_, fun mfa message debug => ?_, fun mfa => rfl⟩
  · unfold Frames.Sys.bhLoop
    dsimp only
    split <;> rfl
  · unfold Frames.Sys.bhProcess
    split
    · rfl
    · split
      · split <;> rfl
      · split <;> rfl

theorem poll_count (f : Frames.Sys) (mfa : UInt32) (debug : Int) :
    (f.handleIncomingMessage mfa debug).badMfaCount.toNat ≤
      nextStreak f.badMfaCount.toNat (some mfa) := by
  unfold Frames.Sys.handleIncomingMessage nextStreak
  dsimp only
  split
  · rw [(consumeI2o_writes _ mfa debug).2.1]
    exact Nat.le_refl 0
  · exact Nat.le_succ _

theorem frames_count {label : Frames.Label} {f f' : Frames.Sys}
    (h : Frames.step label f = some f') :
    f'.badMfaCount.toNat ≤ nextStreak f.badMfaCount.toNat (Event.driver label).mfaRead := by
  obtain ⟨hloop, hprocess, hgive⟩ := bottomHalf_count f
  unfold Frames.step at h
  split at h
  · cases h
  · cases label with
    | interrupt mfa debug =>
      rw [← Option.some.inj h]
      exact incomingMessageIsr_count f mfa debug
    | poll mfa debug =>
      rw [← Option.some.inj h]
      exact poll_count f mfa debug
    | start =>
      cases hbh : f.bh <;> rw [hbh] at h <;> cases h
      exact Nat.le_refl _
    | loop =>
      cases hbh : f.bh <;> rw [hbh] at h <;> cases h
      exact Nat.le_of_eq (congrArg BitVec.toNat hloop)
    | process message debug =>
      cases hbh : f.bh <;> rw [hbh] at h <;> cases h
      exact Nat.le_of_eq (congrArg BitVec.toNat (hprocess _ message debug))
    | giveBack =>
      cases hbh : f.bh <;> rw [hbh] at h <;> cases h
      exact Nat.le_of_eq (congrArg BitVec.toNat (hgive _))
    | clients rch =>
      rw [← Option.some.inj h]
      exact Nat.le_refl _

theorem isr_count (dev : IsrDevice) (reads : Reads) (debug : Int) :
    (acq200Isr dev reads debug).device.frames.badMfaCount.toNat ≤
      nextStreak dev.frames.badMfaCount.toNat (Event.isr reads debug).mfaRead := by
  by_cases hmessage : reads.status &&& ~~~IRQ_IGNORE ≠ 0 ∧
      reads.status &&& ACQ200_OISR_OPQI ≠ 0
  · have hread : (Event.isr reads debug).mfaRead = some reads.mfa := if_pos hmessage
    unfold acq200Isr
    dsimp only
    rw [hread, if_neg hmessage.1, if_pos hmessage.2]
    exact incomingMessageIsr_count dev.frames reads.mfa debug
  · have hread : (Event.isr reads debug).mfaRead = none := if_neg hmessage
    have hframes : (acq200Isr dev reads debug).device.frames = dev.frames := by
      unfold acq200Isr
      dsimp only
      split
      · rfl
      · rename_i hignored
        rw [if_neg (fun h => hmessage ⟨hignored, h⟩)]
        split <;> rfl
    rw [hread, hframes]
    exact Nat.le_refl _

/-- The device has counted no more invalid frames than there were in a row. -/
def Counts (s : IsrSys) : Prop := s.device.frames.badMfaCount.toNat ≤ s.streak

theorem Counts.step {event : Event} {s s' : IsrSys} (h : Counts s)
    (hstep : isrStep event s = some s') : Counts s' := by
  obtain ⟨device, hdevice, rfl⟩ := Option.map_eq_some_iff.mp hstep
  have hmono := nextStreak_mono h event.mfaRead
  cases event with
  | isr reads debug =>
    dsimp only at hdevice
    split at hdevice
    · cases hdevice
    · rw [← Option.some.inj hdevice]
      exact Nat.le_trans (isr_count s.device reads debug) hmono
  | driver label =>
    obtain ⟨frames, hframes, rfl⟩ := Option.map_eq_some_iff.mp hdevice
    exact Nat.le_trans (frames_count hframes) hmono

/-- In every run the count of the device is no more than the invalid frames in a
row. -/
theorem badMfaCount_le {rch : Rch.Device} {oimr : BitVec 32} {events : List Event}
    {s : IsrSys} (hrun : runFrom isrStep events (isrInitial rch oimr) = some s) : Counts s :=
  runFrom_inv₂ (fun _ _ _ h hstep => Counts.step h hstep)
    (show Counts (isrInitial rch oimr) from Nat.le_refl 0) hrun

/-- For every state of the device and everything that its registers read, an
interrupt keeps to the registers of the handler exactly when the status is not
one of ignored bits only, and in every run the invalid frames in a row are at
least as many as the device has counted. -/
theorem isr_footprint_iff {streak : Nat} {dev : IsrDevice}
    (hcount : dev.frames.badMfaCount.toNat ≤ streak) (reads : Reads) (debug : Int) :
    (Footprint streak dev reads (acq200Isr dev reads debug) ↔
      reads.status = 0 ∨ reads.status &&& ~~~IRQ_IGNORE ≠ 0) ∧
    ∀ (rch : Rch.Device) (oimr : BitVec 32) (events : List Event) (s : IsrSys),
      runFrom isrStep events (isrInitial rch oimr) = some s →
      s.device.frames.badMfaCount.toNat ≤ s.streak :=
  ⟨acq200Isr_footprint_iff hcount reads debug, fun _ _ _ _ => badMfaCount_le⟩

/-- A doorbell. -/
theorem doorbell_footprint :
    Footprint 0 (isrInitial (Rch.poolCreate 0#16) 0).device ⟨0x04#32, 0, 0x01#32⟩
      (acq200Isr (isrInitial (Rch.poolCreate 0#16) 0).device ⟨0x04#32, 0, 0x01#32⟩ 0) := by
  refine (isr_footprint_iff (Nat.le_refl 0) ⟨0x04#32, 0, 0x01#32⟩ 0).1.mpr ?_
  exact Or.inr (by decide)

/-- For a status with the first ignored bit the word at the base of the message
unit is written, and the bit stays set. -/
theorem ignored_status_written_to_base :
    (acq200Isr (isrInitial (Rch.poolCreate 0#16) 0).device ⟨0x01#32, 0, 0⟩ 0).writes =
      [⟨0, 0x01#32⟩] ∧
    ¬ Footprint 0 (isrInitial (Rch.poolCreate 0#16) 0).device ⟨0x01#32, 0, 0⟩
      (acq200Isr (isrInitial (Rch.poolCreate 0#16) 0).device ⟨0x01#32, 0, 0⟩ 0) := by
  refine ⟨rfl, fun h => ?_⟩
  have hbase := h.registers ⟨0, 0x01#32⟩ List.mem_cons_self
  exact absurd hbase (by decide)

end Acq200.Irq
