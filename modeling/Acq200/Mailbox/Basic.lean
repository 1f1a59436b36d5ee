import Mathlib.Logic.Function.Basic

/-!
# Mailbox transactions

The host and the card talk through four mailbox registers.  A transaction
is `acq200_ioctl_wbr_mbox`: write the selected mailboxes, block until the
card acknowledges, read the selected mailboxes.

This module has the data of a transaction and the two register loops.
Both loops of the source count `ibox` down from `MBOX_NUM`, so the COMMAND
word, which is mailbox 0, is written last and read last.  `writeBox` and
`readBox` are one round of each loop, and the functions of the source are
the whole loops.
-/

namespace Acq200.Mailbox

def MBOX_NUM : Nat := 4

/-! ## Mailbox numbers and the acknowledge bit of `acq32busprot.h` -/

def BP_MB_COMMAND : Nat := 0
def BP_MB_A3 : Nat := 1
def BP_MB_A4 : Nat := 2
def BP_MB_STATUS : Nat := 3

/-- Cleared by the host, set by the card on completion. -/
def BP_CI_ACK : BitVec 32 := 1#32 <<< 31

/-! ## The control block of `acq200_ioctl.h` -/

def MBC_FLAGS_TO : BitVec 32 := 0xffff#32
def MBC_FLAGS_TO_FOREVER : BitVec 32 := 0#32
def MBC_FLAGS_MBXW : BitVec 32 := 0x000f0000#32
def MBC_FLAGS_MBXR : BitVec 32 := 0x00f00000#32
def MBC_FLAGS_ONRELEASE : BitVec 32 := 0x10000000#32

def ETIMEDOUT : Int := 110
def ERESTARTSYS : Int := 512

/-- `struct MailboxControl`. -/
structure MailboxControl where
  mbcFlags : BitVec 32
  mbxw : Nat → BitVec 32
  mbxr : Nat → BitVec 32

/-- `MBC_FROM_MBXW`, the mask of the mailboxes to write. -/
def mbcFromMbxw (mbc : MailboxControl) : BitVec 32 :=
  (mbc.mbcFlags &&& MBC_FLAGS_MBXW) >>> 16

/-- `MBC_FROM_MBXR`, the mask of the mailboxes to read. -/
def mbcFromMbxr (mbc : MailboxControl) : BitVec 32 :=
  (mbc.mbcFlags &&& MBC_FLAGS_MBXR) >>> 20

/-- The test `((1<<ibox)&mask) != 0`. -/
def selects (mask : BitVec 32) (ibox : Nat) : Bool :=
  (1#32 <<< ibox) &&& mask != 0#32

/-- The mailbox registers, by number. -/
abbrev Regs := Nat → BitVec 32

/-- One round of the loop of `_acq200_ioctl_write_mbox`. -/
def writeBox (mbc : MailboxControl) (ibox : Nat) (regs : Regs) : Regs :=
  if selects (mbcFromMbxw mbc) ibox then
    Function.update regs ibox (mbc.mbxw ibox)
  else regs

/-- One round of the loop of `acq200_ioctl_read_mbox`. -/
def readBox (regs : Regs) (ibox : Nat) (mbc : MailboxControl) : MailboxControl :=
  if selects (mbcFromMbxr mbc) ibox then
    { mbc with mbxr := Function.update mbc.mbxr ibox (regs ibox) }
  else mbc

/-- A read round changes neither what is written nor which mailboxes are
selected. -/
@[simp] theorem readBox_mbcFlags (regs : Regs) (ibox : Nat)
    (mbc : MailboxControl) : (readBox regs ibox mbc).mbcFlags = mbc.mbcFlags := by
  rw [readBox]
  split <;> rfl

@[simp] theorem mbcFromMbxr_readBox (regs : Regs) (ibox : Nat)
    (mbc : MailboxControl) :
    mbcFromMbxr (readBox regs ibox mbc) = mbcFromMbxr mbc := by
  rw [mbcFromMbxr, readBox_mbcFlags, mbcFromMbxr]

theorem readBox_mbxr_self {regs : Regs} {ibox : Nat} {mbc : MailboxControl}
    (h : selects (mbcFromMbxr mbc) ibox = true) :
    (readBox regs ibox mbc).mbxr ibox = regs ibox := by
  rw [readBox, if_pos h]
  exact Function.update_self ibox (regs ibox) mbc.mbxr

theorem readBox_mbxr_of_ne {regs : Regs} {ibox other : Nat}
    {mbc : MailboxControl} (h : other ≠ ibox) :
    (readBox regs ibox mbc).mbxr other = mbc.mbxr other := by
  rw [readBox]
  split
  · exact Function.update_of_ne h _ _
  · rfl

theorem writeBox_self {regs : Regs} {ibox : Nat} {mbc : MailboxControl}
    (h : selects (mbcFromMbxw mbc) ibox = true) :
    writeBox mbc ibox regs ibox = mbc.mbxw ibox := by
  rw [writeBox, if_pos h]
  exact Function.update_self ibox (mbc.mbxw ibox) regs

theorem writeBox_of_ne {regs : Regs} {ibox other : Nat} {mbc : MailboxControl}
    (h : other ≠ ibox) : writeBox mbc ibox regs other = regs other := by
  rw [writeBox]
  split
  · exact Function.update_of_ne h _ _
  · rfl

end Acq200.Mailbox
