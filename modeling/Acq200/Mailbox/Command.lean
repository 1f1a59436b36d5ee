import Acq200.Mailbox.Waits

/-!
# Commands and queries

The three senders of `acq200.c` build a control block and run one
transaction with it.  Three numberings meet there: the number of a mailbox
(`BP_MB_A3` is 1), its bit in the write and read masks, and the flag of the
COMMAND word that tells the card that the mailbox has a parameter
(`BP_CI_A3` is bit 27).  `acq200_sendCommandA3A4` puts mailbox numbers into
the COMMAND word where the flags belong.

`CommandEncoded` is what the card relies on, and `command_encoded_iff` says
which senders keep to it.
-/

namespace Acq200.Mailbox

/-! ## The COMMAND word -/

def BP_CI_DONE : BitVec 32 := 1#32 <<< 30
def BP_CI_COMMAND : BitVec 32 := 1#32 <<< 29
def BP_CI_QUERY : BitVec 32 := 1#32 <<< 28
def BP_CI_A3 : BitVec 32 := 1#32 <<< 27
def BP_CI_A4 : BitVec 32 := 1#32 <<< 26

def bpGetFuncode (command : BitVec 32) : BitVec 32 := (command >>> 16) &&& 0xff#32
def bpSetFuncode (funcode : BitVec 32) : BitVec 32 := funcode <<< 16
def bpGetA1 (command : BitVec 32) : BitVec 32 := (command >>> 8) &&& 0xff#32
def bpSetA1 (a1 : BitVec 32) : BitVec 32 := a1 <<< 8
def bpGetA2 (command : BitVec 32) : BitVec 32 := command &&& 0xff#32
def bpSetA2 (a2 : BitVec 32) : BitVec 32 := a2

/-- A command value with its three 8-bit fields. -/
def commandOf (funcode a1 a2 : BitVec 8) : BitVec 32 :=
  bpSetFuncode (funcode.setWidth 32) ||| bpSetA1 (a1.setWidth 32) |||
    bpSetA2 (a2.setWidth 32)

/-! ## The senders -/

def mbcToMbxw (mx : BitVec 32) : BitVec 32 := mx <<< 16
def mbcToMbxr (mx : BitVec 32) : BitVec 32 := mx <<< 20

/-- `1 << ibox`, the bit of a mailbox in a mask. -/
def boxBit (ibox : Nat) : BitVec 32 := 1#32 <<< ibox

/-- The answers that the caller of `acq200_sendQuery` has a place for. -/
structure Wants where
  a1 : Bool
  a2 : Bool
  a3 : Bool
  a4 : Bool

inductive Sender where
  | sendCommand
  | sendCommandA3A4 (a3 a4 : BitVec 32)
  | sendQuery (wants : Wants)

namespace Sender

/-- `mbc_flags` of each sender.  `DEFTO` is `HZ`, which fits the timeout
field. -/
def mbcFlags (hz : BitVec 16) : Sender → BitVec 32
  | .sendCommand =>
    hz.setWidth 32 ||| mbcToMbxw (boxBit BP_MB_COMMAND) ||| mbcToMbxr 0xf#32
  | .sendCommandA3A4 _ _ =>
    hz.setWidth 32 |||
      mbcToMbxw (boxBit BP_MB_COMMAND ||| boxBit BP_MB_A3 ||| boxBit BP_MB_A4) |||
      mbcToMbxr 0xf#32
  | .sendQuery wants =>
    let flags := hz.setWidth 32 ||| mbcToMbxw (boxBit BP_MB_COMMAND) |||
      mbcToMbxr (boxBit BP_MB_COMMAND)
    let flags := if wants.a3 then flags ||| mbcToMbxr (boxBit BP_MB_A3) else flags
    if wants.a4 then flags ||| mbcToMbxr (boxBit BP_MB_A4) else flags

/-- The COMMAND word of each sender. -/
def word (command : BitVec 32) : Sender → BitVec 32
  | .sendCommand => command ||| BP_CI_DONE ||| BP_CI_COMMAND
  | .sendCommandA3A4 _ _ =>
    -- The source has the mailbox numbers here, not `BP_CI_A3` and `BP_CI_A4`.
    command ||| BP_CI_DONE ||| BP_CI_COMMAND ||| BitVec.ofNat 32 BP_MB_A3 |||
      BitVec.ofNat 32 BP_MB_A4
  | .sendQuery _ => command ||| BP_CI_QUERY ||| BP_CI_DONE

/-- The parameters that a sender is given for the mailboxes A3 and A4. -/
def a3 : Sender → Option (BitVec 32)
  | .sendCommandA3A4 a3 _ => some a3
  | _ => none

def a4 : Sender → Option (BitVec 32)
  | .sendCommandA3A4 _ a4 => some a4
  | _ => none

def isQuery : Sender → Bool
  | .sendQuery _ => true
  | _ => false

/-- The control block of each sender.  What the initialiser leaves out is
zero. -/
def block (hz : BitVec 16) (command : BitVec 32) (sender : Sender) : MailboxControl where
  mbcFlags := sender.mbcFlags hz
  mbxw := Function.update
    (Function.update
      (Function.update (fun _ => 0#32) BP_MB_COMMAND (sender.word command))
      BP_MB_A3 (sender.a3.getD 0#32))
    BP_MB_A4 (sender.a4.getD 0#32)
  mbxr := fun _ => 0#32

/-- A sender runs one transaction. -/
def send {w : Nat} (env : CallEnv w) (hz : BitVec 16) (command : BitVec 32)
    (sender : Sender) : Option Outcome :=
  ioctlWbrMbox env (sender.block hz command)

end Sender

/-- The places that the caller of `acq200_sendQuery` finds filled. -/
structure Answers where
  a1 : Option (BitVec 32)
  a2 : Option (BitVec 32)
  a3 : Option (BitVec 32)
  a4 : Option (BitVec 32)

/-- `acq200_sendQuery` with its answers. -/
def sendQuery {w : Nat} (env : CallEnv w) (hz : BitVec 16) (command : BitVec 32)
    (wants : Wants) : Option (Int × Answers) :=
  ((Sender.sendQuery wants).send env hz command).map fun out =>
    if out.rc = 0 then
      (out.rc,
        { a1 := if wants.a1 then some (bpGetA1 (out.mbc.mbxr BP_MB_COMMAND)) else none
          a2 := if wants.a2 then some (bpGetA2 (out.mbc.mbxr BP_MB_COMMAND)) else none
          a3 := if wants.a3 then some (out.mbc.mbxr BP_MB_A3) else none
          a4 := if wants.a4 then some (out.mbc.mbxr BP_MB_A4) else none })
    else (out.rc, { a1 := none, a2 := none, a3 := none, a4 := none })

/-! ## What the card relies on -/

/-- A COMMAND word with its three fields and its flags. -/
structure WordEncodes (word : BitVec 32) (funcode a1 a2 : BitVec 8) (query : Bool)
    (hasA3 hasA4 : Prop) : Prop where
  funcode : bpGetFuncode word = funcode.setWidth 32
  a1 : bpGetA1 word = a1.setWidth 32
  a2 : bpGetA2 word = a2.setWidth 32
  ack : word &&& BP_CI_ACK = 0#32
  done : word &&& BP_CI_DONE ≠ 0#32
  command : word &&& BP_CI_COMMAND ≠ 0#32 ↔ query = false
  query : word &&& BP_CI_QUERY ≠ 0#32 ↔ query = true
  a3 : word &&& BP_CI_A3 ≠ 0#32 ↔ hasA3
  a4 : word &&& BP_CI_A4 ≠ 0#32 ↔ hasA4

/-- Each answer of a query comes from a mailbox that the call has read. -/
structure AnswersRead {w : Nat} (env : CallEnv w) (mbc : MailboxControl) (wants : Wants)
    (answers : Answers) : Prop where
  a1 : wants.a1 = true → selects (mbcFromMbxr mbc) BP_MB_COMMAND = true ∧
    answers.a1 = some (bpGetA1 (env.regs BP_MB_COMMAND))
  a2 : wants.a2 = true → selects (mbcFromMbxr mbc) BP_MB_COMMAND = true ∧
    answers.a2 = some (bpGetA2 (env.regs BP_MB_COMMAND))
  a3 : wants.a3 = true → selects (mbcFromMbxr mbc) BP_MB_A3 = true ∧
    answers.a3 = some (env.regs BP_MB_A3)
  a4 : wants.a4 = true → selects (mbcFromMbxr mbc) BP_MB_A4 = true ∧
    answers.a4 = some (env.regs BP_MB_A4)

/-- What a sender writes and what it reads back.  COMMAND is the last
mailbox written, and A3 and A4 are before it if they are written at all. -/
structure CommandEncoded (hz : BitVec 16) (funcode a1 a2 : BitVec 8) (sender : Sender) :
    Prop where
  written : ∃ before word,
    ioctlWriteMbox (sender.block hz (commandOf funcode a1 a2)) =
      before ++ [(BP_MB_COMMAND, word)] ∧
    (∀ box ∈ before, box.1 ≠ BP_MB_COMMAND) ∧
    (∀ v, (BP_MB_A3, v) ∈ before → sender.a3 = some v) ∧
    (∀ v, (BP_MB_A4, v) ∈ before → sender.a4 = some v) ∧
    WordEncodes word funcode a1 a2 sender.isQuery (∃ v, (BP_MB_A3, v) ∈ before)
      (∃ v, (BP_MB_A4, v) ∈ before)
  answered : ∀ (w : Nat) (env : CallEnv w) (wants : Wants) (answers : Answers),
    sender = .sendQuery wants →
    sendQuery env hz (commandOf funcode a1 a2) wants = some (0, answers) →
    AnswersRead env (sender.block hz (commandOf funcode a1 a2)) wants answers

/-! ## Fields and flags, bit by bit -/

theorem getLsbD_of_le {n : Nat} (x : BitVec n) : ∀ i, n ≤ i → x.getLsbD i = false :=
  fun i h => BitVec.getLsbD_of_ge x i h

/-- A literal mask is known from its 32 bits. -/
theorem getLsbD_mask {mask : BitVec 32} {lo hi : Nat} (hhi : hi ≤ 32)
    (h : ∀ i < 32, mask.getLsbD i = decide (lo ≤ i ∧ i < hi)) (i : Nat) :
    mask.getLsbD i = decide (lo ≤ i ∧ i < hi) := by
  by_cases hi : i < 32
  · exact h i hi
  · rw [getLsbD_of_le mask i (by omega)]
    exact (decide_eq_false (by omega)).symm

theorem getLsbD_ff (i : Nat) : (0xff#32).getLsbD i = decide (0 ≤ i ∧ i < 8) :=
  getLsbD_mask (by decide) (by decide) i

theorem getLsbD_commandOf (funcode a1 a2 : BitVec 8) (i : Nat) :
    (commandOf funcode a1 a2).getLsbD i =
      if i < 8 then a2.getLsbD i
      else if i < 16 then a1.getLsbD (i - 8)
      else funcode.getLsbD (i - 16) := by
  have := getLsbD_of_le funcode
  have := getLsbD_of_le a1
  have := getLsbD_of_le a2
  simp only [commandOf, bpSetFuncode, bpSetA1, bpSetA2, BitVec.getLsbD_or,
    BitVec.getLsbD_shiftLeft, BitVec.getLsbD_setWidth]
  grind

/-- Flags above the fields, such as every `BP_CI_` flag. -/
def AboveFields (flags : BitVec 32) : Prop := ∀ i < 24, flags.getLsbD i = false

instance (flags : BitVec 32) : Decidable (AboveFields flags) :=
  inferInstanceAs (Decidable (∀ i < 24, _))

section Fields

variable (funcode a1 a2 : BitVec 8) {flags : BitVec 32} (hflags : AboveFields flags)

include hflags

theorem bpGetFuncode_commandOf :
    bpGetFuncode (commandOf funcode a1 a2 ||| flags) = funcode.setWidth 32 := by
  apply BitVec.eq_of_getLsbD_eq
  intro i hi
  have := getLsbD_of_le funcode
  have hflag := hflags (16 + i)
  simp only [bpGetFuncode, BitVec.getLsbD_and, BitVec.getLsbD_or,
    BitVec.getLsbD_ushiftRight, getLsbD_commandOf, getLsbD_ff, BitVec.getLsbD_setWidth]
  grind

theorem bpGetA1_commandOf :
    bpGetA1 (commandOf funcode a1 a2 ||| flags) = a1.setWidth 32 := by
  apply BitVec.eq_of_getLsbD_eq
  intro i hi
  have := getLsbD_of_le a1
  have hflag := hflags (8 + i)
  simp only [bpGetA1, BitVec.getLsbD_and, BitVec.getLsbD_or,
    BitVec.getLsbD_ushiftRight, getLsbD_commandOf, getLsbD_ff, BitVec.getLsbD_setWidth]
  grind

theorem bpGetA2_commandOf :
    bpGetA2 (commandOf funcode a1 a2 ||| flags) = a2.setWidth 32 := by
  apply BitVec.eq_of_getLsbD_eq
  intro i hi
  have := getLsbD_of_le a2
  have hflag := hflags i
  simp only [bpGetA2, BitVec.getLsbD_and, BitVec.getLsbD_or, getLsbD_commandOf,
    getLsbD_ff, BitVec.getLsbD_setWidth]
  grind

end Fields

/-- A test for a flag sees only the flags of a word. -/
theorem flag_commandOf (funcode a1 a2 : BitVec 8) (flags : BitVec 32) {flag : BitVec 32}
    (hflag : AboveFields flag) :
    (commandOf funcode a1 a2 ||| flags) &&& flag = flags &&& flag := by
  apply BitVec.eq_of_getLsbD_eq
  intro i hi
  have := getLsbD_of_le funcode
  have := hflag i
  simp only [BitVec.getLsbD_and, BitVec.getLsbD_or, getLsbD_commandOf]
  grind

theorem mbcFromMbxw_flags (hz : BitVec 16) (mbxw mbxr : BitVec 4) :
    ((hz.setWidth 32 ||| mbcToMbxw (mbxw.setWidth 32) ||| mbcToMbxr (mbxr.setWidth 32)) &&&
      MBC_FLAGS_MBXW) >>> 16 = mbxw.setWidth 32 := by
  apply BitVec.eq_of_getLsbD_eq
  intro i hi
  have := getLsbD_of_le hz
  have := getLsbD_of_le mbxw
  have hmask : ∀ i, MBC_FLAGS_MBXW.getLsbD i = decide (16 ≤ i ∧ i < 20) :=
    getLsbD_mask (by decide) (by decide)
  simp only [mbcToMbxw, mbcToMbxr, BitVec.getLsbD_and, BitVec.getLsbD_or,
    BitVec.getLsbD_ushiftRight, BitVec.getLsbD_shiftLeft, BitVec.getLsbD_setWidth, hmask]
  grind

theorem mbcFromMbxr_flags (hz : BitVec 16) (mbxw mbxr : BitVec 4) :
    ((hz.setWidth 32 ||| mbcToMbxw (mbxw.setWidth 32) ||| mbcToMbxr (mbxr.setWidth 32)) &&&
      MBC_FLAGS_MBXR) >>> 20 = mbxr.setWidth 32 := by
  apply BitVec.eq_of_getLsbD_eq
  intro i hi
  have := getLsbD_of_le hz
  have := getLsbD_of_le mbxw
  have := getLsbD_of_le mbxr
  have hmask : ∀ i, MBC_FLAGS_MBXR.getLsbD i = decide (20 ≤ i ∧ i < 24) :=
    getLsbD_mask (by decide) (by decide)
  simp only [mbcToMbxw, mbcToMbxr, BitVec.getLsbD_and, BitVec.getLsbD_or,
    BitVec.getLsbD_ushiftRight, BitVec.getLsbD_shiftLeft, BitVec.getLsbD_setWidth, hmask]
  grind

/-! ## What the senders write and read -/

/-- The mailboxes that each sender selects. -/
def Sender.writeMask : Sender → BitVec 4
  | .sendCommandA3A4 _ _ => 0b0111#4
  | _ => 0b0001#4

def Sender.readMask : Sender → BitVec 4
  | .sendQuery wants =>
    match wants.a3, wants.a4 with
    | false, false => 0b0001#4
    | true, false => 0b0011#4
    | false, true => 0b0101#4
    | true, true => 0b0111#4
  | _ => 0b1111#4

theorem mbcFlags_eq (hz : BitVec 16) (sender : Sender) :
    sender.mbcFlags hz = hz.setWidth 32 ||| mbcToMbxw (sender.writeMask.setWidth 32) |||
      mbcToMbxr (sender.readMask.setWidth 32) := by
  have hcommand : boxBit BP_MB_COMMAND = (0b0001#4).setWidth 32 := by decide
  have hall : 0xf#32 = (0b1111#4).setWidth 32 := by decide
  cases sender with
  | sendCommand =>
    rw [Sender.mbcFlags, hcommand, hall, Sender.writeMask, Sender.readMask]
    · rintro wants ⟨⟩
    · rintro a3 a4 ⟨⟩
  | sendCommandA3A4 a3 a4 =>
    have hboxes : boxBit BP_MB_COMMAND ||| boxBit BP_MB_A3 ||| boxBit BP_MB_A4 =
        (0b0111#4).setWidth 32 := by decide
    rw [Sender.mbcFlags, hboxes, hall, Sender.writeMask, Sender.readMask]
    rintro wants ⟨⟩
  | sendQuery wants =>
    obtain ⟨w1, w2, w3, w4⟩ := wants
    have h3 : mbcToMbxr ((0b0001#4).setWidth 32) ||| mbcToMbxr (boxBit BP_MB_A3) =
        mbcToMbxr ((0b0011#4).setWidth 32) := by decide
    have h4 : mbcToMbxr ((0b0001#4).setWidth 32) ||| mbcToMbxr (boxBit BP_MB_A4) =
        mbcToMbxr ((0b0101#4).setWidth 32) := by decide
    have h34 : mbcToMbxr ((0b0011#4).setWidth 32) ||| mbcToMbxr (boxBit BP_MB_A4) =
        mbcToMbxr ((0b0111#4).setWidth 32) := by decide
    cases w3 <;> cases w4 <;>
      simp only [Sender.mbcFlags, Sender.writeMask, Sender.readMask, hcommand, if_true,
        Bool.false_eq_true, if_false]
    · rw [BitVec.or_assoc, h4]
    · rw [BitVec.or_assoc, h3]
    · rw [BitVec.or_assoc (hz.setWidth 32 ||| _), h3, BitVec.or_assoc (hz.setWidth 32 ||| _),
        h34]

theorem mbcFromMbxw_block (hz : BitVec 16) (command : BitVec 32) (sender : Sender) :
    mbcFromMbxw (sender.block hz command) = sender.writeMask.setWidth 32 := by
  rw [mbcFromMbxw, Sender.block, mbcFlags_eq, mbcFromMbxw_flags]

theorem mbcFromMbxr_block (hz : BitVec 16) (command : BitVec 32) (sender : Sender) :
    mbcFromMbxr (sender.block hz command) = sender.readMask.setWidth 32 := by
  rw [mbcFromMbxr, Sender.block, mbcFlags_eq, mbcFromMbxr_flags]

/-- A plain sender writes the COMMAND mailbox and no other. -/
theorem ioctlWriteMbox_block (hz : BitVec 16) (command : BitVec 32) {sender : Sender}
    (hplain : sender.writeMask = 0b0001#4) :
    ioctlWriteMbox (sender.block hz command) = [(BP_MB_COMMAND, sender.word command)] := by
  have hboxes : (List.range MBOX_NUM).reverse.filter
      (selects ((0b0001#4).setWidth 32)) = [BP_MB_COMMAND] := by decide
  rw [ioctlWriteMbox, mbcFromMbxw_block, hplain, hboxes]
  rfl

theorem ioctlWriteMbox_blockA3A4 (hz : BitVec 16) (command a3 a4 : BitVec 32) :
    ioctlWriteMbox ((Sender.sendCommandA3A4 a3 a4).block hz command) =
      [(BP_MB_A4, a4), (BP_MB_A3, a3),
        (BP_MB_COMMAND, (Sender.sendCommandA3A4 a3 a4).word command)] := by
  have hboxes : (List.range MBOX_NUM).reverse.filter
      (selects ((0b0111#4).setWidth 32)) = [BP_MB_A4, BP_MB_A3, BP_MB_COMMAND] := by decide
  rw [ioctlWriteMbox, mbcFromMbxw_block, Sender.writeMask, hboxes]
  rfl

/-- The read loop fills the selected mailboxes that it visits. -/
theorem foldl_readBox_mbxr (regs : Regs) (ibox : Nat) (boxes : List Nat) :
    ∀ mbc : MailboxControl, selects (mbcFromMbxr mbc) ibox = true →
      (ibox ∈ boxes ∨ mbc.mbxr ibox = regs ibox) →
      (boxes.foldl (fun mbc ibox => readBox regs ibox mbc) mbc).mbxr ibox = regs ibox := by
  induction boxes with
  | nil =>
    intro mbc _ hvisit
    exact hvisit.resolve_left (List.not_mem_nil)
  | cons box boxes ih =>
    intro mbc hsel hvisit
    refine ih (readBox regs box mbc) (by rw [mbcFromMbxr_readBox]; exact hsel) ?_
    by_cases heq : ibox = box
    · right
      rw [← heq]
      exact readBox_mbxr_self hsel
    · rcases hvisit with hmem | hdone
      · exact Or.inl ((List.mem_cons.mp hmem).resolve_left heq)
      · right
        rw [readBox_mbxr_of_ne heq]
        exact hdone

theorem ioctlReadMbox_mbxr {regs : Regs} {mbc : MailboxControl} {ibox : Nat}
    (hlt : ibox < MBOX_NUM) (hsel : selects (mbcFromMbxr mbc) ibox = true) :
    (ioctlReadMbox regs mbc).mbxr ibox = regs ibox :=
  foldl_readBox_mbxr regs ibox _ mbc hsel (Or.inl (by simpa using hlt))

/-- The word of a plain sender. -/
theorem wordEncodes_flags (funcode a1 a2 : BitVec 8) {flags : BitVec 32} {query : Bool}
    (habove : AboveFields flags) (hack : flags &&& BP_CI_ACK = 0#32)
    (hdone : flags &&& BP_CI_DONE ≠ 0#32)
    (hcommand : flags &&& BP_CI_COMMAND ≠ 0#32 ↔ query = false)
    (hquery : flags &&& BP_CI_QUERY ≠ 0#32 ↔ query = true)
    (ha3 : flags &&& BP_CI_A3 = 0#32) (ha4 : flags &&& BP_CI_A4 = 0#32) :
    WordEncodes (commandOf funcode a1 a2 ||| flags) funcode a1 a2 query False False where
  funcode := bpGetFuncode_commandOf funcode a1 a2 habove
  a1 := bpGetA1_commandOf funcode a1 a2 habove
  a2 := bpGetA2_commandOf funcode a1 a2 habove
  ack := by
    rw [flag_commandOf _ _ _ _ (by decide)]
    exact hack
  done := by
    rw [flag_commandOf _ _ _ _ (by decide)]
    exact hdone
  command := by
    rw [flag_commandOf _ _ _ _ (by decide)]
    exact hcommand
  query := by
    rw [flag_commandOf _ _ _ _ (by decide)]
    exact hquery
  a3 := by
    rw [flag_commandOf _ _ _ _ (by decide)]
    exact iff_of_false (fun h => h ha3) id
  a4 := by
    rw [flag_commandOf _ _ _ _ (by decide)]
    exact iff_of_false (fun h => h ha4) id

theorem wordEncodes_sendCommand (funcode a1 a2 : BitVec 8) :
    WordEncodes (Sender.sendCommand.word (commandOf funcode a1 a2)) funcode a1 a2 false
      False False := by
  rw [Sender.word, BitVec.or_assoc]
  exact wordEncodes_flags funcode a1 a2 (by decide) (by decide) (by decide) (by decide)
    (by decide) (by decide) (by decide)

theorem wordEncodes_sendQuery (funcode a1 a2 : BitVec 8) (wants : Wants) :
    WordEncodes ((Sender.sendQuery wants).word (commandOf funcode a1 a2)) funcode a1 a2 true
      False False := by
  rw [Sender.word, BitVec.or_assoc]
  exact wordEncodes_flags funcode a1 a2 (by decide) (by decide) (by decide) (by decide)
    (by decide) (by decide) (by decide)

/-- A call that succeeds has read its mailboxes. -/
theorem ioctlWbrMbox_ok {w : Nat} {env : CallEnv w} {mbc : MailboxControl} {out : Outcome}
    (h : ioctlWbrMbox env mbc = some out) (hrc : out.rc = 0) :
    out.mbc = ioctlReadMbox env.regs mbc := by
  rw [ioctlWbrMbox] at h
  split at h
  · rw [Option.map_eq_some_iff] at h
    obtain ⟨rc, -, rfl⟩ := h
    rfl
  · cases h
    have hne : -ERESTARTSYS ≠ 0 := by decide
    exact absurd hrc hne

/-- A query reads the mailbox of each answer that is wanted. -/
theorem selects_readMask (wants : Wants) :
    selects ((Sender.sendQuery wants).readMask.setWidth 32) BP_MB_COMMAND = true ∧
    (wants.a3 = true →
      selects ((Sender.sendQuery wants).readMask.setWidth 32) BP_MB_A3 = true) ∧
    (wants.a4 = true →
      selects ((Sender.sendQuery wants).readMask.setWidth 32) BP_MB_A4 = true) := by
  obtain ⟨w1, w2, w3, w4⟩ := wants
  simp only [Sender.readMask]
  cases w3 <;> cases w4 <;> decide

theorem sendQuery_answersRead {w : Nat} {env : CallEnv w} {hz : BitVec 16}
    {command : BitVec 32} {wants : Wants} {answers : Answers}
    (h : sendQuery env hz command wants = some (0, answers)) :
    AnswersRead env ((Sender.sendQuery wants).block hz command) wants answers := by
  obtain ⟨out, hout, heq⟩ := Option.map_eq_some_iff.mp h
  by_cases hrc : out.rc = 0
  · rw [if_pos hrc] at heq
    obtain rfl := (Prod.mk.inj heq).2
    have hmbc := ioctlWbrMbox_ok hout hrc
    obtain ⟨hcommand, ha3, ha4⟩ := selects_readMask wants
    rw [← mbcFromMbxr_block hz command] at hcommand ha3 ha4
    refine ⟨fun hw => ⟨hcommand, ?_⟩, fun hw => ⟨hcommand, ?_⟩, fun hw => ⟨ha3 hw, ?_⟩,
      fun hw => ⟨ha4 hw, ?_⟩⟩
    · rw [if_pos hw, hmbc, ioctlReadMbox_mbxr (by decide) hcommand]
    · rw [if_pos hw, hmbc, ioctlReadMbox_mbxr (by decide) hcommand]
    · rw [if_pos hw, hmbc, ioctlReadMbox_mbxr (by decide) (ha3 hw)]
    · rw [if_pos hw, hmbc, ioctlReadMbox_mbxr (by decide) (ha4 hw)]
  · rw [if_neg hrc] at heq
    exact absurd (congrArg Prod.fst heq) hrc

/-- `acq200_sendCommandA3A4` sets the two low bits of A2 whatever the caller
asked for. -/
theorem bpGetA2_sendCommandA3A4 (funcode a1 a2 : BitVec 8) (a3 a4 : BitVec 32) :
    bpGetA2 ((Sender.sendCommandA3A4 a3 a4).word (commandOf funcode a1 a2)) =
      (a2 ||| 3#8).setWidth 32 := by
  apply BitVec.eq_of_getLsbD_eq
  intro i hi
  have := getLsbD_of_le a2
  have hflags : ∀ i < 8, (BP_CI_DONE ||| BP_CI_COMMAND ||| BitVec.ofNat 32 BP_MB_A3 |||
      BitVec.ofNat 32 BP_MB_A4).getLsbD i = (3#8).getLsbD i := by decide
  have := hflags i
  have := getLsbD_of_le (3#8)
  simp only [Sender.word, bpGetA2, BitVec.getLsbD_and, BitVec.getLsbD_or, getLsbD_commandOf,
    getLsbD_ff, BitVec.getLsbD_setWidth] at this ⊢
  grind

/-- Its word does not tell the card about A3. -/
theorem sendCommandA3A4_flag (funcode a1 a2 : BitVec 8) (a3 a4 : BitVec 32) :
    (Sender.sendCommandA3A4 a3 a4).word (commandOf funcode a1 a2) &&& BP_CI_A3 = 0#32 := by
  simp only [Sender.word, BitVec.or_assoc]
  rw [flag_commandOf _ _ _ _ (by decide)]
  decide

/-- `acq200_sendCommand` and `acq200_sendQuery` encode every command, and
`acq200_sendCommandA3A4` encodes none. -/
theorem command_encoded_iff (hz : BitVec 16) (funcode a1 a2 : BitVec 8) (sender : Sender) :
    CommandEncoded hz funcode a1 a2 sender ↔
      ∀ a3 a4, sender ≠ .sendCommandA3A4 a3 a4 := by
  cases sender with
  | sendCommand =>
    refine iff_of_true ⟨⟨[], _, ioctlWriteMbox_block hz _ rfl, ?_⟩, ?_⟩ (by simp)
    · simpa [Sender.isQuery] using wordEncodes_sendCommand funcode a1 a2
    · rintro w env wants answers ⟨⟩
  | sendQuery wants =>
    refine iff_of_true ⟨⟨[], _, ioctlWriteMbox_block hz _ rfl, ?_⟩, ?_⟩ (by simp)
    · simpa [Sender.isQuery] using wordEncodes_sendQuery funcode a1 a2 wants
    · rintro w env wants answers ⟨⟩ h
      exact sendQuery_answersRead h
  | sendCommandA3A4 a3 a4 =>
    refine iff_of_false (fun h => ?_) (fun h => h a3 a4 rfl)
    obtain ⟨before, word, hwrote, -, -, -, hword⟩ := h.written
    rw [ioctlWriteMbox_blockA3A4] at hwrote
    have hsplit : [(BP_MB_A4, a4), (BP_MB_A3, a3)] ++ [(BP_MB_COMMAND,
        (Sender.sendCommandA3A4 a3 a4).word (commandOf funcode a1 a2))] =
        before ++ [(BP_MB_COMMAND, word)] := hwrote
    obtain ⟨hbefore, hlast⟩ := List.append_inj' hsplit rfl
    have ha3 := hword.a3.mpr ⟨a3, by simp [← hbefore]⟩
    cases hlast
    exact ha3 (sendCommandA3A4_flag funcode a1 a2 a3 a4)

/-- A command with funcode 1 and A2 zero, and parameters 7 and 9: the card
is told that A2 is 3 and that there are no parameters. -/
theorem sendCommandA3A4_corrupts_word :
    ¬ CommandEncoded 100#16 1#8 0#8 0#8 (.sendCommandA3A4 7#32 9#32) ∧
    (Sender.sendCommandA3A4 7#32 9#32).word (commandOf 1#8 0#8 0#8) = 0x60010003#32 := by
  refine ⟨fun h => ?_, by decide⟩
  obtain ⟨before, word, hwrote, -, -, -, hword⟩ := h.written
  have hwrote' : [(BP_MB_A4, 9#32), (BP_MB_A3, 7#32)] ++ [(BP_MB_COMMAND, 0x60010003#32)] =
      before ++ [(BP_MB_COMMAND, word)] := by
    rw [← hwrote]
    decide
  obtain ⟨-, hlast⟩ := List.append_inj' hwrote' rfl
  cases hlast
  exact absurd hword.a2 (by decide)

end Acq200.Mailbox
