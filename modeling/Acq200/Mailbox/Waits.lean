import Acq200.Mailbox.Basic
import Mathlib.Data.Int.ModEq
import Mathlib.Data.Nat.Find

/-!
# The two waits of a mailbox call and what the caller is told

`acq200_ioctl_wbr_mbox` waits for the acknowledge of the card in one of two
ways.  With interrupts it sleeps on a wait queue, without them it polls the
COMMAND mailbox and looks at `jiffies` after each poll.  `CallEnv` is all
that one call meets: whether it gets the mutex, the tick of the
acknowledge, the tick of a signal and the ticks of its polls.  The two
kernel waits are written as the kernel documents them.

The polled wait has no case for `MBC_FLAGS_TO_FOREVER`.  `waits_agree_iff`
says that this is the one timeout for which the waits differ by more than
the round that passes the deadline, and how early the acknowledge has to
come so that they do not.

`acq200_mbox_ioctl` keeps the result of the call in `rc` and then stores
the result of `copy_to_user` there.  `mbox_ioctl_reports_iff` says for
which calls the caller is told the truth.
-/

namespace Acq200.Mailbox

def EFAULT : Int := 14
def ENOTTY : Int := 25

/-- "Set a big timeout to handle the case of timer interrupts disabled." -/
def BIGTIME : Nat := 0x7fffffff

/-- What one call of `acq200_ioctl_wbr_mbox` meets.  Ticks count from the
moment its wait starts, and `jiffies` has the width of `unsigned long`. -/
structure CallEnv (w : Nat) where
  /-- `down_interruptible` gets the mutex. -/
  locked : Bool
  usingInterrupt : Bool
  /-- The tick from which the acknowledge is there. -/
  ack : Option Nat
  signal : Option Nat
  /-- The clock when the wait starts. -/
  jiffies : BitVec w
  /-- The tick at which a poll reads the COMMAND mailbox. -/
  readAt : Nat → Nat
  /-- The tick at which a poll looks at the clock. -/
  testAt : Nat → Nat
  /-- The mailboxes when they are read back. -/
  regs : Regs

/-- `time_after`. -/
def timeAfter {w : Nat} (a b : BitVec w) : Bool := (b - a).msb

namespace CallEnv

variable {w : Nat} (env : CallEnv w)

/-! ## The waits -/

def acked (tick : Nat) : Bool := env.ack.any (· ≤ tick)

/-- The time test of poll `itimeout`, with `end = jiffies + timeout`. -/
def expired (timeout itimeout : Nat) : Bool :=
  timeAfter (env.jiffies + BitVec.ofNat w (env.testAt itimeout))
    (env.jiffies + BitVec.ofNat w timeout)

/-- The loop of `acq200_poll_response` with `left` polls still to come. -/
def pollFrom (timeout : Nat) : Nat → Nat → Int
  | 0, _ => -ETIMEDOUT
  | left + 1, itimeout =>
    if env.acked (env.readAt itimeout) then 0
    else if env.expired timeout itimeout then -ETIMEDOUT
    else pollFrom timeout left (itimeout + 1)

/-- `acq200_poll_response`. -/
def acq200PollResponse (timeout : Nat) : Int := env.pollFrom timeout BIGTIME 0

/-- `wait_event_interruptible`.  A wait that never ends is `none`. -/
def waitEventInterruptible : Option Int :=
  match env.ack, env.signal with
  | none, none => none
  | some _, none => some 0
  | none, some _ => some (-ERESTARTSYS)
  | some a, some g => if a ≤ g then some 0 else some (-ERESTARTSYS)

/-- `wait_event_interruptible_timeout`: the ticks left, or 0 when the time
is up. -/
def waitEventInterruptibleTimeout (timeout : Nat) : Int :=
  match env.ack.filter (· < timeout), env.signal.filter (· < timeout) with
  | none, none => 0
  | some a, none => timeout - a
  | none, some _ => -ERESTARTSYS
  | some a, some g => if a ≤ g then timeout - a else -ERESTARTSYS

/-- The block of `acq200_ioctl_wbr_mbox` between the write and the read. -/
def waitResponse (timeout : Nat) : Option Int :=
  if env.usingInterrupt then
    if timeout = MBC_FLAGS_TO_FOREVER.toNat then env.waitEventInterruptible
    else
      let rc := env.waitEventInterruptibleTimeout timeout
      if rc = 0 then some (-ETIMEDOUT)
      -- Ticks left are a success.
      else if rc > 0 then some 0
      else some rc
  else some (env.acq200PollResponse timeout)

end CallEnv

/-! ## The call and its ioctl -/

/-- The mailboxes that `_acq200_ioctl_write_mbox` writes, in its order. -/
def ioctlWriteMbox (mbc : MailboxControl) : List (Nat × BitVec 32) :=
  ((List.range MBOX_NUM).reverse.filter (selects (mbcFromMbxw mbc))).map
    fun ibox => (ibox, mbc.mbxw ibox)

/-- `acq200_ioctl_read_mbox`. -/
def ioctlReadMbox (regs : Regs) (mbc : MailboxControl) : MailboxControl :=
  (List.range MBOX_NUM).reverse.foldl (fun mbc ibox => readBox regs ibox mbc) mbc

/-- What a mailbox action returns, the block it leaves and what it wrote. -/
structure Outcome where
  rc : Int
  mbc : MailboxControl
  wrote : List (Nat × BitVec 32)

/-- The timeout field of a block, in ticks. -/
def timeoutOf (mbc : MailboxControl) : Nat := (mbc.mbcFlags &&& MBC_FLAGS_TO).toNat

/-- `acq200_ioctl_wbr_mbox`.  A call that never returns is `none`. -/
def ioctlWbrMbox {w : Nat} (env : CallEnv w) (mbc : MailboxControl) : Option Outcome :=
  if env.locked then
    (env.waitResponse (timeoutOf mbc)).map fun rc =>
      { rc := rc
        mbc := ioctlReadMbox env.regs mbc
        wrote := ioctlWriteMbox mbc }
  else some { rc := -ERESTARTSYS, mbc := mbc, wrote := [] }

/-- The bytes that the two user copies of an ioctl leave uncopied. -/
structure UserCopies where
  copyFromUser : Nat
  copyToUser : Nat

/-- What an ioctl returns, `mbc_on_release` after it, and the block that the
user gets back. -/
structure IoctlResult where
  rc : Int
  mbcOnRelease : MailboxControl
  umbc : Option MailboxControl

/-- `acq200_mbox_ioctl`. -/
def mboxIoctl (copies : UserCopies) (mbcOnRelease kmbc : MailboxControl)
    (action : MailboxControl → Option Outcome) : Option IoctlResult :=
  if copies.copyFromUser ≠ 0 then
    some { rc := -EFAULT, mbcOnRelease := mbcOnRelease, umbc := none }
  else if kmbc.mbcFlags &&& MBC_FLAGS_ONRELEASE ≠ 0#32 then
    some { rc := 0, mbcOnRelease := kmbc, umbc := none }
  else
    (action kmbc).map fun done =>
      -- `rc = action(device, &kmbc)` is overwritten by the copy.
      if copies.copyToUser ≠ 0 then
        { rc := -EFAULT, mbcOnRelease := mbcOnRelease, umbc := none }
      else { rc := 0, mbcOnRelease := mbcOnRelease, umbc := some done.mbc }

/-- The mailbox commands of `acq200_ioctl`. -/
inductive MboxCmd where
  | ior
  | iowr
  deriving DecidableEq

/-- `acq200_ioctl` for a mailbox command. -/
def acq200Ioctl {w : Nat} (env : CallEnv w) (copies : UserCopies)
    (mbcOnRelease : MailboxControl) (cmd : MboxCmd) (kmbc : MailboxControl) :
    Option IoctlResult :=
  match cmd with
  | .ior =>
    mboxIoctl copies mbcOnRelease kmbc fun mbc =>
      some { rc := 0, mbc := ioctlReadMbox env.regs mbc, wrote := [] }
  | .iowr => mboxIoctl copies mbcOnRelease kmbc (ioctlWbrMbox env)

namespace CallEnv

variable {w : Nat} {env : CallEnv w} {timeout : Nat}

/-! ## What the polls find -/

/-- Some poll reads the acknowledge before the time test has ended the
loop. -/
def PollSees (env : CallEnv w) (timeout : Nat) : Prop :=
  ∃ k < BIGTIME, env.acked (env.readAt k) = true ∧
    ∀ j < k, env.expired timeout j = false

/-- The loop returns 0 exactly when one of its polls sees the acknowledge. -/
theorem pollFrom_eq_zero (left : Nat) :
    ∀ k, env.pollFrom timeout left k = 0 ↔
      ∃ i < left, env.acked (env.readAt (k + i)) = true ∧
        ∀ j < i, env.expired timeout (k + j) = false := by
  induction left with
  | zero =>
    intro k
    simp [pollFrom, ETIMEDOUT]
  | succ left ih =>
    intro k
    rw [pollFrom]
    split
    · rename_i hack
      refine iff_of_true rfl ⟨0, Nat.zero_lt_succ left, hack, fun j hj => ?_⟩
      exact absurd hj (Nat.not_lt_zero j)
    · rename_i hack
      split
      · rename_i hexp
        refine iff_of_false (by decide) ?_
        rintro ⟨i, hi, hseen, hopen⟩
        cases i with
        | zero => exact hack hseen
        | succ i =>
          have := hopen 0 (Nat.zero_lt_succ i)
          rw [Nat.add_zero, hexp] at this
          cases this
      · rename_i hexp
        rw [ih (k + 1)]
        constructor
        · rintro ⟨i, hi, hseen, hopen⟩
          refine ⟨i + 1, by omega, ?_, fun j hj => ?_⟩
          · rw [show k + (i + 1) = k + 1 + i by omega]
            exact hseen
          · cases j with
            | zero => simpa using hexp
            | succ j =>
              rw [show k + (j + 1) = k + 1 + j by omega]
              exact hopen j (by omega)
        · rintro ⟨i, hi, hseen, hopen⟩
          cases i with
          | zero => exact absurd hseen hack
          | succ i =>
            refine ⟨i, by omega, ?_, fun j hj => ?_⟩
            · rw [show k + 1 + i = k + (i + 1) by omega]
              exact hseen
            · rw [show k + 1 + j = k + (j + 1) by omega]
              exact hopen (j + 1) (by omega)

theorem pollFrom_cases (env : CallEnv w) (timeout left : Nat) :
    ∀ k, env.pollFrom timeout left k = 0 ∨ env.pollFrom timeout left k = -ETIMEDOUT := by
  induction left with
  | zero => exact fun k => Or.inr rfl
  | succ left ih =>
    intro k
    rw [pollFrom]
    split
    · exact Or.inl rfl
    · split
      · exact Or.inr rfl
      · exact ih (k + 1)

theorem acq200PollResponse_eq_zero :
    env.acq200PollResponse timeout = 0 ↔ env.PollSees timeout := by
  rw [acq200PollResponse, pollFrom_eq_zero BIGTIME 0]
  simp only [Nat.zero_add, PollSees]

/-! ## How a wait ends -/

/-- The acknowledge is seen within the timeout, and before any signal that
the wait listens to. -/
def AckInTime (env : CallEnv w) (timeout : Nat) : Prop :=
  if env.usingInterrupt then
    ∃ a, env.ack = some a ∧ (timeout = 0 ∨ a < timeout) ∧
      ∀ g, env.signal = some g → a ≤ g
  else env.PollSees timeout

/-- The wait has no deadline, and neither the card nor a signal ends it. -/
def NeverEnds (env : CallEnv w) (timeout : Nat) : Prop :=
  env.usingInterrupt = true ∧ timeout = 0 ∧ env.ack = none ∧ env.signal = none

theorem waitEventInterruptible_spec (env : CallEnv w) :
    (env.waitEventInterruptible = none ∧ env.ack = none ∧ env.signal = none) ∨
    (env.waitEventInterruptible = some 0 ∧
      ∃ a, env.ack = some a ∧ ∀ g, env.signal = some g → a ≤ g) ∨
    (env.waitEventInterruptible = some (-ERESTARTSYS) ∧
      ∃ g, env.signal = some g ∧ ∀ a, env.ack = some a → g < a) := by
  rw [waitEventInterruptible]
  cases hack : env.ack with
  | none =>
    cases hsig : env.signal with
    | none => simp
    | some g => simp
  | some a =>
    cases hsig : env.signal with
    | none => simp
    | some g =>
      by_cases hle : a ≤ g
      · simp [hle]
      · simp only [hle, if_false]
        right
        right
        refine ⟨trivial, g, rfl, fun b hb => ?_⟩
        cases hb
        omega

theorem waitEventInterruptibleTimeout_spec (env : CallEnv w) (timeout : Nat) :
    (0 < env.waitEventInterruptibleTimeout timeout ∧
      ∃ a, env.ack = some a ∧ a < timeout ∧ ∀ g, env.signal = some g → a ≤ g) ∨
    (env.waitEventInterruptibleTimeout timeout = -ERESTARTSYS ∧
      ∃ g, env.signal = some g ∧ g < timeout ∧ ∀ a, env.ack = some a → g < a) ∨
    (env.waitEventInterruptibleTimeout timeout = 0 ∧
      (∀ a, env.ack = some a → timeout ≤ a) ∧
      ∀ g, env.signal = some g → timeout ≤ g) := by
  rw [waitEventInterruptibleTimeout]
  cases hack : env.ack with
  | none =>
    cases hsig : env.signal with
    | none => simp
    | some g => by_cases hg : g < timeout <;> simp [hg, Option.filter]; omega
  | some a =>
    cases hsig : env.signal with
    | none => by_cases ha : a < timeout <;> simp [ha, Option.filter]; omega
    | some g =>
      by_cases ha : a < timeout <;> by_cases hg : g < timeout <;> by_cases hle : a ≤ g <;>
        simp [ha, hg, hle, Option.filter] <;> omega

theorem ackInTime_interrupt (hint : env.usingInterrupt = true) :
    env.AckInTime timeout ↔ ∃ a, env.ack = some a ∧ (timeout = 0 ∨ a < timeout) ∧
      ∀ g, env.signal = some g → a ≤ g := by
  rw [AckInTime, if_pos hint]

theorem waitResponse_polled (hint : env.usingInterrupt = false) :
    env.waitResponse timeout = some (env.acq200PollResponse timeout) := by
  simp [waitResponse, hint]

theorem waitResponse_forever (hint : env.usingInterrupt = true) :
    env.waitResponse 0 = env.waitEventInterruptible := by
  rw [waitResponse, if_pos hint]
  exact if_pos rfl

theorem waitResponse_timed (hint : env.usingInterrupt = true) (hto : timeout ≠ 0) :
    env.waitResponse timeout =
      if env.waitEventInterruptibleTimeout timeout = 0 then some (-ETIMEDOUT)
      else if env.waitEventInterruptibleTimeout timeout > 0 then some 0
      else some (env.waitEventInterruptibleTimeout timeout) := by
  rw [waitResponse, if_pos hint]
  exact if_neg hto

/-- How the wait of a call ends: with the acknowledge, with a timeout, with
a signal, or not at all. -/
theorem waitResponse_spec (env : CallEnv w) (timeout : Nat) :
    (env.waitResponse timeout = some 0 ∧ env.AckInTime timeout) ∨
    ((env.waitResponse timeout = some (-ETIMEDOUT) ∨
        env.waitResponse timeout = some (-ERESTARTSYS) ∧ env.signal ≠ none) ∧
      ¬ env.AckInTime timeout ∧ ¬ env.NeverEnds timeout) ∨
    (env.waitResponse timeout = none ∧ env.NeverEnds timeout) := by
  cases hint : env.usingInterrupt with
  | false =>
    have hsees : env.AckInTime timeout ↔ env.PollSees timeout := by
      simp [AckInTime, hint]
    rw [waitResponse_polled hint, hsees, ← acq200PollResponse_eq_zero]
    have hends : ¬ env.NeverEnds timeout := by
      simp [NeverEnds, hint]
    rcases pollFrom_cases env timeout BIGTIME 0 with h | h
    · exact Or.inl ⟨congrArg some h, h⟩
    · refine Or.inr (Or.inl ⟨Or.inl (congrArg some h), ?_, hends⟩)
      rw [acq200PollResponse, h]
      decide
  | true =>
    rw [ackInTime_interrupt hint]
    by_cases hto : timeout = 0
    · rw [hto, waitResponse_forever hint]
      rcases waitEventInterruptible_spec env with ⟨h, hack, hsig⟩ | ⟨h, a, hack, hsig⟩ |
        ⟨h, g, hsig, hack⟩
      · exact Or.inr (Or.inr ⟨h, hint, rfl, hack, hsig⟩)
      · exact Or.inl ⟨h, a, hack, Or.inl rfl, hsig⟩
      · have hsome : env.signal ≠ none := by simp [hsig]
        refine Or.inr (Or.inl ⟨Or.inr ⟨h, hsome⟩, ?_, fun hnever => hsome hnever.2.2.2⟩)
        rintro ⟨a, ha, -, hle⟩
        have := hack a ha
        have := hle g hsig
        omega
    · rw [waitResponse_timed hint hto]
      have hends : ¬ env.NeverEnds timeout := fun hnever => hto hnever.2.1
      rcases env.waitEventInterruptibleTimeout_spec timeout with
        ⟨h, a, hack, hlt, hsig⟩ | ⟨h, g, hsig, hlt, hack⟩ | ⟨h, hack, hsig⟩
      · refine Or.inl ⟨?_, a, hack, Or.inr hlt, hsig⟩
        rw [if_neg (by omega), if_pos h]
      · refine Or.inr (Or.inl ⟨Or.inr ⟨?_, by simp [hsig]⟩, ?_, hends⟩)
        · rw [h]
          decide
        · rintro ⟨a, ha, -, hle⟩
          have := hack a ha
          have := hle g hsig
          omega
      · refine Or.inr (Or.inl ⟨Or.inl (if_pos h), ?_, hends⟩)
        rintro ⟨a, ha, hin, -⟩
        have := hack a ha
        omega

/-! ## The clock of the polls -/

/-- How the polls of a call lie on the clock.  No round of the loop takes
more than `slack` ticks, and the clock passes the deadline in fewer than
`BIGTIME` polls. -/
structure PollTiming (env : CallEnv w) (timeout slack : Nat) : Prop where
  word : 32 ≤ w
  pos : 1 ≤ slack
  small : slack < 2 ^ 30
  read_le_test : ∀ k, env.readAt k ≤ env.testAt k
  test_le_read : ∀ k, env.testAt k ≤ env.readAt (k + 1)
  first : env.testAt 0 ≤ slack
  round : ∀ k, env.testAt (k + 1) ≤ env.testAt k + slack
  few : ∃ k < BIGTIME, timeout < env.testAt k

/-- `time_after` compares ticks as long as they are close together. -/
theorem timeAfter_ticks (hw : 32 ≤ w) (j : BitVec w) {a b : Nat}
    (ha : a < 2 ^ 31) (hb : b < 2 ^ 31) :
    timeAfter (j + BitVec.ofNat w a) (j + BitVec.ofNat w b) = decide (b < a) := by
  have hsub : j + BitVec.ofNat w b - (j + BitVec.ofNat w a) =
      BitVec.ofNat w b - BitVec.ofNat w a := by
    rw [BitVec.sub_eq_iff_eq_add, BitVec.add_comm j (BitVec.ofNat w a),
      ← BitVec.add_assoc, BitVec.sub_add_cancel, BitVec.add_comm]
  have hhalf : 2 ^ w = 2 * 2 ^ (w - 1) := by
    rw [← Nat.pow_succ', Nat.succ_eq_add_one, Nat.sub_add_cancel (by omega)]
  have hlarge : 2 ^ 31 ≤ 2 ^ (w - 1) := Nat.pow_le_pow_right (by decide) (by omega)
  have hamod : a % 2 ^ w = a := Nat.mod_eq_of_lt (by omega)
  have hbmod : b % 2 ^ w = b := Nat.mod_eq_of_lt (by omega)
  rw [timeAfter, hsub, BitVec.msb_eq_decide, BitVec.toNat_sub, BitVec.toNat_ofNat,
    BitVec.toNat_ofNat, hamod, hbmod, decide_eq_decide]
  by_cases hlt : b < a
  · rw [Nat.mod_eq_of_lt (by omega)]
    omega
  · have hwrap : 2 ^ w - a + b = 2 ^ w + (b - a) := by omega
    rw [hwrap, Nat.add_mod_left, Nat.mod_eq_of_lt (by omega)]
    omega

section Polls

variable {slack : Nat} (ht : env.PollTiming timeout slack)

include ht

/-- The loop ends at the latest with the first poll that looks at the clock
after the deadline. -/
theorem PollTiming.lastPoll :
    ∃ last < BIGTIME, timeout < env.testAt last ∧
      env.testAt last ≤ timeout + slack ∧ ∀ j < last, env.testAt j ≤ timeout := by
  classical
  let last := Nat.find ht.few
  have hlast : last < BIGTIME ∧ timeout < env.testAt last := Nat.find_spec ht.few
  have hbefore : ∀ j < last, env.testAt j ≤ timeout := by
    intro j hj
    have hnot := Nat.find_min ht.few hj
    by_contra hlt
    exact hnot ⟨by omega, by omega⟩
  refine ⟨last, hlast.1, hlast.2, ?_, hbefore⟩
  cases hk : last with
  | zero =>
    have := ht.first
    omega
  | succ k =>
    have := ht.round k
    have := hbefore k (by omega)
    omega

theorem PollTiming.readAt_mono {j k : Nat} (h : j ≤ k) : env.readAt j ≤ env.readAt k := by
  induction h with
  | refl => exact Nat.le_refl _
  | step h ih =>
    rename_i m
    show env.readAt j ≤ env.readAt (m + 1)
    have := ht.read_le_test m
    have := ht.test_le_read m
    omega

theorem PollTiming.expired_eq (hto : timeout < 2 ^ 16) {k : Nat}
    (h : env.testAt k ≤ timeout + slack) :
    env.expired timeout k = decide (timeout < env.testAt k) := by
  have := ht.small
  exact timeAfter_ticks ht.word env.jiffies (by omega) (by omega)

/-- The polls see the acknowledge exactly when the last one of them does. -/
theorem PollTiming.pollSees_iff (hto : timeout < 2 ^ 16) {last : Nat}
    (hbig : last < BIGTIME) (hlt : timeout < env.testAt last)
    (hle : env.testAt last ≤ timeout + slack) (hbefore : ∀ j < last, env.testAt j ≤ timeout) :
    env.PollSees timeout ↔ ∃ a, env.ack = some a ∧ a ≤ env.readAt last := by
  have hacked : ∀ tick, env.acked tick = true ↔ ∃ a, env.ack = some a ∧ a ≤ tick := by
    intro tick
    simp [acked, Option.any_eq_true]
  constructor
  · rintro ⟨k, hk, hseen, hopen⟩
    have hklast : k ≤ last := by
      by_contra hgt
      have hexp := hopen last (by omega)
      rw [ht.expired_eq hto hle] at hexp
      exact absurd hlt (of_decide_eq_false hexp)
    obtain ⟨a, ha, hread⟩ := (hacked _).mp hseen
    exact ⟨a, ha, Nat.le_trans hread (ht.readAt_mono hklast)⟩
  · intro h
    refine ⟨last, hbig, (hacked _).mpr h, fun j hj => ?_⟩
    have := hbefore j hj
    rw [ht.expired_eq hto (by omega)]
    exact decide_eq_false (by omega)

/-- An acknowledge that comes a round before the deadline is seen. -/
theorem PollTiming.pollSees_of_before (hto : timeout < 2 ^ 16) {a : Nat}
    (hack : env.ack = some a) (ha : a + slack ≤ timeout) : env.PollSees timeout := by
  obtain ⟨last, hbig, hlt, hle, hbefore⟩ := ht.lastPoll
  rw [ht.pollSees_iff hto hbig hlt hle hbefore]
  refine ⟨a, hack, ?_⟩
  cases last with
  | zero =>
    have := ht.first
    omega
  | succ k =>
    have := ht.round k
    have := ht.test_le_read k
    omega

/-- No poll sees an acknowledge that comes a round after the deadline, or
none at all. -/
theorem PollTiming.not_pollSees_of_after (hto : timeout < 2 ^ 16)
    (hack : ∀ a, env.ack = some a → timeout + slack < a) : ¬ env.PollSees timeout := by
  obtain ⟨last, hbig, hlt, hle, hbefore⟩ := ht.lastPoll
  rw [ht.pollSees_iff hto hbig hlt hle hbefore]
  rintro ⟨a, ha, hread⟩
  have := hack a ha
  have := ht.read_le_test last
  omega

end Polls

/-! ## The two waits compared -/

/-- The same call with interrupts or without.  It gets the mutex, and no
signal comes. -/
def via (env : CallEnv w) (usingInterrupt : Bool) : CallEnv w :=
  { env with locked := true, usingInterrupt := usingInterrupt, signal := none }

/-- What `acq200_ioctl_wbr_mbox` returns. -/
def returns (env : CallEnv w) (mbc : MailboxControl) : Option Int :=
  (ioctlWbrMbox env mbc).map (·.rc)

theorem returns_of_locked (hlock : env.locked = true) (mbc : MailboxControl) :
    env.returns mbc = env.waitResponse (timeoutOf mbc) := by
  rw [returns, ioctlWbrMbox, if_pos hlock, Option.map_map]
  exact Option.map_id'

/-- Both waits return the same, up to `slack` ticks at the deadline.  A
wait without deadline never times out. -/
structure WaitsAgree (env : CallEnv w) (slack : Nat) (mbc : MailboxControl) : Prop where
  before : timeoutOf mbc ≠ 0 → ∀ a, env.ack = some a → a + slack ≤ timeoutOf mbc →
    ∀ usingInterrupt, (env.via usingInterrupt).returns mbc = some 0
  after : timeoutOf mbc ≠ 0 → (∀ a, env.ack = some a → timeoutOf mbc + slack < a) →
    ∀ usingInterrupt, (env.via usingInterrupt).returns mbc = some (-ETIMEDOUT)
  forever : timeoutOf mbc = 0 → ∀ usingInterrupt,
    (env.via usingInterrupt).returns mbc ≠ some (-ETIMEDOUT) ∧
    ((env.via usingInterrupt).returns mbc = some 0 ↔ env.ack ≠ none)

/-- A poll reads the acknowledge before any poll has seen the clock move. -/
def EarlyAck (env : CallEnv w) : Prop :=
  ∃ a k, env.ack = some a ∧ a ≤ env.readAt k ∧ ∀ j < k, env.testAt j = 0

theorem waitResponse_eq_zero : env.waitResponse timeout = some 0 ↔ env.AckInTime timeout := by
  rcases env.waitResponse_spec timeout with ⟨h, hack⟩ | ⟨h, hack, -⟩ | ⟨h, hnever⟩
  · exact iff_of_true h hack
  · refine iff_of_false ?_ hack
    rcases h with h | h
    · rw [h]
      decide
    · rw [h.1]
      decide
  · refine iff_of_false (by simp [h]) fun hack => ?_
    obtain ⟨a, ha, -⟩ := (ackInTime_interrupt hnever.1).mp hack
    rw [hnever.2.2.1] at ha
    cases ha

theorem waitResponse_eq_timeout (hsig : env.signal = none) :
    env.waitResponse timeout = some (-ETIMEDOUT) ↔
      ¬ env.AckInTime timeout ∧ ¬ env.NeverEnds timeout := by
  rcases env.waitResponse_spec timeout with ⟨h, hack⟩ | ⟨h, hack⟩ | ⟨h, hnever⟩
  · refine iff_of_false ?_ fun hnot => hnot.1 hack
    rw [h]
    decide
  · rcases h with h | h
    · exact iff_of_true h hack
    · exact absurd hsig h.2
  · exact iff_of_false (by simp [h]) fun hnot => hnot.2 hnever

theorem timeoutOf_lt (mbc : MailboxControl) : timeoutOf mbc < 2 ^ 16 := by
  rw [timeoutOf, BitVec.toNat_and]
  exact Nat.and_lt_two_pow _ (by decide)

theorem ackInTime_via_interrupt :
    (env.via true).AckInTime timeout ↔
      ∃ a, env.ack = some a ∧ (timeout = 0 ∨ a < timeout) := by
  rw [ackInTime_interrupt rfl]
  simp [via]

theorem ackInTime_via_polled :
    (env.via false).AckInTime timeout ↔ env.PollSees timeout := Iff.rfl

/-- With no deadline the polls are over as soon as the clock moves. -/
theorem PollTiming.pollSees_forever {slack : Nat} (ht : env.PollTiming 0 slack) :
    env.PollSees 0 ↔ env.EarlyAck := by
  obtain ⟨last, hbig, hlt, hle, hbefore⟩ := ht.lastPoll
  rw [ht.pollSees_iff (by decide) hbig hlt hle hbefore]
  constructor
  · rintro ⟨a, ha, hread⟩
    exact ⟨a, last, ha, hread, fun j hj => Nat.le_zero.mp (hbefore j hj)⟩
  · rintro ⟨a, k, ha, hread, hzero⟩
    have hklast : k ≤ last := by
      by_contra hgt
      have := hzero last (by omega)
      omega
    exact ⟨a, ha, Nat.le_trans hread (ht.readAt_mono hklast)⟩

/-- The waits agree exactly when there is a deadline, or the acknowledge
comes before the clock moves. -/
theorem waits_agree_iff (env : CallEnv w) (mbc : MailboxControl) (slack : Nat)
    (ht : env.PollTiming (timeoutOf mbc) slack) :
    env.WaitsAgree slack mbc ↔ timeoutOf mbc ≠ 0 ∨ env.EarlyAck := by
  have hto := timeoutOf_lt mbc
  have hreturns : ∀ usingInterrupt, (env.via usingInterrupt).returns mbc =
      (env.via usingInterrupt).waitResponse (timeoutOf mbc) :=
    fun _ => returns_of_locked rfl mbc
  constructor
  · intro h
    by_cases hzero : timeoutOf mbc = 0
    · right
      have hpoll := (h.forever hzero false).1
      rw [hreturns, hzero] at hpoll
      rw [hzero] at ht
      rw [← ht.pollSees_forever]
      by_contra hsees
      apply hpoll
      rw [waitResponse_eq_timeout rfl, ackInTime_via_polled]
      exact ⟨hsees, fun hnever => Bool.false_ne_true hnever.1⟩
    · exact Or.inl hzero
  · intro h
    refine ⟨fun hne a hack hle usingInterrupt => ?_, fun hne hack usingInterrupt => ?_,
      fun hzero usingInterrupt => ?_⟩
    · rw [hreturns, waitResponse_eq_zero]
      cases usingInterrupt with
      | false => exact ht.pollSees_of_before hto hack hle
      | true =>
        rw [ackInTime_via_interrupt]
        have := ht.pos
        exact ⟨a, hack, Or.inr (by omega)⟩
    · rw [hreturns, waitResponse_eq_timeout rfl]
      refine ⟨?_, fun hnever => hne hnever.2.1⟩
      cases usingInterrupt with
      | false => exact ht.not_pollSees_of_after hto hack
      | true =>
        rw [ackInTime_via_interrupt]
        rintro ⟨a, ha, hin⟩
        have := hack a ha
        omega
    · rw [hzero] at ht h hreturns
      have hearly : env.EarlyAck := h.resolve_left fun hne => hne rfl
      have hsome : ∃ a, env.ack = some a := hearly.imp fun a ⟨_, hack, _⟩ => hack
      obtain ⟨a, hack⟩ := hsome
      have hack' : (env.via usingInterrupt).AckInTime 0 := by
        cases usingInterrupt with
        | false => exact ht.pollSees_forever.mpr hearly
        | true => exact ackInTime_via_interrupt.mpr ⟨a, hack, Or.inl rfl⟩
      have hok : (env.via usingInterrupt).returns mbc = some 0 := by
        rw [hreturns, waitResponse_eq_zero]
        exact hack'
      refine ⟨?_, iff_of_true hok (by simp [hack])⟩
      rw [hok]
      decide

/-- A call on a 32-bit host whose polls come once a tick. -/
def steady (usingInterrupt : Bool) (ack : Option Nat) : CallEnv 32 where
  locked := true
  usingInterrupt := usingInterrupt
  ack := ack
  signal := none
  jiffies := 0xffffff00#32
  readAt := id
  testAt := id
  regs := fun _ => 0#32

/-- A block that writes and reads the COMMAND mailbox with this timeout. -/
def timedBlock (timeout : BitVec 16) : MailboxControl where
  mbcFlags := timeout.setWidth 32 ||| 0x00110000#32
  mbxw := fun _ => 0#32
  mbxr := fun _ => 0#32

theorem steady_timing (usingInterrupt : Bool) (ack : Option Nat) (mbc : MailboxControl) :
    (steady usingInterrupt ack).PollTiming (timeoutOf mbc) 1 where
  word := Nat.le_refl 32
  pos := Nat.le_refl 1
  small := by decide
  read_le_test := fun k => Nat.le_refl k
  test_le_read := fun k => Nat.le_succ k
  first := Nat.zero_le 1
  round := fun k => Nat.le_refl (k + 1)
  few := ⟨2 ^ 16, by decide, timeoutOf_lt mbc⟩

/-- An acknowledge after 7 ticks and a timeout of 100. -/
theorem timed_waits_agree : (steady true (some 7)).WaitsAgree 1 (timedBlock 100#16) :=
  (waits_agree_iff _ _ 1 (steady_timing _ _ _)).mpr (Or.inl (by decide))

/-- With no deadline and an acknowledge after 50 ticks, the polled wait
gives up when the clock moves. -/
theorem polled_forever_times_out :
    ¬ (steady false (some 50)).WaitsAgree 1 (timedBlock 0#16) := by
  intro h
  exact (h.forever (by decide) false).1 (by decide)

end CallEnv

/-! ## What the caller of the ioctl is told -/

/-- An ioctl returns what the call returned: 0 only if the acknowledge was
seen within the timeout, and otherwise that the time was up or that the
call was interrupted. -/
structure ReportsCall {w : Nat} (env : CallEnv w) (mbc : MailboxControl)
    (ioctl : Option IoctlResult) : Prop where
  same : ioctl.map (·.rc) = (ioctlWbrMbox env mbc).map (·.rc)
  success : ioctl.map (·.rc) = some 0 →
    env.locked = true ∧ env.AckInTime (timeoutOf mbc)
  failure : ∀ rc, ioctl.map (·.rc) = some rc →
    ¬ (env.locked = true ∧ env.AckInTime (timeoutOf mbc)) →
    rc = -ETIMEDOUT ∨ rc = -ERESTARTSYS

theorem ioctl_iowr_rc {w : Nat} (env : CallEnv w) (mbcOnRelease : MailboxControl)
    {mbc : MailboxControl} (hflag : mbc.mbcFlags &&& MBC_FLAGS_ONRELEASE = 0#32) :
    (acq200Ioctl env ⟨0, 0⟩ mbcOnRelease .iowr mbc).map (·.rc) =
      (env.returns mbc).map fun _ => 0 := by
  simp [acq200Ioctl, mboxIoctl, hflag, CallEnv.returns, Function.comp_def]

/-- How a call ends, with the mutex taken into account. -/
theorem returns_spec {w : Nat} (env : CallEnv w) (mbc : MailboxControl) :
    (env.returns mbc = some 0 ∧ env.locked = true ∧ env.AckInTime (timeoutOf mbc)) ∨
    ((env.returns mbc = some (-ETIMEDOUT) ∨ env.returns mbc = some (-ERESTARTSYS)) ∧
      ¬ (env.locked = true ∧
        (env.AckInTime (timeoutOf mbc) ∨ env.NeverEnds (timeoutOf mbc)))) ∨
    (env.returns mbc = none ∧ env.locked = true ∧ env.NeverEnds (timeoutOf mbc)) := by
  by_cases hlock : env.locked = true
  · rw [CallEnv.returns_of_locked hlock]
    rcases env.waitResponse_spec (timeoutOf mbc) with
      ⟨h, hack⟩ | ⟨h, hack, hnever⟩ | ⟨h, hnever⟩
    · exact Or.inl ⟨h, hlock, hack⟩
    · refine Or.inr (Or.inl ⟨h.imp_right And.left, fun hend => ?_⟩)
      exact hend.2.elim hack hnever
    · exact Or.inr (Or.inr ⟨h, hlock, hnever⟩)
  · have hsignal : env.returns mbc = some (-ERESTARTSYS) := by
      rw [CallEnv.returns, ioctlWbrMbox, if_neg hlock]
      rfl
    exact Or.inr (Or.inl ⟨Or.inr hsignal, fun hend => hlock hend.1⟩)

/-- The ioctl reports the call exactly when there is no failure to report:
the call got the mutex, and the acknowledge came in time or the wait never
ends. -/
theorem mbox_ioctl_reports_iff {w : Nat} (env : CallEnv w)
    (mbcOnRelease mbc : MailboxControl)
    (hflag : mbc.mbcFlags &&& MBC_FLAGS_ONRELEASE = 0#32) :
    ReportsCall env mbc (acq200Ioctl env ⟨0, 0⟩ mbcOnRelease .iowr mbc) ↔
      env.locked = true ∧
        (env.AckInTime (timeoutOf mbc) ∨ env.NeverEnds (timeoutOf mbc)) := by
  have hrc := ioctl_iowr_rc env mbcOnRelease hflag
  rcases returns_spec env mbc with ⟨h, hlock, hack⟩ | ⟨h, hnot⟩ | ⟨h, hlock, hnever⟩
  · refine iff_of_true ⟨?_, fun _ => ⟨hlock, hack⟩, fun rc _ hnot => ?_⟩ ⟨hlock, Or.inl hack⟩
    · rw [hrc, h]
      exact h.symm
    · exact absurd ⟨hlock, hack⟩ hnot
  · refine iff_of_false (fun hreports => ?_) hnot
    have hsame := hreports.same
    change _ = env.returns mbc at hsame
    rw [hrc] at hsame
    rcases h with h | h
    · rw [h] at hsame
      cases hsame
    · rw [h] at hsame
      cases hsame
  · refine iff_of_true ⟨?_, fun hzero => ?_, fun rc hsome => ?_⟩ ⟨hlock, Or.inr hnever⟩
    · rw [hrc, h]
      exact h.symm
    · rw [hrc, h] at hzero
      cases hzero
    · rw [hrc, h] at hsome
      cases hsome

/-- A call that is acknowledged at once is reported. -/
theorem acknowledged_ioctl_reports :
    ReportsCall (CallEnv.steady false (some 0)) (CallEnv.timedBlock 1#16)
      (acq200Ioctl (CallEnv.steady false (some 0)) ⟨0, 0⟩ (CallEnv.timedBlock 0#16) .iowr
        (CallEnv.timedBlock 1#16)) := by
  refine (mbox_ioctl_reports_iff _ _ _ (by decide)).mpr ⟨rfl, Or.inl ?_⟩
  exact ⟨0, by decide, by decide, fun j hj => absurd hj (Nat.not_lt_zero j)⟩

/-- The card never answers.  The call returns `-ETIMEDOUT` and the ioctl
returns 0. -/
theorem timed_out_ioctl_returns_zero :
    ¬ ReportsCall (CallEnv.steady false none) (CallEnv.timedBlock 1#16)
      (acq200Ioctl (CallEnv.steady false none) ⟨0, 0⟩ (CallEnv.timedBlock 0#16) .iowr
        (CallEnv.timedBlock 1#16)) := by
  intro h
  exact absurd h.same (by decide)

end Acq200.Mailbox
