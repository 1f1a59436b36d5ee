import Acq200.Lib.Run
import Acq200.Mailbox.Basic

/-!
# Which response a mailbox call reads

The card reads a COMMAND word that the host wrote and, at any later time,
writes its response with `BP_CI_ACK` set.  A host call that times out
leaves its command with the card.  This module interleaves the calls of
`acq200_ioctl_wbr_mbox`, which `mbox_sync.mutex` serialises, with the
steps of the card, one register access at a time.

Each call has a number, and the card keeps the number of the call whose
command it works on.  These numbers are ghost: neither side can see them,
and the response of an old call looks like any other.  `answer` records
the response the card wrote for a call, `posted` the registers at the
moment a COMMAND word was written, and `returned` what each call returned.

`Paired` is the contract of a transaction.  `NoLateResponse` is the
condition under which `mailbox_paired` proves it: no response of an
earlier call overwrites what the call in progress relies on, and no
doorbell of an earlier call ends its wait.
`late_response_taken` is a run in which a call takes the response of the
call before it.
-/

namespace Acq200.Mailbox

open Acq200.Lib

/-! ## The system -/

/-- What the card writes back.  Parameters 3 and 4 are optional. -/
structure Response where
  command : BitVec 32
  a3 : Option (BitVec 32)
  a4 : Option (BitVec 32)
  deriving DecidableEq

/-- Where `acq200_ioctl_wbr_mbox` stands.  The two loops keep the number of
mailboxes that are still to be visited. -/
inductive Phase where
  | write (todo : Nat)
  | wait
  | read (todo : Nat) (rc : Int)
  deriving DecidableEq

/-- The call that holds `mbox_sync.mutex`. -/
structure Call where
  id : Nat
  mbc : MailboxControl
  phase : Phase

/-- The registers when a COMMAND word was written. -/
structure Posted where
  mbc : MailboxControl
  a3 : BitVec 32
  a4 : BitVec 32

/-- What a call returned. -/
structure Returned where
  id : Nat
  rc : Int
  mbc : MailboxControl

structure State where
  regs : Regs
  usingInterrupt : Bool
  responseReceived : Bool
  call : Option Call
  nextId : Nat
  /-- The call whose COMMAND word the card has not read yet. -/
  unread : Option Nat
  /-- The calls whose command the card is working on. -/
  taken : List Nat
  /-- The card has rung the doorbell and the interrupt is still to come. -/
  doorbell : Bool
  answer : Nat → Option Response
  posted : List Posted
  returned : List Returned

/-- Who makes a call: an ioctl, or `acq200_release` with the control block
that an earlier ioctl left in `mbc_on_release`. -/
inductive Origin where
  | ioctl
  | release
  deriving DecidableEq

inductive Event where
  /-- A call takes the mutex. -/
  | start (origin : Origin) (mbc : MailboxControl)
  /-- The next round of the write loop or the read loop. -/
  | round
  /-- One round of `acq200_poll_response`; `expired` is its time test. -/
  | poll (expired : Bool)
  /-- `wait_event_interruptible` finds `RESPONSE_RECEIVED`. -/
  | wake
  /-- `wait_event_interruptible_timeout` runs out. -/
  | timeout
  | signal
  | cardRead
  | cardRespond (work : Nat) (response : Response)
  /-- The card writes its unsolicited status word. -/
  | cardStatus (status : BitVec 32)
  | doorbellIsr

/-- The control block that a call works on.  `acq200_mbox_ioctl` defers a
block with `MBC_FLAGS_ONRELEASE`, and `acq200_release` clears the flag. -/
def callBlock : Origin → MailboxControl → Option MailboxControl
  | .ioctl, mbc =>
    if mbc.mbcFlags &&& MBC_FLAGS_ONRELEASE ≠ 0#32 then none else some mbc
  | .release, mbc =>
    if mbc.mbcFlags &&& MBC_FLAGS_ONRELEASE ≠ 0#32 then
      some { mbc with mbcFlags := mbc.mbcFlags &&& ~~~MBC_FLAGS_ONRELEASE }
    else none

/-- The card writes its response over the mailboxes. -/
def Response.store (r : Response) (regs : Regs) : Regs :=
  let regs := match r.a3 with
    | none => regs
    | some a3 => Function.update regs BP_MB_A3 a3
  let regs := match r.a4 with
    | none => regs
    | some a4 => Function.update regs BP_MB_A4 a4
  Function.update regs BP_MB_COMMAND (r.command ||| BP_CI_ACK)

/-- The round of the write loop for mailbox `ibox`.  A COMMAND word is what
the card is waiting for. -/
def writeRound (s : State) (c : Call) (ibox : Nat) : State :=
  let next := if ibox = 0 then Phase.wait else Phase.write ibox
  let s := { s with
    regs := writeBox c.mbc ibox s.regs
    call := some { c with phase := next } }
  if ibox = BP_MB_COMMAND ∧ selects (mbcFromMbxw c.mbc) ibox then
    { s with
      unread := some c.id
      posted := s.posted ++ [⟨c.mbc, s.regs BP_MB_A3, s.regs BP_MB_A4⟩] }
  else s

/-- The round of the read loop for mailbox `ibox`.  After the last one the
mutex is released and the call returns `rc`. -/
def readRound (s : State) (c : Call) (ibox : Nat) (rc : Int) : State :=
  let mbc := readBox s.regs ibox c.mbc
  if ibox = 0 then
    { s with call := none, returned := s.returned ++ [⟨c.id, rc, mbc⟩] }
  else { s with call := some { c with mbc := mbc, phase := .read ibox rc } }

/-- The wait of call `c` ends with `rc`. -/
def endWait (s : State) (c : Call) (rc : Int) : State :=
  { s with call := some { c with phase := .read MBOX_NUM rc } }

/-- The steps of the host in the call that holds the mutex. -/
def hostStep (e : Event) (s : State) (c : Call) : Option State :=
  match e, c.phase with
  | .round, .write (ibox + 1) => some (writeRound s c ibox)
  | .round, .read (ibox + 1) rc => some (readRound s c ibox rc)
  | .poll expired, .wait =>
    if s.usingInterrupt then none
    else if s.regs BP_MB_COMMAND &&& BP_CI_ACK ≠ 0#32 then some (endWait s c 0)
    else if expired then some (endWait s c (-ETIMEDOUT))
    else some s
  | .wake, .wait =>
    if s.usingInterrupt ∧ s.responseReceived then some (endWait s c 0) else none
  | .timeout, .wait =>
    if s.usingInterrupt ∧ c.mbc.mbcFlags &&& MBC_FLAGS_TO ≠ MBC_FLAGS_TO_FOREVER
    then some (endWait s c (-ETIMEDOUT)) else none
  | .signal, .wait =>
    if s.usingInterrupt then some (endWait s c (-ERESTARTSYS)) else none
  | _, _ => none

def step (e : Event) (s : State) : Option State :=
  match e with
  | .start origin mbc =>
    match s.call, callBlock origin mbc with
    | none, some mbc =>
      some { s with
        responseReceived := false
        call := some ⟨s.nextId, mbc, .write MBOX_NUM⟩
        nextId := s.nextId + 1 }
    | _, _ => none
  | .cardRead =>
    -- A response that landed on the COMMAND word hides it from the card.
    match s.unread with
    | none => none
    | some id =>
      if s.regs BP_MB_COMMAND &&& BP_CI_ACK ≠ 0#32 then none
      else some { s with unread := none, taken := s.taken ++ [id] }
  | .cardRespond work response =>
    match s.taken[work]? with
    | none => none
    | some id =>
      some { s with
        regs := response.store s.regs
        taken := s.taken.eraseIdx work
        doorbell := true
        answer := Function.update s.answer id (some response) }
  | .cardStatus status =>
    some { s with regs := Function.update s.regs BP_MB_STATUS status }
  | .doorbellIsr =>
    if s.doorbell then some { s with responseReceived := true, doorbell := false }
    else none
  | e => s.call.bind (hostStep e s)

/-- A device with no call made yet and whatever the registers hold. -/
def initial (usingInterrupt : Bool) (regs : Regs) : State :=
  { regs := regs, usingInterrupt := usingInterrupt, responseReceived := false,
    call := none, nextId := 0, unread := none, taken := [], doorbell := false,
    answer := fun _ => none, posted := [], returned := [] }

/-! ## The contract -/

/-- The mailboxes that the call read hold the response `r`. -/
def ReadsResponse (mbc : MailboxControl) (r : Response) : Prop :=
  (selects (mbcFromMbxr mbc) BP_MB_COMMAND = true →
    mbc.mbxr BP_MB_COMMAND = r.command ||| BP_CI_ACK) ∧
  (selects (mbcFromMbxr mbc) BP_MB_A3 = true →
    ∀ a3, r.a3 = some a3 → mbc.mbxr BP_MB_A3 = a3) ∧
  (selects (mbcFromMbxr mbc) BP_MB_A4 = true →
    ∀ a4, r.a4 = some a4 → mbc.mbxr BP_MB_A4 = a4)

/-- A call that returned `0` read the response of the card to its own
command. -/
def OwnResponse (s : State) : Prop :=
  ∀ call ∈ s.returned, call.rc = 0 →
    ∃ r, s.answer call.id = some r ∧ ReadsResponse call.mbc r

/-- Parameters 3 and 4 were those of the call when COMMAND was written. -/
def OwnParameters (s : State) : Prop :=
  ∀ p ∈ s.posted,
    (selects (mbcFromMbxw p.mbc) BP_MB_A3 = true → p.a3 = p.mbc.mbxw BP_MB_A3) ∧
    (selects (mbcFromMbxw p.mbc) BP_MB_A4 = true → p.a4 = p.mbc.mbxw BP_MB_A4)

/-- The contract of a mailbox transaction. -/
def Paired (s : State) : Prop := OwnResponse s ∧ OwnParameters s

/-- Every call writes a COMMAND word with `BP_CI_ACK` clear. -/
def StartsCommand : Event → Prop
  | .start origin mbc =>
    ∀ block ∈ callBlock origin mbc,
      selects (mbcFromMbxw block) BP_MB_COMMAND = true ∧
        block.mbxw BP_MB_COMMAND &&& BP_CI_ACK = 0#32
  | _ => True

/-- The response `r` would overwrite what call `c` relies on: a parameter
that the write loop is done with, or the registers that the call waits for
or reads as its response. -/
def Disturbs (c : Call) (r : Response) : Prop :=
  match c.phase with
  | .write todo =>
    todo ≤ BP_MB_A3 ∧ r.a3.isSome = true ∨ todo ≤ BP_MB_A4 ∧ r.a4.isSome = true
  | .wait => True
  | .read _ rc => rc = 0

/-- The call is still to find out whether the doorbell has rung. -/
def Phase.beforeRead : Phase → Bool
  | .write _ | .wait => true
  | .read _ _ => false

/-- Nothing of an earlier call disturbs the call in progress.  A response
that overwrites what the call relies on is its own, and the doorbell comes
after its response. -/
def NoLateResponse (e : Event) (s : State) : Prop :=
  match e with
  | .cardRespond work r =>
    ∀ c ∈ s.call, Disturbs c r → s.taken[work]? = some c.id
  | .doorbellIsr =>
    s.usingInterrupt = true → ∀ c ∈ s.call, c.phase.beforeRead = true →
      (s.answer c.id).isSome = true
  | _ => True

instance : ∀ e, Decidable (StartsCommand e)
  | .start origin mbc => inferInstanceAs (Decidable
      (∀ block ∈ callBlock origin mbc,
        selects (mbcFromMbxw block) BP_MB_COMMAND = true ∧
          block.mbxw BP_MB_COMMAND &&& BP_CI_ACK = 0#32))
  | .round | .poll _ | .wake | .timeout | .signal | .cardRead
  | .cardRespond _ _ | .cardStatus _ | .doorbellIsr =>
    inferInstanceAs (Decidable True)

instance : ∀ c r, Decidable (Disturbs c r)
  | ⟨_, _, .write todo⟩, r => inferInstanceAs (Decidable
      (todo ≤ BP_MB_A3 ∧ r.a3.isSome = true ∨
        todo ≤ BP_MB_A4 ∧ r.a4.isSome = true))
  | ⟨_, _, .wait⟩, _ => inferInstanceAs (Decidable True)
  | ⟨_, _, .read _ rc⟩, _ => inferInstanceAs (Decidable (rc = 0))

instance : ∀ e s, Decidable (NoLateResponse e s)
  | .cardRespond work r, s => inferInstanceAs (Decidable
      (∀ c ∈ s.call, Disturbs c r → s.taken[work]? = some c.id))
  | .doorbellIsr, s => inferInstanceAs (Decidable
      (s.usingInterrupt = true → ∀ c ∈ s.call, c.phase.beforeRead = true →
        (s.answer c.id).isSome = true))
  | .start _ _, _ | .round, _ | .poll _, _ | .wake, _ | .timeout, _ | .signal, _
  | .cardRead, _ | .cardStatus _, _ => inferInstanceAs (Decidable True)

/-! ## The invariant -/

/-- The registers hold the response `r`. -/
def HoldsResponse (regs : Regs) (r : Response) : Prop :=
  regs BP_MB_COMMAND = r.command ||| BP_CI_ACK ∧
  (∀ a3, r.a3 = some a3 → regs BP_MB_A3 = a3) ∧
  (∀ a4, r.a4 = some a4 → regs BP_MB_A4 = a4)

/-- The card is done with call `id`. -/
def Finished (s : State) (id : Nat) : Prop :=
  id ∉ s.taken ∧ s.unread ≠ some id

/-- The card answered call `id`, and the registers still hold the answer. -/
def Answered (s : State) (id : Nat) : Prop :=
  ∃ r, s.answer id = some r ∧ HoldsResponse s.regs r ∧ Finished s id

/-- What is known of the call in progress, phase by phase. -/
def CallInv (s : State) (c : Call) : Prop :=
  match c.phase with
  | .write todo =>
    0 < todo ∧ Finished s c.id ∧ s.answer c.id = none ∧
      (s.usingInterrupt = true → s.responseReceived = false) ∧
      selects (mbcFromMbxw c.mbc) BP_MB_COMMAND = true ∧
      c.mbc.mbxw BP_MB_COMMAND &&& BP_CI_ACK = 0#32 ∧
      ∀ ibox, todo ≤ ibox → ibox < BP_MB_STATUS →
        selects (mbcFromMbxw c.mbc) ibox = true → s.regs ibox = c.mbc.mbxw ibox
  | .wait =>
    s.answer c.id = none ∧
        (s.usingInterrupt = true → s.responseReceived = false) ∧
        s.regs BP_MB_COMMAND &&& BP_CI_ACK = 0#32 ∨
      Answered s c.id
  | .read todo rc =>
    rc = 0 → Answered s c.id ∧
      ∀ ibox, todo ≤ ibox → ibox < BP_MB_STATUS →
        selects (mbcFromMbxr c.mbc) ibox = true → c.mbc.mbxr ibox = s.regs ibox

/-- A call that returned `0` is settled: the card will not answer it again,
and it is not the call in progress. -/
def ReturnInv (s : State) (call : Returned) : Prop :=
  call.rc = 0 → ∃ r, s.answer call.id = some r ∧ ReadsResponse call.mbc r ∧
    Finished s call.id ∧ ∀ c ∈ s.call, c.id ≠ call.id

structure PairInv (s : State) : Prop where
  unread_lt : ∀ id ∈ s.unread, id < s.nextId ∧ id ∉ s.taken
  taken_lt : ∀ id ∈ s.taken, id < s.nextId
  taken_nodup : s.taken.Nodup
  answer_lt : ∀ id, (s.answer id).isSome = true → id < s.nextId
  call_lt : ∀ c ∈ s.call, c.id < s.nextId
  call_inv : ∀ c ∈ s.call, CallInv s c
  returned_lt : ∀ call ∈ s.returned, call.id < s.nextId
  returned_inv : ∀ call ∈ s.returned, ReturnInv s call
  parameters : OwnParameters s

theorem pairInv_initial (usingInterrupt : Bool) (regs : Regs) :
    PairInv (initial usingInterrupt regs) where
  unread_lt := fun _ h => by cases h
  taken_lt := fun _ h => by cases h
  taken_nodup := List.nodup_nil
  answer_lt := fun _ h => by cases h
  call_lt := fun _ h => by cases h
  call_inv := fun _ h => by cases h
  returned_lt := fun _ h => by cases h
  returned_inv := fun _ h => by cases h
  parameters := fun _ h => by cases h

theorem holdsResponse_store (r : Response) (regs : Regs) :
    HoldsResponse (r.store regs) r := by
  refine ⟨rfl, ?_, ?_⟩
  · intro a3 h3
    rw [Response.store, h3]
    cases r.a4 <;> rfl
  · intro a4 h4
    rw [Response.store, h4]
    rfl

/-- A response leaves a parameter that it does not have. -/
theorem store_of_none {r : Response} {regs : Regs} {ibox : Nat}
    (hpos : 0 < ibox) (hlt : ibox < BP_MB_STATUS)
    (h3 : ibox = BP_MB_A3 → r.a3 = none) (h4 : ibox = BP_MB_A4 → r.a4 = none) :
    r.store regs ibox = regs ibox := by
  have hlt : ibox < 3 := hlt
  obtain rfl | rfl : ibox = 1 ∨ ibox = 2 := by omega
  · rw [Response.store, h3 rfl]
    cases r.a4 <;> rfl
  · rw [Response.store, h4 rfl]
    cases r.a3 <;> rfl

/-! ## The steps of the card -/

section Card

variable {s : State}

/-- A step of the card that only changes what other calls see. -/
theorem Finished.of_taken_append {id work : Nat} (hwork : s.unread = some work)
    (h : Finished s id) :
    Finished { s with unread := none, taken := s.taken ++ [work] } id := by
  refine ⟨?_, fun hu => by cases hu⟩
  intro hmem
  rcases List.mem_append.mp hmem with hmem | hmem
  · exact h.1 hmem
  · rw [List.mem_singleton.mp hmem] at h
    exact h.2 hwork

theorem pairInv_cardRead {id : Nat} (h : PairInv s) (hid : s.unread = some id) :
    PairInv { s with unread := none, taken := s.taken ++ [id] } where
  unread_lt := fun _ hu => by cases hu
  taken_lt := by
    intro other hmem
    rcases List.mem_append.mp hmem with hmem | hmem
    · exact h.taken_lt other hmem
    · rw [List.mem_singleton.mp hmem]
      exact (h.unread_lt id hid).1
  taken_nodup := by
    refine List.nodup_append.mpr ⟨h.taken_nodup, List.pairwise_singleton _ _, ?_⟩
    intro a ha b hb hab
    rw [List.mem_singleton.mp hb] at hab
    exact (h.unread_lt id hid).2 (hab ▸ ha)
  answer_lt := h.answer_lt
  call_lt := h.call_lt
  call_inv := by
    intro c hc
    have hinv := h.call_inv c hc
    rw [CallInv] at hinv ⊢
    cases hp : c.phase with
    | write todo =>
      rw [hp] at hinv
      exact ⟨hinv.1, hinv.2.1.of_taken_append hid, hinv.2.2⟩
    | wait =>
      rw [hp] at hinv
      rcases hinv with hnone | ⟨r, hr, hregs, hfin⟩
      · exact Or.inl hnone
      · exact Or.inr ⟨r, hr, hregs, hfin.of_taken_append hid⟩
    | read todo rc =>
      rw [hp] at hinv
      intro hrc
      obtain ⟨⟨r, hr, hregs, hfin⟩, hread⟩ := hinv hrc
      exact ⟨⟨r, hr, hregs, hfin.of_taken_append hid⟩, hread⟩
  returned_lt := h.returned_lt
  returned_inv := by
    intro call hcall hrc
    obtain ⟨r, hr, hread, hfin, hne⟩ := h.returned_inv call hcall hrc
    exact ⟨r, hr, hread, hfin.of_taken_append hid, hne⟩
  parameters := h.parameters

/-- A call that the card has finished stays finished when the card responds
to another call. -/
theorem Finished.of_taken_eraseIdx {id work : Nat} (h : Finished s id) :
    Finished { s with taken := s.taken.eraseIdx work } id :=
  ⟨fun hmem => h.1 (List.mem_of_mem_eraseIdx hmem), h.2⟩

/-- The card responds to call `id`. -/
theorem pairInv_cardRespond {work id : Nat} (h : PairInv s)
    (hid : s.taken[work]? = some id) {r : Response}
    (hlate : ∀ c ∈ s.call, Disturbs c r → c.id = id) :
    PairInv { s with
      regs := r.store s.regs
      taken := s.taken.eraseIdx work
      doorbell := true
      answer := Function.update s.answer id (some r) } := by
  have hmem : id ∈ s.taken := List.mem_of_getElem? hid
  have hgone : id ∉ s.taken.eraseIdx work := by
    rw [List.mem_eraseIdx_iff_getElem?]
    rintro ⟨other, hne, hother⟩
    obtain ⟨hlt, -⟩ := List.getElem?_eq_some_iff.mp hother
    have hsame := hother.trans hid.symm
    exact hne ((List.getElem?_inj hlt h.taken_nodup).mp hsame)
  have hunread : s.unread ≠ some id := fun hu => (h.unread_lt id hu).2 hmem
  refine ⟨?_, ?_, ?_, ?_, h.call_lt, ?_, h.returned_lt, ?_, h.parameters⟩
  · intro other hother
    have hold := h.unread_lt other hother
    exact ⟨hold.1, fun hm => hold.2 (List.mem_of_mem_eraseIdx hm)⟩
  · intro other hother
    exact h.taken_lt other (List.mem_of_mem_eraseIdx hother)
  · exact h.taken_nodup.eraseIdx work
  · intro other hother
    by_cases heq : other = id
    · rw [heq]
      exact h.taken_lt id hmem
    · exact h.answer_lt other ((Function.update_of_ne heq _ s.answer) ▸ hother)
  · intro c hc
    have hinv := h.call_inv c hc
    have hcid := hlate c hc
    rw [Disturbs] at hcid
    rw [CallInv] at hinv ⊢
    cases hp : c.phase with
    | write todo =>
      rw [hp] at hinv hcid
      obtain ⟨hpos, hfin, hnone, hresp, hcmd, hack, hwritten⟩ := hinv
      have hother : c.id ≠ id := fun heq => hfin.1 (heq ▸ hmem)
      refine ⟨hpos, hfin.of_taken_eraseIdx,
        (Function.update_of_ne hother _ s.answer).trans hnone, hresp, hcmd,
        hack, ?_⟩
      intro ibox hle hlt hsel
      rw [← hwritten ibox hle hlt hsel]
      refine store_of_none (by omega) hlt (fun h1 => ?_) (fun h2 => ?_)
      · exact Option.not_isSome_iff_eq_none.mp fun h3 =>
          hother (hcid (Or.inl ⟨h1 ▸ hle, h3⟩))
      · exact Option.not_isSome_iff_eq_none.mp fun h4 =>
          hother (hcid (Or.inr ⟨h2 ▸ hle, h4⟩))
    | wait =>
      rw [hp] at hcid
      have hcid := hcid trivial
      refine Or.inr ⟨r, ?_, holdsResponse_store r s.regs, ?_⟩
      · rw [hcid]
        exact Function.update_self id (some r) s.answer
      · rw [hcid]
        exact ⟨hgone, hunread⟩
    | read todo rc =>
      rw [hp] at hinv
      intro hrc
      rw [hp] at hcid
      obtain ⟨⟨_, _, _, hfin⟩, _⟩ := hinv hrc
      exact absurd (hcid hrc ▸ hmem) hfin.1
  · intro call hcall hrc
    obtain ⟨old, hold, hread, hfin, hne⟩ := h.returned_inv call hcall hrc
    have hother : call.id ≠ id := fun heq => hfin.1 (heq ▸ hmem)
    exact ⟨old, (Function.update_of_ne hother _ s.answer).trans hold, hread,
      hfin.of_taken_eraseIdx, hne⟩

theorem pairInv_cardStatus (h : PairInv s) (status : BitVec 32) :
    PairInv { s with regs := Function.update s.regs BP_MB_STATUS status } := by
  have hbox : ∀ ibox, ibox < BP_MB_STATUS →
      Function.update s.regs BP_MB_STATUS status ibox = s.regs ibox :=
    fun ibox hlt => Function.update_of_ne (Nat.ne_of_lt hlt) _ _
  refine ⟨h.unread_lt, h.taken_lt, h.taken_nodup, h.answer_lt, h.call_lt, ?_,
    h.returned_lt, h.returned_inv, h.parameters⟩
  intro c hc
  have hinv := h.call_inv c hc
  rw [CallInv] at hinv ⊢
  cases hp : c.phase with
  | write todo =>
    rw [hp] at hinv
    obtain ⟨h1, h2, h3, h4, h5, h6, hwritten⟩ := hinv
    refine ⟨h1, h2, h3, h4, h5, h6, ?_⟩
    intro ibox hle hlt hsel
    exact (hbox ibox hlt).trans (hwritten ibox hle hlt hsel)
  | wait =>
    rw [hp] at hinv
    exact hinv
  | read todo rc =>
    rw [hp] at hinv
    intro hrc
    obtain ⟨hans, hread⟩ := hinv hrc
    refine ⟨hans, ?_⟩
    intro ibox hle hlt hsel
    exact (hread ibox hle hlt hsel).trans (hbox ibox hlt).symm

/-- The doorbell interrupt. -/
theorem pairInv_doorbellIsr (h : PairInv s)
    (hlate : s.usingInterrupt = true → ∀ c ∈ s.call,
      c.phase.beforeRead = true → (s.answer c.id).isSome = true) :
    PairInv { s with responseReceived := true, doorbell := false } := by
  refine ⟨h.unread_lt, h.taken_lt, h.taken_nodup, h.answer_lt, h.call_lt, ?_,
    h.returned_lt, h.returned_inv, h.parameters⟩
  intro c hc
  have hinv := h.call_inv c hc
  have hans := fun hint => hlate hint c hc
  rw [CallInv] at hinv ⊢
  cases hp : c.phase with
  | write todo =>
    rw [hp] at hinv hans
    obtain ⟨hpos, hfin, hnone, _, hrest⟩ := hinv
    refine ⟨hpos, hfin, hnone, fun hint => ?_, hrest⟩
    have hsome := hans hint rfl
    rw [hnone] at hsome
    cases hsome
  | wait =>
    rw [hp] at hinv hans
    rcases hinv with ⟨hnone, _, hclear⟩ | hanswered
    · refine Or.inl ⟨hnone, fun hint => ?_, hclear⟩
      have hsome := hans hint rfl
      rw [hnone] at hsome
      cases hsome
    · exact Or.inr hanswered
  | read todo rc =>
    rw [hp] at hinv
    exact hinv

end Card

/-! ## The steps of the host -/

section Host

variable {s : State}

/-- A call takes the mutex. -/
theorem pairInv_start {mbc : MailboxControl} (h : PairInv s)
    (hcmd : selects (mbcFromMbxw mbc) BP_MB_COMMAND = true)
    (hack : mbc.mbxw BP_MB_COMMAND &&& BP_CI_ACK = 0#32) :
    PairInv { s with
      responseReceived := false
      call := some ⟨s.nextId, mbc, .write MBOX_NUM⟩
      nextId := s.nextId + 1 } := by
  have hnew : Finished s s.nextId := by
    refine ⟨fun hmem => ?_, fun hu => ?_⟩
    · exact Nat.lt_irrefl _ (h.taken_lt _ hmem)
    · exact Nat.lt_irrefl _ (h.unread_lt _ hu).1
  have hnone : s.answer s.nextId = none := by
    cases hans : s.answer s.nextId with
    | none => rfl
    | some r =>
      have hlt := h.answer_lt s.nextId (by rw [hans]; rfl)
      exact absurd hlt (Nat.lt_irrefl _)
  refine ⟨?_, ?_, h.taken_nodup, ?_, ?_, ?_, ?_, ?_, h.parameters⟩
  · intro id hid
    exact ⟨Nat.lt_succ_of_lt (h.unread_lt id hid).1, (h.unread_lt id hid).2⟩
  · exact fun id hid => Nat.lt_succ_of_lt (h.taken_lt id hid)
  · exact fun id hid => Nat.lt_succ_of_lt (h.answer_lt id hid)
  · intro c hc
    obtain rfl := Option.some.inj hc
    exact Nat.lt_succ_self _
  · intro c hc
    obtain rfl := Option.some.inj hc
    refine ⟨by decide, hnew, hnone, fun _ => rfl, hcmd, hack, ?_⟩
    intro ibox hle hlt
    exact absurd (Nat.lt_of_le_of_lt hle hlt) (by decide)
  · exact fun call hcall => Nat.lt_succ_of_lt (h.returned_lt call hcall)
  · intro call hcall hrc
    obtain ⟨r, hr, hread, hfin, _⟩ := h.returned_inv call hcall hrc
    refine ⟨r, hr, hread, hfin, ?_⟩
    intro c hc
    obtain rfl := Option.some.inj hc
    exact Nat.ne_of_gt (h.returned_lt call hcall)

/-- A call in progress that only moves on to its next phase. -/
theorem pairInv_setCall {c c' : Call} (h : PairInv s) (hc : s.call = some c)
    (hid : c'.id = c.id) (hinv : CallInv { s with call := some c' } c') :
    PairInv { s with call := some c' } := by
  refine ⟨h.unread_lt, h.taken_lt, h.taken_nodup, h.answer_lt, ?_, ?_,
    h.returned_lt, ?_, h.parameters⟩
  · intro d hd
    obtain rfl := Option.some.inj hd
    rw [hid]
    exact h.call_lt c hc
  · intro d hd
    obtain rfl := Option.some.inj hd
    exact hinv
  · intro call hcall hrc
    obtain ⟨r, hr, hread, hfin, hne⟩ := h.returned_inv call hcall hrc
    refine ⟨r, hr, hread, hfin, ?_⟩
    intro d hd
    obtain rfl := Option.some.inj hd
    rw [hid]
    exact hne c hc

/-- A round of the write loop before the last one. -/
theorem pairInv_writeRound_succ {c : Call} {ibox : Nat} (h : PairInv s)
    (hc : s.call = some c) (hp : c.phase = .write (ibox + 1 + 1)) :
    PairInv (writeRound s c (ibox + 1)) := by
  have hinv := h.call_inv c hc
  rw [CallInv, hp] at hinv
  obtain ⟨_, hfin, hnone, hresp, hcmd, hack, hwritten⟩ := hinv
  rw [writeRound, if_neg (Nat.succ_ne_zero ibox),
    if_neg (fun hcond => absurd hcond.1 (Nat.succ_ne_zero ibox))]
  have hregs : PairInv { s with regs := writeBox c.mbc (ibox + 1) s.regs } := by
    refine ⟨h.unread_lt, h.taken_lt, h.taken_nodup, h.answer_lt, h.call_lt, ?_,
      h.returned_lt, h.returned_inv, h.parameters⟩
    intro d hd
    obtain rfl := Option.some.inj (hc.symm.trans hd)
    rw [CallInv, hp]
    refine ⟨Nat.succ_pos _, hfin, hnone, hresp, hcmd, hack, ?_⟩
    intro other hle hlt hsel
    have hne : other ≠ ibox + 1 := by omega
    exact (writeBox_of_ne hne).trans (hwritten other hle hlt hsel)
  refine pairInv_setCall hregs hc rfl ⟨Nat.succ_pos _, hfin, hnone, hresp, hcmd,
    hack, ?_⟩
  intro other hle hlt hsel
  by_cases heq : other = ibox + 1
  · rw [heq] at hsel ⊢
    exact writeBox_self hsel
  · have hold : ibox + 1 + 1 ≤ other := by omega
    exact (writeBox_of_ne heq).trans (hwritten other hold hlt hsel)

/-- The last round of the write loop writes the COMMAND word. -/
theorem pairInv_writeRound_zero {c : Call} (h : PairInv s)
    (hc : s.call = some c) (hp : c.phase = .write 1) :
    PairInv (writeRound s c 0) := by
  have hinv := h.call_inv c hc
  rw [CallInv, hp] at hinv
  obtain ⟨_, hfin, hnone, hresp, hcmd, hack, hwritten⟩ := hinv
  rw [writeRound, if_pos rfl, if_pos ⟨rfl, hcmd⟩]
  refine ⟨?_, h.taken_lt, h.taken_nodup, h.answer_lt, ?_, ?_, h.returned_lt,
    ?_, ?_⟩
  · intro id hid
    obtain rfl := Option.some.inj hid
    exact ⟨h.call_lt c hc, hfin.1⟩
  · intro d hd
    obtain rfl := Option.some.inj hd
    exact h.call_lt c hc
  · intro d hd
    obtain rfl := Option.some.inj hd
    refine Or.inl ⟨hnone, hresp, ?_⟩
    exact (congrArg (· &&& BP_CI_ACK) (writeBox_self hcmd)).trans hack
  · intro call hcall hrc
    obtain ⟨r, hr, hread, hdone, hne⟩ := h.returned_inv call hcall hrc
    refine ⟨r, hr, hread, ⟨hdone.1, ?_⟩, ?_⟩
    · intro hu
      exact hne c hc (Option.some.inj hu)
    · intro d hd
      obtain rfl := Option.some.inj hd
      exact hne c hc
  · intro p hmem
    rcases List.mem_append.mp hmem with hmem | hmem
    · exact h.parameters p hmem
    · rw [List.mem_singleton.mp hmem]
      refine ⟨fun hsel => ?_, fun hsel => ?_⟩
      · exact (writeBox_of_ne (by decide)).trans
          (hwritten BP_MB_A3 (by decide) (by decide) hsel)
      · exact (writeBox_of_ne (by decide)).trans
          (hwritten BP_MB_A4 (by decide) (by decide) hsel)

/-- What the read loop has read after one more round. -/
theorem readBox_mbxr {regs : Regs} {mbc : MailboxControl} {ibox : Nat}
    (hread : ∀ other, ibox + 1 ≤ other → other < BP_MB_STATUS →
      selects (mbcFromMbxr mbc) other = true → mbc.mbxr other = regs other) :
    ∀ other, ibox ≤ other → other < BP_MB_STATUS →
      selects (mbcFromMbxr (readBox regs ibox mbc)) other = true →
      (readBox regs ibox mbc).mbxr other = regs other := by
  intro other hle hlt hsel
  rw [mbcFromMbxr_readBox] at hsel
  by_cases heq : other = ibox
  · rw [heq] at hsel ⊢
    exact readBox_mbxr_self hsel
  · have hold : ibox + 1 ≤ other := by omega
    exact (readBox_mbxr_of_ne heq).trans (hread other hold hlt hsel)

/-- A round of the read loop before the last one. -/
theorem pairInv_readRound_succ {c : Call} {ibox : Nat} {rc : Int}
    (h : PairInv s) (hc : s.call = some c)
    (hp : c.phase = .read (ibox + 1 + 1) rc) :
    PairInv (readRound s c (ibox + 1) rc) := by
  have hinv := h.call_inv c hc
  rw [CallInv, hp] at hinv
  rw [readRound, if_neg (Nat.succ_ne_zero ibox)]
  refine pairInv_setCall h hc rfl ?_
  intro hrc
  obtain ⟨hans, hread⟩ := hinv hrc
  exact ⟨hans, readBox_mbxr hread⟩

/-- The last round of the read loop ends the call. -/
theorem pairInv_readRound_zero {c : Call} {rc : Int} (h : PairInv s)
    (hc : s.call = some c) (hp : c.phase = .read 1 rc) :
    PairInv (readRound s c 0 rc) := by
  have hinv := h.call_inv c hc
  rw [CallInv, hp] at hinv
  rw [readRound, if_pos rfl]
  refine ⟨h.unread_lt, h.taken_lt, h.taken_nodup, h.answer_lt,
    (fun _ hd => by cases hd), (fun _ hd => by cases hd), ?_, ?_, h.parameters⟩
  · intro call hcall
    rcases List.mem_append.mp hcall with hcall | hcall
    · exact h.returned_lt call hcall
    · rw [List.mem_singleton.mp hcall]
      exact h.call_lt c hc
  · intro call hcall hrc
    rcases List.mem_append.mp hcall with hcall | hcall
    · obtain ⟨r, hr, hread, hfin, _⟩ := h.returned_inv call hcall hrc
      exact ⟨r, hr, hread, hfin, fun _ hd => by cases hd⟩
    · obtain rfl := List.mem_singleton.mp hcall
      obtain ⟨⟨r, hr, hregs, hfin⟩, hread⟩ := hinv hrc
      have hbox := readBox_mbxr hread
      refine ⟨r, hr, ⟨?_, ?_, ?_⟩, hfin, fun _ hd => by cases hd⟩
      · intro hsel
        exact (hbox BP_MB_COMMAND (by decide) (by decide) hsel).trans hregs.1
      · intro hsel a3 h3
        exact (hbox BP_MB_A3 (by decide) (by decide) hsel).trans (hregs.2.1 a3 h3)
      · intro hsel a4 h4
        exact (hbox BP_MB_A4 (by decide) (by decide) hsel).trans (hregs.2.2 a4 h4)

/-- The end of the wait.  A wait that ends with `0` has seen the answer. -/
theorem pairInv_endWait {c : Call} {rc : Int} (h : PairInv s)
    (hc : s.call = some c) (hans : rc = 0 → Answered s c.id) :
    PairInv (endWait s c rc) := by
  refine pairInv_setCall h hc rfl ?_
  intro hrc
  refine ⟨hans hrc, ?_⟩
  intro ibox hle hlt
  exact absurd (Nat.lt_of_le_of_lt hle hlt) (by decide)

/-! What each way out of the wait tells. -/

theorem hostStep_poll {c : Call} {s' : State} {expired : Bool}
    (hs : hostStep (.poll expired) s c = some s') :
    c.phase = .wait ∧
      (s.regs BP_MB_COMMAND &&& BP_CI_ACK ≠ 0#32 ∧ s' = endWait s c 0 ∨
        s' = endWait s c (-ETIMEDOUT) ∨ s' = s) := by
  cases hp : c.phase with
  | wait =>
    refine ⟨rfl, ?_⟩
    simp only [hostStep, hp] at hs
    split at hs
    · cases hs
    · split at hs
      · exact Or.inl ⟨‹_›, (Option.some.inj hs).symm⟩
      · split at hs
        · exact Or.inr (Or.inl (Option.some.inj hs).symm)
        · exact Or.inr (Or.inr (Option.some.inj hs).symm)
  | write todo =>
    simp only [hostStep, hp] at hs
    cases hs
  | read todo rc =>
    simp only [hostStep, hp] at hs
    cases hs

theorem hostStep_wake {c : Call} {s' : State}
    (hs : hostStep .wake s c = some s') :
    c.phase = .wait ∧ (s.usingInterrupt = true ∧ s.responseReceived = true) ∧
      s' = endWait s c 0 := by
  cases hp : c.phase with
  | wait =>
    simp only [hostStep, hp] at hs
    split at hs
    · rename_i hcond
      exact ⟨rfl, hcond, (Option.some.inj hs).symm⟩
    · cases hs
  | write todo =>
    simp only [hostStep, hp] at hs
    cases hs
  | read todo rc =>
    simp only [hostStep, hp] at hs
    cases hs

theorem hostStep_timeout {c : Call} {s' : State}
    (hs : hostStep .timeout s c = some s') : s' = endWait s c (-ETIMEDOUT) := by
  cases hp : c.phase with
  | wait =>
    simp only [hostStep, hp] at hs
    split at hs
    · exact (Option.some.inj hs).symm
    · cases hs
  | write todo =>
    simp only [hostStep, hp] at hs
    cases hs
  | read todo rc =>
    simp only [hostStep, hp] at hs
    cases hs

theorem hostStep_signal {c : Call} {s' : State}
    (hs : hostStep .signal s c = some s') :
    s' = endWait s c (-ERESTARTSYS) := by
  cases hp : c.phase with
  | wait =>
    simp only [hostStep, hp] at hs
    split at hs
    · exact (Option.some.inj hs).symm
    · cases hs
  | write todo =>
    simp only [hostStep, hp] at hs
    cases hs
  | read todo rc =>
    simp only [hostStep, hp] at hs
    cases hs

theorem pairInv_hostStep {e : Event} {s' : State} {c : Call} (h : PairInv s)
    (hc : s.call = some c) (hs : hostStep e s c = some s') : PairInv s' := by
  have hinv := h.call_inv c hc
  rw [CallInv] at hinv
  cases e with
  | round =>
    cases hp : c.phase with
    | write todo =>
      rcases todo with _ | _ | ibox
      · simp only [hostStep, hp] at hs
        cases hs
      · simp only [hostStep, hp] at hs
        obtain rfl := Option.some.inj hs
        exact pairInv_writeRound_zero h hc hp
      · simp only [hostStep, hp] at hs
        obtain rfl := Option.some.inj hs
        exact pairInv_writeRound_succ h hc hp
    | wait =>
      simp only [hostStep, hp] at hs
      cases hs
    | read todo rc =>
      rcases todo with _ | _ | ibox
      · simp only [hostStep, hp] at hs
        cases hs
      · simp only [hostStep, hp] at hs
        obtain rfl := Option.some.inj hs
        exact pairInv_readRound_zero h hc hp
      · simp only [hostStep, hp] at hs
        obtain rfl := Option.some.inj hs
        exact pairInv_readRound_succ h hc hp
  | poll expired =>
    obtain ⟨hp, hacked | hlate | hsame⟩ := hostStep_poll hs
    · obtain ⟨hack, rfl⟩ := hacked
      rw [hp] at hinv
      refine pairInv_endWait h hc fun _ => ?_
      rcases hinv with ⟨_, _, hclear⟩ | hans
      · exact absurd hclear hack
      · exact hans
    · subst hlate
      exact pairInv_endWait h hc fun hrc => absurd hrc (by decide)
    · exact hsame ▸ h
  | wake =>
    obtain ⟨hp, ⟨hint, hresp⟩, rfl⟩ := hostStep_wake hs
    rw [hp] at hinv
    refine pairInv_endWait h hc fun _ => ?_
    rcases hinv with ⟨_, hclear, _⟩ | hans
    · rw [hclear hint] at hresp
      cases hresp
    · exact hans
  | timeout =>
    obtain rfl := hostStep_timeout hs
    exact pairInv_endWait h hc fun hrc => absurd hrc (by decide)
  | signal =>
    obtain rfl := hostStep_signal hs
    exact pairInv_endWait h hc fun hrc => absurd hrc (by decide)
  | _ => cases hs

end Host

/-! ## Runs -/

theorem pairInv_step (e : Event) (s s' : State) (h : PairInv s)
    (hok : StartsCommand e ∧ NoLateResponse e s) (hs : step e s = some s') :
    PairInv s' := by
  obtain ⟨hcmd, hlate⟩ := hok
  cases e with
  | start origin mbc =>
    simp only [step] at hs
    split at hs
    · rename_i block hfree hblock
      obtain rfl := Option.some.inj hs
      obtain ⟨hsel, hack⟩ := hcmd block hblock
      exact pairInv_start h hsel hack
    · cases hs
  | cardRead =>
    simp only [step] at hs
    split at hs
    · cases hs
    · rename_i id hid
      split at hs
      · cases hs
      · obtain rfl := Option.some.inj hs
        exact pairInv_cardRead h hid
  | cardRespond work response =>
    simp only [step] at hs
    split at hs
    · cases hs
    · rename_i id hid
      obtain rfl := Option.some.inj hs
      refine pairInv_cardRespond h hid (fun c hc hdist => ?_)
      exact Option.some.inj ((hlate c hc hdist).symm.trans hid)
  | cardStatus status =>
    obtain rfl := Option.some.inj hs
    exact pairInv_cardStatus h status
  | doorbellIsr =>
    simp only [step] at hs
    split at hs
    · obtain rfl := Option.some.inj hs
      exact pairInv_doorbellIsr h hlate
    · cases hs
  | round | poll _ | wake | timeout | signal =>
    obtain ⟨c, hc, hhost⟩ := Option.bind_eq_some_iff.mp hs
    exact pairInv_hostStep h hc hhost

/-- In a run where nothing of an earlier call disturbs the call in
progress, every call that returned `0` read the response to its own
command. -/
theorem mailbox_paired {usingInterrupt : Bool} {regs : Regs}
    {events : List Event} {s : State}
    (hok : RunMeets step (fun e s => StartsCommand e ∧ NoLateResponse e s)
      events (initial usingInterrupt regs))
    (hrun : runFrom step events (initial usingInterrupt regs) = some s) :
    Paired s := by
  have h := runFrom_inv pairInv_step (pairInv_initial usingInterrupt regs)
    hok hrun
  refine ⟨?_, h.parameters⟩
  intro call hcall hrc
  obtain ⟨r, hr, hread, _⟩ := h.returned_inv call hcall hrc
  exact ⟨r, hr, hread⟩

/-- A control block that writes and reads COMMAND, A3 and A4, with a
timeout of one tick. -/
def exampleBlock (command : BitVec 32) : MailboxControl :=
  { mbcFlags := 0x00770001#32, mbxw := fun _ => command, mbxr := fun _ => 0#32 }

/-- A polled call up to the end of its write loop. -/
def writeEvents (command : BitVec 32) : List Event :=
  [.start .ioctl (exampleBlock command), .round, .round, .round, .round]

/-- The rounds of a read loop. -/
def readEvents : List Event := [.round, .round, .round, .round]

/-- Two calls in turn, the first of which times out before the card has
read its command. -/
def inTurn : List Event :=
  writeEvents 5#32 ++ [.poll true] ++ readEvents ++ writeEvents 6#32 ++
    [.cardRead, .poll false, .cardRespond 0 ⟨6#32, some 7#32, none⟩,
      .poll false] ++ readEvents

theorem mailbox_paired_inTurn :
    ∃ s, runFrom step inTurn (initial false fun _ => 0#32) = some s ∧
      s.returned.map (fun call => (call.id, call.rc)) = [(0, -110), (1, 0)] ∧
      Paired s := by
  obtain ⟨s, hrun, hret⟩ : ∃ s,
      runFrom step inTurn (initial false fun _ => 0#32) = some s ∧
        s.returned.map (fun call => (call.id, call.rc)) = [(0, -110), (1, 0)] :=
    ⟨_, rfl, rfl⟩
  exact ⟨s, hrun, hret, mailbox_paired (by decide) hrun⟩

/-- Two calls, the first of which times out after the card has read its
command.  The card responds to it when the second call waits. -/
def lateResponse : List Event :=
  writeEvents 5#32 ++ [.cardRead, .poll true] ++ readEvents ++
    writeEvents 6#32 ++ [.cardRespond 0 ⟨5#32, none, none⟩, .poll false] ++
    readEvents

theorem late_response_taken :
    (∀ e ∈ lateResponse, StartsCommand e) ∧
      ∃ s, runFrom step lateResponse (initial false fun _ => 0#32) = some s ∧
        (∃ call ∈ s.returned, call.id = 1 ∧ call.rc = 0 ∧
          s.answer call.id = none ∧
          call.mbc.mbxr BP_MB_COMMAND = 5#32 ||| BP_CI_ACK) ∧
        ¬ Paired s := by
  refine ⟨by decide, _, rfl, ⟨_, List.mem_cons_of_mem _ List.mem_cons_self, rfl,
    rfl, rfl, rfl⟩, ?_⟩
  rintro ⟨hown, -⟩
  obtain ⟨r, hr, -⟩ := hown _ (List.mem_cons_of_mem _ List.mem_cons_self) rfl
  cases hr

end Acq200.Mailbox
