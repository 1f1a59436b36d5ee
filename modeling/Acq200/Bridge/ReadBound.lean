import Acq200.Bridge.Basic

/-!
# How much a read copies

`acq200_bridge_read_generic` clips the count of its request to the length of
the mapping, and then copies as many bytes as the reply says.  The number of
samples in a reply is 32 bits wide and no one compares it with the request.

`handled_bounded_iff` is about the end of any read, whatever has happened to
the device while it waited and whichever request the reply belongs to.
`read_bounded_iff` is about a whole call.
-/

namespace Acq200.Bridge

open Acq200.Rch

/-- The mapping that a read uses: its own, or the one that it takes from the
pool. -/
def readKBuf (file : File) (d : Device) (given : Option KBuf) : Option KBuf :=
  match given with
  | some kbuf => some kbuf
  | none => (allocAlone d.mappings).map file.kbuf

/-- The bytes that a read may copy. -/
def readLimit (file : File) (d : Device) (count : Nat) (given : Option KBuf) : Nat :=
  match readKBuf file d given with
  | some kbuf => kbuf.clip count
  | none => 0

/-- The call copies and returns no more than `limit` bytes. -/
structure Bounded (limit : Nat) (o : Outcome) : Prop where
  copied : ∀ va n, o.copied = some (va, n) → 0 ≤ n ∧ n ≤ limit
  returned : ∀ rc, o.rc = some rc → rc ≤ limit

/-- `nsamples*2` is what it says. -/
def DoublesExactly (nsamples : BitVec 32) : Prop := (nsamples * 2).toInt = 2 * nsamples.toInt

/-- The call is bounded, and doubles the count of samples of its reply exactly. -/
structure ReadBounded (limit : Nat) (env : Env) (o : Outcome) : Prop where
  bounded : Bounded limit o
  exact : ∀ start nsamples, o.waited = true → env.mfa = true →
    env.reply = some (start, nsamples) → nsamples ≠ 0xffffffff#32 → DoublesExactly nsamples

/-- The reply has no more bytes than the limit. -/
def ReplyFits (limit : Nat) (nsamples : BitVec 32) : Prop :=
  2 * nsamples.toNat ≤ limit ∧ nsamples.toNat < 2 ^ 30

instance (limit : Nat) (nsamples : BitVec 32) : Decidable (ReplyFits limit nsamples) :=
  inferInstanceAs (Decidable (2 * nsamples.toNat ≤ limit ∧ nsamples.toNat < 2 ^ 30))

section Replies

variable {file : File} {hrdCode : BitVec 16} {d d' : Device} {count e limit : Nat}
  {posp : BitVec 64} {env : Env} {t : Tag} {kbuf : KBuf} {pooled : Kbuf}
  {pam : BitVec 32} {flags : Nat} {start nsamples : BitVec 32} {done : Outcome}

/-- A count of bytes that is doubled exactly and lies between 0 and the limit
comes from a reply that fits. -/
theorem replyFits_iff : ReplyFits limit nsamples ↔
    DoublesExactly nsamples ∧ 0 ≤ (nsamples * 2).toInt ∧ (nsamples * 2).toInt ≤ limit := by
  constructor
  · intro h
    have hbytes := toInt_samples h.2
    have hint : nsamples.toInt = nsamples.toNat :=
      BitVec.toInt_eq_toNat_of_lt (by have := h.2; omega)
    have hle := h.1
    rw [DoublesExactly, hbytes, hint]
    omega
  · rintro ⟨hexact, hnonneg, hle⟩
    rw [DoublesExactly] at hexact
    have hlt := BitVec.toInt_lt (x := nsamples * 2)
    have hint : nsamples.toInt = nsamples.toNat := by
      have hpos : 0 ≤ nsamples.toInt := by omega
      rw [BitVec.toInt_eq_toNat_cond] at hpos ⊢
      split at hpos <;> omega
    constructor <;> omega

theorem bounded_of_early {rc : Option Int} (hrc : ∀ n, rc = some n → n ≤ limit) :
    Bounded limit (Outcome.early rc d posp) where
  copied := by
    intro va n h
    cases h
  returned := hrc

/-- A call that copies nothing and returns an error or nothing. -/
theorem bounded_of_error {o : Outcome} (hcopied : o.copied = none)
    (hrc : ∀ rc, o.rc = some rc → rc < 0) : Bounded limit o where
  copied := by
    intro va n h
    rw [hcopied] at h
    cases h
  returned := by
    intro rc h
    have := hrc rc h
    omega

/-! ## The end of a read -/

/-- A read whose handler has data copies what the handler says. -/
theorem finishRead_valid (t : Tag) (kbuf : KBuf) (hvalid : (done.device.rch e).rchReturn.valid = 1)
    (hrc : done.rc = none) :
    (finishRead done e t kbuf).copied
        = some (kbuf.va, (done.device.rch e).rchReturn.nbytes.toInt) ∧
      ∀ rc, (finishRead done e t kbuf).rc = some rc →
        rc = (done.device.rch e).rchReturn.nbytes.toInt := by
  have hremove : done.device.rchRemoveIfNotValid e = some (done.device, 1) := by
    simp [Device.rchRemoveIfNotValid, hvalid]
  simp only [finishRead, hremove, if_true]
  split
  · refine ⟨rfl, fun rc h => ?_⟩
    rw [hrc] at h
    cases h
  · exact ⟨rfl, fun rc h => (Option.some.inj h).symm⟩

/-- A read whose handler has no data copies nothing. -/
theorem finishRead_invalid (hvalid : (done.device.rch e).rchReturn.valid ≠ 1)
    (hcopied : done.copied = none) (hrc : done.rc = none) :
    Bounded limit (finishRead done e t kbuf) := by
  have herror : ∀ o : Outcome, o.copied = none → (o.rc = none ∨ ∃ rc < 0, o.rc = some rc) →
      Bounded limit o := by
    intro o hnone hneg
    refine bounded_of_error hnone fun rc h => ?_
    rcases hneg with hnone' | ⟨rc', hlt, hsome⟩
    · rw [hnone'] at h
      cases h
    · rw [hsome] at h
      cases h
      exact hlt
  rw [finishRead]
  cases hremove : done.device.rchRemoveIfNotValid e with
  | none => exact herror done hcopied (Or.inl hrc)
  | some p =>
    have hone : p.2 ≠ 1 := by
      rw [Device.rchRemoveIfNotValid, if_pos hvalid] at hremove
      obtain ⟨d₁, -, rfl⟩ := Option.map_eq_some_iff.mp hremove
      exact hvalid
    simp only [if_neg hone]
    split
    · exact herror _ hcopied (Or.inr ⟨-EINTR, by decide, rfl⟩)
    · split
      · exact herror _ hcopied (Or.inl hrc)
      · exact herror _ hcopied (Or.inr ⟨-EFAULT, by decide, rfl⟩)

/-- The end of a read whose handler has got this reply. -/
theorem finishRead_bounded_iff (limit : Nat) (t : Tag) (kbuf : KBuf) {old : RchReturn}
    (hcopied : done.copied = none) (hrc : done.rc = none)
    (hreturn : (done.device.rch e).rchReturn = Device.setSamples old start nsamples) :
    (Bounded limit (finishRead done e t kbuf) ∧
        (nsamples ≠ 0xffffffff#32 → DoublesExactly nsamples)) ↔
      (nsamples ≠ 0xffffffff#32 → ReplyFits limit nsamples) := by
  by_cases herror : nsamples = 0xffffffff#32
  · have hvalid : (done.device.rch e).rchReturn.valid ≠ 1 := by
      rw [hreturn, Device.setSamples, if_pos herror]
      show (-1 : Int) ≠ 1
      decide
    exact iff_of_true ⟨finishRead_invalid hvalid hcopied hrc, fun hne => absurd herror hne⟩
      fun hne => absurd herror hne
  · rw [Device.setSamples, if_neg herror] at hreturn
    have hvalid : (done.device.rch e).rchReturn.valid = 1 := by rw [hreturn]
    have hbytes : (done.device.rch e).rchReturn.nbytes = nsamples * 2 := by rw [hreturn]
    obtain ⟨hcopy, hret⟩ := finishRead_valid t kbuf hvalid hrc
    rw [hbytes] at hcopy hret
    constructor
    · rintro ⟨hbounded, hexact⟩ -
      obtain ⟨hnonneg, hle⟩ := hbounded.copied _ _ hcopy
      exact replyFits_iff.mpr ⟨hexact herror, hnonneg, hle⟩
    · intro hfits
      obtain ⟨hexact, hnonneg, hle⟩ := replyFits_iff.mp (hfits herror)
      refine ⟨⟨fun va n hsome => ?_, fun rc hsome => ?_⟩, fun _ => hexact⟩
      · rw [hcopy] at hsome
        cases hsome
        exact ⟨hnonneg, hle⟩
      · rw [hret rc hsome]
        exact hle

/-- Whatever the device was when the reply came, and whichever request the
reply was for: the read that it ends is bounded exactly when the reply fits. -/
theorem handled_bounded_iff {request : HostRequest} {sendRc : Int}
    (hpath : (d.rch e).path.isSome = true)
    (h : d.handle e start nsamples .handleReadMessageFile = some d') :
    (Bounded limit (finishRead (waitingRead d' posp request sendRc) e t kbuf) ∧
        (nsamples ≠ 0xffffffff#32 → DoublesExactly nsamples)) ↔
      (nsamples ≠ 0xffffffff#32 → ReplyFits limit nsamples) := by
  obtain ⟨path, hpath⟩ := Option.isSome_iff_exists.mp hpath
  rw [Device.handle_read hpath] at h
  cases h
  have hreturn : ((waitingRead (replied d e start nsamples) posp request sendRc).device.rch
      e).rchReturn = Device.setSamples (d.rch e).rchReturn start nsamples := by
    rw [waitingRead, replied, Device.setRch_rch_self]
  exact finishRead_bounded_iff limit t kbuf rfl rfl hreturn

/-! ## Calls -/

theorem readBounded_unwaited {o : Outcome} (hbounded : Bounded limit o)
    (hwaited : o.waited = false) : ReadBounded limit env o where
  bounded := hbounded
  exact := by
    intro start nsamples hwait
    rw [hwaited] at hwait
    cases hwait

/-- A read that goes back before its request is bounded. -/
theorem recycleUnbuilt_bounded {rc : Int} (hneg : rc < 0) (next : Device → Device) :
    ReadBounded limit env (recycleUnbuilt d e t posp fun d =>
      Outcome.early (some rc) (next d) posp) := by
  rw [recycleUnbuilt]
  split
  · refine readBounded_unwaited (bounded_of_early fun n h => ?_) rfl
    cases h
  · refine readBounded_unwaited (bounded_of_early fun n h => ?_) rfl
    cases h
    omega

/-- What the replies must be for a read into `kbuf`. -/
def RepliesFit (limit : Nat) (d : Device) (env : Env) (e : Nat) (kbuf : KBuf) : Prop :=
  kbuf.len ≠ 0 → e ∉ d.list → env.mfa = true → ∀ start nsamples,
    env.reply = some (start, nsamples) → nsamples ≠ 0xffffffff#32 → ReplyFits limit nsamples

theorem readInto_bounded_iff :
    ReadBounded limit env (readInto file hrdCode d count posp env e t kbuf pooled pam flags) ↔
      RepliesFit limit d env e kbuf := by
  by_cases hlen : kbuf.len = 0
  · refine iff_of_true ?_ fun h => absurd hlen h
    rw [readInto, if_pos hlen]
    exact recycleUnbuilt_bounded (by decide) _
  · by_cases hfresh : e ∈ d.list
    · refine iff_of_true ?_ fun _ h => absurd hfresh h
      rw [readInto, if_neg hlen]
      simp only [postRequest_eq_none.mpr hfresh]
      exact readBounded_unwaited (bounded_of_error rfl fun rc h => by cases h) rfl
    · obtain ⟨d', sendRc, hpost⟩ := exists_requested hfresh
      have hreq := requested hpost
      rw [readInto_waits hlen hpost]
      by_cases hsignal : env.mfa = false ∨ env.reply = none
      · have hnoreply : ∀ start nsamples, env.mfa = true →
            env.reply ≠ some (start, nsamples) := by
          intro start nsamples hmfa hreply
          rcases hsignal with h | h
          · rw [h] at hmfa
            cases hmfa
          · rw [h] at hreply
            cases hreply
        rw [afterWait_signal hsignal]
        refine iff_of_true ⟨finishRead_invalid ?_ rfl rfl, ?_⟩ ?_
        · rw [waitingRead, hreq.rch]
          exact Int.zero_ne_one
        · intro start nsamples _ hmfa hreply
          exact absurd hreply (hnoreply start nsamples hmfa)
        · intro _ _ hmfa start nsamples hreply
          exact absurd hreply (hnoreply start nsamples hmfa)
      · have hmfa : env.mfa = true := Bool.of_not_eq_false fun h => hsignal (Or.inl h)
        obtain ⟨⟨start, nsamples⟩, hreply⟩ : ∃ p, env.reply = some p :=
          Option.ne_none_iff_exists'.mp fun h => hsignal (Or.inr h)
        rw [afterWait_reply hreq hmfa hreply]
        have hreturn : ((waitingRead (replied d' e start nsamples) posp
            (readRequest file hrdCode count posp kbuf pam) sendRc).device.rch e).rchReturn
              = Device.setSamples (d'.rch e).rchReturn start nsamples := by
          rw [waitingRead, replied, Device.setRch_rch_self]
        have hend := finishRead_bounded_iff limit t kbuf rfl rfl hreturn
        constructor
        · intro h _ _ _ start' nsamples' hreply' herror
          cases hreply.symm.trans hreply'
          refine hend.mp ⟨h.bounded, fun hne => ?_⟩ herror
          exact h.exact start nsamples (finishRead_waited _ e t kbuf) hmfa hreply hne
        · intro h
          obtain ⟨hbounded, hexact⟩ := hend.mpr (h hlen hfresh hmfa start nsamples hreply)
          refine ⟨hbounded, fun start' nsamples' _ _ hreply' herror => ?_⟩
          cases hreply.symm.trans hreply'
          exact hexact herror

/-- What the reply of a call must be: no error reply is in question, and any
other has no more bytes than the request asked for. -/
def ReadReplyFits (file : File) (d : Device) (count : Nat) (given : Option KBuf) (env : Env) :
    Prop :=
  ∀ e kbuf, allocAlone d.handlers = some e → readKBuf file d given = some kbuf →
    RepliesFit (readLimit file d count given) d env e kbuf

end Replies

theorem call_bounded_iff (file : File) (hrdCode : BitVec 16) (d : Device) (count : Nat)
    (posp : BitVec 64) (given : Option KBuf) (env : Env) :
    ReadBounded (readLimit file d count given) env
        (bridgeReadGeneric file hrdCode d count posp given env) ↔
      ReadReplyFits file d count given env := by
  cases he : allocAlone d.handlers with
  | none =>
    refine iff_of_true ?_ fun e kbuf h => by rw [he] at h; cases h
    rw [read_no_handler hrdCode count posp env given he]
    refine readBounded_unwaited (bounded_of_early fun n h => ?_) rfl
    cases h
    exact le_trans (by decide : -ETIMEDOUT ≤ 0) (Int.natCast_nonneg _)
  | some e =>
    -- The handler pool and the list are those of the call, also after the allocations.
    have hfits : ∀ kbuf, readKBuf file d given = some kbuf → ∀ d₁ : Device,
        d₁.list = d.list →
        (RepliesFit (readLimit file d count given) d₁ env e kbuf ↔
          ReadReplyFits file d count given env) := by
      intro kbuf hkbuf d₁ hlist
      rw [RepliesFit, hlist]
      constructor
      · intro h e' kbuf' he' hkbuf'
        cases he.symm.trans he'
        cases hkbuf.symm.trans hkbuf'
        exact h
      · intro h
        exact h e kbuf he hkbuf
    cases given with
    | some kbuf =>
      rw [read_given hrdCode count posp env he kbuf, readInto_bounded_iff]
      exact hfits kbuf rfl _ rfl
    | none =>
      cases hm : allocAlone d.mappings with
      | none =>
        refine iff_of_true ?_ fun e kbuf _ h => ?_
        · rw [read_no_mapping hrdCode count posp env he hm]
          exact recycleUnbuilt_bounded (by decide) id
        · rw [readKBuf, hm] at h
          cases h
      | some m =>
        rw [read_pool hrdCode count posp env he hm, readInto_bounded_iff]
        exact hfits (file.kbuf m) (by rw [readKBuf, hm]; rfl) _ rfl

/-- A read copies and returns at most what was asked for exactly when its
reply fits.  This holds of the call of a client that is alone, and of the end
of any read whose handler has a reply, whatever the device is by then. -/
theorem read_bounded_iff (file : File) (hrdCode : BitVec 16) (d : Device) (count : Nat)
    (posp : BitVec 64) (given : Option KBuf) (env : Env) :
    (ReadBounded (readLimit file d count given) env
        (bridgeReadGeneric file hrdCode d count posp given env) ↔
      ReadReplyFits file d count given env) ∧
    ∀ (waiting handled : Device) (e : Nat) (t : Tag) (kbuf : KBuf) (request : HostRequest)
      (sendRc : Int) (start nsamples : BitVec 32),
      (waiting.rch e).path.isSome = true →
      waiting.handle e start nsamples .handleReadMessageFile = some handled →
      ((Bounded (kbuf.clip count)
            (finishRead (waitingRead handled posp request sendRc) e t kbuf) ∧
          (nsamples ≠ 0xffffffff#32 → DoublesExactly nsamples)) ↔
        (nsamples ≠ 0xffffffff#32 → ReplyFits (kbuf.clip count) nsamples)) :=
  ⟨call_bounded_iff file hrdCode d count posp given env,
    fun _ _ _ _ _ _ _ _ _ hpath hhandle => handled_bounded_iff hpath hhandle⟩

/-- Fifty samples for a read of 100 bytes. -/
theorem fifty_samples_bounded :
    ReadBounded 100 ⟨true, some (0, 50)⟩
      (bridgeRead onePage (poolCreate 0#16) 100 0 ⟨true, some (0, 50)⟩) := by
  refine (read_bounded_iff onePage HRD_CHAN_IS_FILE (poolCreate 0#16) 100 0 none
    ⟨true, some (0, 50)⟩).1.mpr ?_
  rintro e kbuf - - - - - start nsamples hreply -
  cases hreply
  decide

/-- The card answers a read of 100 bytes with 60 samples, and 120 bytes go to
the user. -/
theorem long_reply_overruns :
    ¬ ReadBounded 100 ⟨true, some (0, 60)⟩
      (bridgeRead onePage (poolCreate 0#16) 100 0 ⟨true, some (0, 60)⟩) := by
  intro h
  have hle := (h.bounded.copied 0xc0100400 120 (by decide)).2
  exact absurd hle (by decide)

end Acq200.Bridge
