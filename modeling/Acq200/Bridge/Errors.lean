import Acq200.Bridge.Basic

/-!
# Calls that fail

Two questions about the error paths of the bridge calls.

A request that the card has no frame for cannot be posted, and
`acq200_sendI2O_kbuf` says so.  None of its four callers looks at the
result.  `unsent_never_clean` says that none of them fails cleanly, in any
state.

A read or a write has several error returns, each after taking another part
of what the call needs.  `ReturnsFlags` says that the call gives back what
it took on each of them.  `returns_flags_iff` has the exact condition, and
`empty_write_leaks` the return that gives nothing back.
-/

namespace Acq200.Bridge

open Acq200.Rch

variable {file : File} {d d' : Device} {env : Env} {e m : Nat} {t : Tag}

/-! ## Requests that could not be posted -/

/-- A call that sends a request. -/
inductive BridgeCall where
  | read (hrdCode : BitVec 16) (count : Nat) (posp : BitVec 64) (given : Option KBuf)
  | write (hrdCode : BitVec 16) (count : Nat) (posp : BitVec 64)
  | queueAB (sid : BitVec 32) (mapping : KBuf)
  | release (message : HostRequest)

namespace BridgeCall

def run (file : File) (d : Device) (env : Env) : BridgeCall → Outcome
  | .read hrdCode count posp given =>
    bridgeReadGeneric file hrdCode d count posp given env
  | .write hrdCode count posp => bridgeWriteGeneric file hrdCode d count posp env
  | .queueAB sid mapping => bufferABQueue file d sid mapping env
  | .release message => bridgeReleaseMessage file d message env

/-- The position at entry. -/
def posp : BridgeCall → BitVec 64
  | .read _ _ posp _ => posp
  | .write _ _ posp => posp
  | .queueAB _ _ => 0
  | .release _ => 0

/-- The call reports an error, or, for a release, returns. -/
def Reports (call : BridgeCall) (rc : Int) : Prop :=
  match call with
  | .release _ => True
  | _ => rc < 0

end BridgeCall

/-- The id that the next request will get. -/
def nextId (d : Device) : BitVec 16 :=
  Device.makeIdDtacq (d.i2oLastIdOut.signExtend 32 + 1)

/-- A call whose request could not be posted has left no trace. -/
structure FailsCleanly (d : Device) (call : BridgeCall) (o : Outcome) : Prop where
  reports : ∃ rc, o.rc = some rc ∧ call.Reports rc
  waited : o.waited = false
  list : o.device.list = d.list
  handlers : o.device.handlers.reserved = d.handlers.reserved
  mappings : o.device.mappings.reserved = d.mappings.reserved
  posp : o.posp = call.posp
  /-- The next request shares its id with no handler that this one left. -/
  unshared : ∀ e ∈ o.device.list, e ∉ d.list →
    (o.device.rch e).commandId ≠ nextId o.device

/-- A write that could not be posted returns its count, and leaves a handler
that waits for the id of the next request. -/
theorem unsent_write {hrdCode : BitVec 16} {count : Nat} {posp : BitVec 64}
    (h : (bridgeWriteGeneric file hrdCode d count posp env).sendRc
      = some (-EACQ32_NO_INCOMING_I2O)) :
    ∃ e m, e ∉ d.list ∧
      (bridgeWriteGeneric file hrdCode d count posp env).device.list = d.list ++ [e] ∧
      ((bridgeWriteGeneric file hrdCode d count posp env).device.rch e).commandId
        = nextId (bridgeWriteGeneric file hrdCode d count posp env).device ∧
      (bridgeWriteGeneric file hrdCode d count posp env).rc
        = some ((file.kbuf m).clip count) ∧
      (bridgeWriteGeneric file hrdCode d count posp env).posp
        = posp + BitVec.ofNat 64 ((file.kbuf m).clip count) := by
  rcases write_cases hrdCode count posp env file d with
    ⟨-, ⟨rc, d', -, heq⟩ | ⟨-, hnone, -⟩⟩ | ⟨e, m, he, hm, hfresh, hn⟩
  · rw [heq] at h
    cases h
  · rw [hnone] at h
    cases h
  · obtain ⟨d', rc, hpost, heq⟩ := write_sent hrdCode count posp env he hm hn hfresh
    rw [heq] at h ⊢
    have hreq := requested hpost
    have hrc := hreq.rc
    rw [Option.some.inj h] at hrc
    have hmfa : env.mfa = false := by
      cases hmfa : env.mfa with
      | false => rfl
      | true =>
        rw [hmfa] at hrc
        exact absurd hrc (by decide)
    refine ⟨e, m, hfresh, hreq.list, ?_, rfl, rfl⟩
    have hlast := hreq.lastId
    rw [hmfa, if_neg Bool.false_ne_true] at hlast
    simp only [nextId, hlast, hreq.rch]

/-- A read that offers a message to the card waits, posted or not. -/
theorem read_waited {hrdCode : BitVec 16} {count : Nat} {posp : BitVec 64}
    {given : Option KBuf} {rc : Int}
    (h : (bridgeReadGeneric file hrdCode d count posp given env).sendRc = some rc) :
    (bridgeReadGeneric file hrdCode d count posp given env).waited = true := by
  rcases read_enters hrdCode count posp env given file d with
    ⟨rc', d', heq⟩ | ⟨d₁, e, t, kbuf, pooled, pam, flags, heq⟩
  · rw [heq] at h
    cases h
  · rw [heq] at h ⊢
    exact readInto_waited h

/-- An AB buffer whose request was offered to the card keeps its handler
linked. -/
theorem queueAB_list {sid : BitVec 32} {mapping : KBuf} {rc : Int}
    (h : (bufferABQueue file d sid mapping env).sendRc = some rc) :
    ∃ e, (bufferABQueue file d sid mapping env).device.list = d.list ++ [e] := by
  rw [bufferABQueue] at h ⊢
  split at h
  · cases h
  · rename_i e he
    simp only at h ⊢
    split at h
    · cases h
    · rename_i d' sendRc hpost
      exact ⟨e, (requested hpost).list⟩

/-- A release waits for the reply to its message, posted or not. -/
theorem release_waited {message : HostRequest} {rc : Int}
    (h : (bridgeReleaseMessage file d message env).sendRc = some rc) :
    (bridgeReleaseMessage file d message env).waited = true := by
  rw [bridgeReleaseMessage] at h ⊢
  split at h
  · cases h
  · simp only at h ⊢
    split at h
    · cases h
    · split
      · rfl
      · split <;> rfl

/-- No call whose request could not be posted fails cleanly. -/
theorem unsent_never_clean (file : File) (d : Device) (env : Env) (call : BridgeCall)
    (h : (call.run file d env).sendRc = some (-EACQ32_NO_INCOMING_I2O)) :
    ¬ FailsCleanly d call (call.run file d env) := by
  intro hclean
  cases call with
  | read hrdCode count posp given =>
    have hwaited := read_waited h
    exact absurd (hclean.waited.symm.trans hwaited) (by decide)
  | write hrdCode count posp =>
    obtain ⟨e, m, -, hlist, -⟩ := unsent_write h
    have hsame := hlist.symm.trans hclean.list
    simp at hsame
  | queueAB sid mapping =>
    obtain ⟨e, hlist⟩ := queueAB_list h
    have hsame := hlist.symm.trans hclean.list
    simp at hsame
  | release message =>
    have hwaited := release_waited h
    exact absurd (hclean.waited.symm.trans hwaited) (by decide)

/-- The inbound queue is empty when a client writes 100 bytes on a new
device. -/
theorem unsent_first_write :
    ((BridgeCall.write HRD_CHAN_IS_FILE 100 0).run onePage (poolCreate 0#16)
        ⟨false, none⟩).sendRc = some (-EACQ32_NO_INCOMING_I2O) ∧
      ¬ FailsCleanly (poolCreate 0#16) (.write HRD_CHAN_IS_FILE 100 0)
        ((BridgeCall.write HRD_CHAN_IS_FILE 100 0).run onePage (poolCreate 0#16)
          ⟨false, none⟩) :=
  have h : ((BridgeCall.write HRD_CHAN_IS_FILE 100 0).run onePage (poolCreate 0#16)
      ⟨false, none⟩).sendRc = some (-EACQ32_NO_INCOMING_I2O) := by decide
  ⟨h, unsent_never_clean _ _ _ _ h⟩

/-- The write returns 100 and moves the position, and its handler stays
linked. -/
theorem unsent_write_returns_count :
    ¬ (((BridgeCall.write HRD_CHAN_IS_FILE 100 0).run onePage (poolCreate 0#16)
        ⟨false, none⟩).sendRc = some (-EACQ32_NO_INCOMING_I2O) →
      FailsCleanly (poolCreate 0#16) (.write HRD_CHAN_IS_FILE 100 0)
        ((BridgeCall.write HRD_CHAN_IS_FILE 100 0).run onePage (poolCreate 0#16)
          ⟨false, none⟩)) := by
  intro h
  exact absurd (h (by decide)).posp (by decide)

/-! ## What the error returns give back -/

/-- The reserved flags of both pools are as before. -/
structure SameFlags (d d' : Device) : Prop where
  handlers : d'.handlers.reserved = d.handlers.reserved
  mappings : d'.mappings.reserved = d.mappings.reserved

/-- The call returns, and an error other than `-EINTR` leaves the flags as
they were. -/
def ReturnsFlags (d : Device) (o : Outcome) : Prop :=
  ∃ rc, o.rc = some rc ∧ (rc < 0 → rc ≠ -EINTR → SameFlags d o.device)

/-- `i2o_recycleRch` can recycle a handler that `buildRch` has not set up yet,
and the mapping of its last request is free. -/
structure RecyclesUnbuilt (d : Device) (e : Nat) : Prop where
  device : (d.rch e).device = true
  path : (d.rch e).path = none ∨ e ∈ d.list
  kbuf : ∀ m, Device.poolKbuf (d.rch e).rchReturn = some (.mapping m) →
    m < d.mappings.maxEntries → d.mappings.reserved m = false

/-- What a read needs from the length test on. -/
def ReadReturns (d : Device) (e : Nat) (kbuf : KBuf) (env : Env) : Prop :=
  if kbuf.len = 0 then RecyclesUnbuilt d e
  else e ∉ d.list ∧
    ¬ (env.mfa = true ∧ ∃ start, env.reply = some (start, 0xffffffff#32))

/-- What each call needs so that its error returns give back what it took. -/
def ExitsClean (file : File) (d : Device) (env : Env) (e : Nat) : BridgeCall → Prop
  | .read _ _ _ (some kbuf) => ReadReturns d e kbuf env
  | .read _ _ _ none =>
    match allocAlone d.mappings with
    | none => RecyclesUnbuilt d e
    | some m => ReadReturns d e (file.kbuf m) env
  | .write _ count _ =>
    match allocAlone d.mappings with
    | none => RecyclesUnbuilt d e
    | some m => (file.kbuf m).clip count ≠ 0 ∧ e ∉ d.list
  | .queueAB _ _ => True
  | .release _ => True

/-- Freeing the mapping of a handler changes no flag exactly when that
mapping is free. -/
theorem freePooled_reserved {k : Option Kbuf} {p : Pool} :
    (freePooled k p).reserved = p.reserved ↔
      ∀ m, k = some (.mapping m) → m < p.maxEntries → p.reserved m = false := by
  rcases k with _ | ⟨m | _⟩
  · simp [freePooled]
  · simp only [freePooled, Option.some.injEq, Kbuf.mapping.injEq, forall_eq']
    constructor
    · intro h hlt
      rw [← h]
      exact Pool.free_reserved_self p hlt
    · intro h
      funext other
      by_cases heq : other = m
      · rw [heq]
        by_cases hlt : m < p.maxEntries
        · rw [Pool.free_reserved_self p hlt, h hlt]
        · rw [Pool.free, if_neg hlt]
      · exact Pool.free_reserved_of_ne p heq
  · simp [freePooled]

@[simp] theorem freePooled_maxEntries (k : Option Kbuf) (p : Pool) :
    (freePooled k p).maxEntries = p.maxEntries := by
  rcases k with _ | ⟨m | _⟩ <;> simp [freePooled]

/-- A free only ever clears a flag. -/
theorem freePooled_reserved_false {k : Option Kbuf} {p : Pool} {n : Nat}
    (h : p.reserved n = false) : (freePooled k p).reserved n = false := by
  rcases k with _ | ⟨m | _⟩
  · exact h
  · by_contra hne
    have := Pool.reserved_of_free (Bool.of_not_eq_false hne)
    rw [h] at this
    cases this
  · exact h

/-- The call's own mapping is back where it was when the call frees it. -/
theorem freePooled_take_free {k : Option Kbuf} {p : Pool}
    (hm : p.reserved m = false ∧ m < p.maxEntries) :
    ((freePooled k (p.take m)).free m).reserved = (freePooled k p).reserved := by
  funext other
  by_cases heq : other = m
  · rw [heq, freePooled_reserved_false hm.1]
    apply Pool.free_reserved_self
    rw [freePooled_maxEntries]
    exact hm.2
  · rw [Pool.free_reserved_of_ne _ heq]
    have htake : (p.take m).reserved other = p.reserved other := by
      rw [Pool.take_reserved, Function.update_of_ne heq]
    rcases k with _ | ⟨n | _⟩
    · exact htake
    · simp only [freePooled]
      by_cases hn : other = n
      · rw [hn] at htake ⊢
        by_cases hlt : n < p.maxEntries
        · rw [Pool.free_reserved_self p hlt]
          exact Pool.free_reserved_self (p.take m) hlt
        · have hlt' : ¬ n < (p.take m).maxEntries := hlt
          rw [Pool.free, if_neg hlt', Pool.free, if_neg hlt]
          exact htake
      · rw [Pool.free_reserved_of_ne _ hn, Pool.free_reserved_of_ne _ hn]
        exact htake
    · exact htake

/-! ## Error returns before `buildRch` -/

section Unbuilt

variable {posp : BitVec 64}

/-- An early return that recycles a handler that is not built. -/
theorem recycleUnbuilt_returnsFlags (d₁ : Device) (rc : Int) (next : Device → Device)
    (he : d.handlers.reserved e = false)
    (hlt : e < d.handlers.maxEntries) (hrch : d₁.rch = d.rch) (hlist : d₁.list = d.list)
    (hhandlers : d₁.handlers = d.handlers.take e) (hneg : rc < 0) (hintr : rc ≠ -EINTR)
    (hnext : ∀ d', (next d').handlers = d'.handlers)
    (hmaps : ∀ d', d'.mappings = freePooled (Device.poolKbuf (d.rch e).rchReturn) d₁.mappings →
      ((next d').mappings.reserved = d.mappings.reserved ↔
        ∀ m, Device.poolKbuf (d.rch e).rchReturn = some (.mapping m) →
          m < d.mappings.maxEntries → d.mappings.reserved m = false)) :
    ReturnsFlags d (recycleUnbuilt d₁ e t posp fun d =>
        Outcome.early (some rc) (next d) posp) ↔ RecyclesUnbuilt d e := by
  cases hrec : d₁.i2oRecycleRch e t with
  | none =>
    refine iff_of_false ?_ ?_
    · rintro ⟨rc', hrc', -⟩
      rw [recycleUnbuilt, hrec] at hrc'
      cases hrc'
    · intro h
      obtain ⟨d', hsome⟩ := (Device.recycle_isSome (d := d₁) (e := e) (t := t)).mpr
        (by rw [hrch, hlist]; exact ⟨h.path, h.device⟩)
      rw [hrec] at hsome
      cases hsome
  | some d' =>
    have hok := Device.recycle_isSome.mp ⟨d', hrec⟩
    rw [hrch, hlist] at hok
    have hd' : d'.mappings = freePooled (Device.poolKbuf (d.rch e).rchReturn) d₁.mappings := by
      rw [recycled_mappings hrec, hrch]
    have hflags : (next d').handlers.reserved = d.handlers.reserved := by
      rw [hnext, (Device.recycled hrec).handlers, hhandlers]
      exact Pool.take_free_reserved ⟨he, hlt⟩
    have hout : recycleUnbuilt d₁ e t posp (fun d =>
        Outcome.early (some rc) (next d) posp) = Outcome.early (some rc) (next d') posp := by
      rw [recycleUnbuilt, hrec]
    rw [hout]
    constructor
    · rintro ⟨rc', hrc', hsame⟩
      cases hrc'
      exact ⟨hok.2, hok.1, (hmaps d' hd').mp (hsame hneg hintr).mappings⟩
    · intro h
      exact ⟨rc, rfl, fun _ _ => ⟨hflags, (hmaps d' hd').mpr h.kbuf⟩⟩

end Unbuilt

/-! ## Reads and writes -/

section Exits

variable {hrdCode : BitVec 16} {count : Nat} {posp : BitVec 64} {kbuf : KBuf}
  {pooled : Kbuf} {pam : BitVec 32} {flags : Nat} {d₁ : Device}

/-- A read past the length test: it returns unless its handler is linked or
the reply is an error, and what it took is free again when it returns
data. -/
theorem readInto_returnsFlags (hlen : kbuf.len ≠ 0) (hlist : d₁.list = d.list)
    (hhandlers : (d₁.handlers.free e).reserved = d.handlers.reserved)
    (hmappings : (freePooled (pooledOf pooled flags) d₁.mappings).reserved
      = d.mappings.reserved) :
    ReturnsFlags d
        (readInto file hrdCode d₁ count posp env e t kbuf pooled pam flags) ↔
      ReadReturns d e kbuf env := by
  rw [ReadReturns, if_neg hlen, ← hlist]
  by_cases hlinked : e ∈ d₁.list
  · refine iff_of_false ?_ fun h => h.1 hlinked
    rintro ⟨rc, hrc, -⟩
    rw [(readInto_linked hlen hlinked).1] at hrc
    cases hrc
  · by_cases hsignal : env.mfa = false ∨ env.reply = none
    · refine iff_of_true ⟨-EINTR, (readInto_signal hlen hlinked hsignal).1, ?_⟩ ⟨hlinked, ?_⟩
      · intro _ hne
        exact absurd rfl hne
      · rintro ⟨hmfa, start, hreply⟩
        rcases hsignal with h | h
        · rw [h] at hmfa
          cases hmfa
        · rw [h] at hreply
          cases hreply
    · have hmfa : env.mfa = true := Bool.of_not_eq_false fun h => hsignal (Or.inl h)
      obtain ⟨⟨start, nsamples⟩, hreply⟩ : ∃ p, env.reply = some p :=
        Option.ne_none_iff_exists'.mp fun h => hsignal (Or.inr h)
      by_cases hn : nsamples = 0xffffffff#32
      · rw [hn] at hreply
        refine iff_of_false ?_ fun h => h.2 ⟨hmfa, start, hreply⟩
        rintro ⟨rc, hrc, -⟩
        rw [(readInto_error hlen hlinked hmfa hreply).1] at hrc
        cases hrc
      · have hdata : ReadData
            (readInto file hrdCode d₁ count posp env e t kbuf pooled pam flags) d₁ e posp
            kbuf (pooledOf pooled flags) (readRequest file hrdCode count posp kbuf pam)
            nsamples := readInto_data hlen hlinked hmfa hreply hn
        refine iff_of_true ⟨_, hdata.rc, fun _ _ => ⟨?_, ?_⟩⟩ ⟨hlinked, ?_⟩
        · rw [hdata.handlers]
          exact hhandlers
        · rw [hdata.mappings]
          exact hmappings
        · rintro ⟨-, start', hreply'⟩
          rw [hreply] at hreply'
          cases hreply'
          exact hn rfl

theorem read_given_returnsFlags (he : allocAlone d.handlers = some e) :
    ReturnsFlags d (bridgeReadGeneric file hrdCode d count posp (some kbuf) env) ↔
      ReadReturns d e kbuf env := by
  have hfree := allocAlone_found he
  rw [read_given _ _ _ _ he]
  by_cases hlen : kbuf.len = 0
  · rw [readInto, if_pos hlen, ReadReturns, if_pos hlen]
    refine recycleUnbuilt_returnsFlags (d.poolAllocRch e file.path) (-ENOMEM) (fun d => d)
      hfree.1 hfree.2 rfl rfl rfl (by decide) (by decide) (fun _ => rfl) fun d' hd' => ?_
    show d'.mappings.reserved = _ ↔ _
    rw [hd']
    exact freePooled_reserved
  · exact readInto_returnsFlags hlen rfl (Pool.take_free_reserved hfree) rfl

theorem read_pool_returnsFlags (he : allocAlone d.handlers = some e)
    (hm : allocAlone d.mappings = some m) :
    ReturnsFlags d (bridgeReadGeneric file hrdCode d count posp none env) ↔
      ReadReturns d e (file.kbuf m) env := by
  have hfree := allocAlone_found he
  have hmap := allocAlone_found hm
  rw [read_pool _ _ _ _ he hm]
  by_cases hlen : (file.kbuf m).len = 0
  · rw [readInto, if_pos hlen, ReadReturns, if_pos hlen]
    refine recycleUnbuilt_returnsFlags (granted file d e m) (-ENOMEM)
      (fun d => d.poolFreeMapping (.mapping m)) hfree.1 hfree.2 rfl rfl rfl (by decide)
      (by decide) (fun _ => rfl) fun d' hd' => ?_
    show (d'.mappings.free m).reserved = _ ↔ _
    rw [hd']
    show ((freePooled _ (d.mappings.take m)).free m).reserved = _ ↔ _
    rw [freePooled_take_free hmap]
    exact freePooled_reserved
  · exact readInto_returnsFlags hlen rfl (Pool.take_free_reserved hfree)
      (Pool.take_free_reserved hmap)

/-- A call that finds no free mapping. -/
theorem no_mapping_returnsFlags (he : allocAlone d.handlers = some e) :
    ReturnsFlags d (recycleUnbuilt (d.poolAllocRch e file.path) e t posp fun d =>
        Outcome.early (some (-ETIMEDOUT)) d posp) ↔ RecyclesUnbuilt d e := by
  have hfree := allocAlone_found he
  refine recycleUnbuilt_returnsFlags (d.poolAllocRch e file.path) (-ETIMEDOUT) (fun d => d)
    hfree.1 hfree.2 rfl rfl rfl (by decide) (by decide) (fun _ => rfl) fun d' hd' => ?_
  show d'.mappings.reserved = _ ↔ _
  rw [hd']
  exact freePooled_reserved

theorem write_returnsFlags (he : allocAlone d.handlers = some e)
    (hm : allocAlone d.mappings = some m) :
    ReturnsFlags d (bridgeWriteGeneric file hrdCode d count posp env) ↔
      (file.kbuf m).clip count ≠ 0 ∧ e ∉ d.list := by
  have hfree := allocAlone_found he
  by_cases hn : (file.kbuf m).clip count = 0
  · refine iff_of_false ?_ fun h => h.1 hn
    rw [write_no_bytes _ _ _ _ he hm hn]
    rintro ⟨rc, hrc, hsame⟩
    cases hrc
    -- The handler was free at entry and is reserved now.
    have hflag := congrFun (hsame (by decide) (by decide)).handlers e
    have htaken : (granted file d e m).handlers.reserved e = true := by
      show (d.handlers.take e).reserved e = true
      rw [Pool.take_reserved, Function.update_self]
    rw [Outcome.early, htaken, hfree.1] at hflag
    cases hflag
  · by_cases hlinked : e ∈ d.list
    · refine iff_of_false ?_ fun h => h.2 hlinked
      rintro ⟨rc, hrc, -⟩
      rw [(write_linked hrdCode count posp env he hm hn hlinked).1] at hrc
      cases hrc
    · obtain ⟨d', rc, -, heq⟩ := write_sent hrdCode count posp env he hm hn hlinked
      rw [heq]
      refine iff_of_true ⟨_, rfl, fun hneg => ?_⟩ ⟨hn, hlinked⟩
      exact absurd hneg (Int.not_lt.mpr (Int.natCast_nonneg _))

/-- The calls of the two transfer functions. -/
def BridgeCall.Transfers : BridgeCall → Prop
  | .read _ _ _ _ => True
  | .write _ _ _ => True
  | _ => False

/-- A read or a write returns, and gives back what it took on every error
other than `-EINTR`, exactly when it finds no handler or `ExitsClean` holds
of the handler that it finds. -/
theorem returns_flags_iff (file : File) (d : Device) (env : Env) (call : BridgeCall)
    (htransfer : call.Transfers) :
    ReturnsFlags d (call.run file d env) ↔
      ∀ e, allocAlone d.handlers = some e → ExitsClean file d env e call := by
  cases he : allocAlone d.handlers with
  | none =>
    refine iff_of_true ?_ (by simp)
    cases call with
    | read hrdCode count posp given =>
      refine ⟨-ETIMEDOUT, ?_, fun _ _ => ?_⟩ <;>
        rw [BridgeCall.run, read_no_handler _ _ _ _ _ he]
      · rfl
      · exact ⟨rfl, rfl⟩
    | write hrdCode count posp =>
      refine ⟨-ETIMEDOUT, ?_, fun _ _ => ?_⟩ <;>
        rw [BridgeCall.run, write_no_handler _ _ _ _ he]
      · rfl
      · exact ⟨rfl, rfl⟩
    | queueAB sid mapping => exact htransfer.elim
    | release message => exact htransfer.elim
  | some e =>
    simp only [Option.some.injEq, forall_eq']
    cases call with
    | read hrdCode count posp given =>
      cases given with
      | some kbuf => exact read_given_returnsFlags he
      | none =>
        rw [BridgeCall.run, ExitsClean]
        cases hm : allocAlone d.mappings with
        | none =>
          rw [read_no_mapping _ _ _ _ he hm]
          exact no_mapping_returnsFlags he
        | some m => exact read_pool_returnsFlags he hm
    | write hrdCode count posp =>
      rw [BridgeCall.run, ExitsClean]
      cases hm : allocAlone d.mappings with
      | none =>
        rw [write_no_mapping _ _ _ _ he hm]
        exact no_mapping_returnsFlags he
      | some m => exact write_returnsFlags he hm
    | queueAB sid mapping => exact htransfer.elim
    | release message => exact htransfer.elim

/-- A write of 100 bytes on a new device. -/
theorem first_write_returns_flags :
    ReturnsFlags (poolCreate 0#16) ((BridgeCall.write HRD_CHAN_IS_FILE 100 0).run onePage
      (poolCreate 0#16) ⟨true, none⟩) := by
  refine (returns_flags_iff onePage (poolCreate 0#16) ⟨true, none⟩
    (.write HRD_CHAN_IS_FILE 100 0) trivial).mpr ?_
  intro e _
  exact ⟨by decide, List.not_mem_nil⟩

/-- A write of no bytes keeps a handler and a mapping. -/
theorem empty_write_leaks :
    ¬ ReturnsFlags (poolCreate 0#16) ((BridgeCall.write HRD_CHAN_IS_FILE 0 0).run onePage
      (poolCreate 0#16) ⟨true, none⟩) := by
  rintro ⟨rc, hrc, hsame⟩
  have hrc' : rc = -ENOMEM := (Option.some.inj hrc).symm
  have hflags := hsame (by rw [hrc']; decide) (by rw [hrc']; decide)
  exact absurd (congrFun hflags.mappings 1) (by decide)

end Exits

end Acq200.Bridge
