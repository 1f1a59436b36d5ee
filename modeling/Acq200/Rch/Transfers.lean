import Acq200.Lib.Splice
import Acq200.Rch.DmaTarget

/-!
# The data of the transfers

The four mappings of the pool are pieces of one DMA buffer, one behind the
other, and the last of them holds the message frames.  A write copies from
its user into its mapping before the message is built, and the card takes the
bytes from there whenever it gets to the message.  For a read the card moves
the bytes into the mapping before it answers, and the client copies them to
its user after the reply.  Each of these copies is made in any number of
pieces, between the steps of all the others.

`data_intact` proves for every run that frees no mapping too early, with a
card that moves what it says, that no copy ever gets a byte of another
request: the user of a read gets what the card has moved for this read, the
card gets what the user of the write has passed, and nothing of it goes to
the message frames.

All fields of `Sys` but `rch` and `memory` are ghost.
-/

namespace Acq200.Transfers

open Acq200.Lib Acq200.Rch
open Acq200.Rch.Device

/-! ## The DMA buffer and the copies -/

structure Sys where
  rch : Rch.Sys
  /-- The DMA buffer.  Mapping `m` begins at `m` times the length of a mapping. -/
  memory : Nat → UInt8
  /-- The operation whose message was sent for the request. -/
  op : Tag → Op
  /-- What a write has copied from its user, or what the card has moved for
  a read. -/
  data : Tag → List UInt8
  /-- What a read has copied to its user. -/
  returned : Tag → List UInt8
  /-- What the card has taken for a write. -/
  taken : Tag → List UInt8

inductive Label where
  | rch (l : Rch.Label)
  /-- A piece of `acq200_copy_from_user_to_io`. -/
  | copyFromUser (c : Nat) (bytes : List UInt8)
  /-- A piece of `acq200_copy_from_io_to_user`. -/
  | copyToUser (c : Nat) (n : Nat)
  /-- The card moves bytes for the `n`-th message that it has. -/
  | move (n : Nat) (bytes : List UInt8)
  /-- The card takes `k` bytes for the `n`-th message that it has. -/
  | take (n k : Nat)
  deriving DecidableEq

namespace Sys

/-- More data for the request `t`. -/
def grown (s : Sys) (memory : Nat → UInt8) (t : Tag) (bytes : List UInt8) : Sys :=
  { s with memory := memory, data := Function.update s.data t (s.data t ++ bytes) }

/-- Bytes for the request `t` go into mapping `m`, behind those before them. -/
def put (len : Nat) (s : Sys) (t : Tag) (m : Nat) (bytes : List UInt8) : Sys :=
  s.grown (splice s.memory (m * len + (s.data t).length) bytes) t bytes

/-- The next bytes of mapping `m`, behind those that `seen` has. -/
def next (len : Nat) (s : Sys) (m : Nat) (seen : List UInt8) (n : Nat) : List UInt8 :=
  seen ++ slice s.memory (m * len + seen.length) n

/-- The operation of a message is known when it is sent. -/
def noteOp (s : Sys) : Rch.Label → Tag → Op
  | .send c _ =>
    match (s.rch.clients c).pc with
    | .send op _ t _ _ => Function.update s.op t op
    | _ => s.op
  | _ => s.op

def copyFromUser (len : Nat) (s : Sys) (bytes : List UInt8) : Pc → Option Sys
  | .build .write _ t (some (.mapping m)) =>
    if (s.data t).length + bytes.length ≤ len then some (s.put len t m bytes) else none
  | _ => none

def copyToUser (len : Nat) (s : Sys) (n : Nat) : Pc → Option Sys
  | .recycleRead e t =>
    let r := (s.rch.dev.rch e).rchReturn
    match poolKbuf r with
    | some (.mapping m) =>
      if r.valid = 1 ∧ (s.returned t).length + n ≤ r.nbytes.toNat then
        some { s with
          returned := Function.update s.returned t (s.next len m (s.returned t) n) }
      else none
    | _ => none
  | _ => none

/-- The data of a message without a mapping are not in the DMA buffer. -/
def move (len : Nat) (s : Sys) (p : Posted) (bytes : List UInt8) : Option Sys :=
  if s.op p.request = .write then none
  else
    match p.target with
    | none => some (s.grown s.memory p.request bytes)
    | some m =>
      if (s.data p.request).length + bytes.length ≤ len then some (s.put len p.request m bytes)
      else none

def take (len : Nat) (s : Sys) (p : Posted) (k : Nat) : Option Sys :=
  match p.target with
  | none => none
  | some m =>
    if s.op p.request = .write ∧
        (s.taken p.request).length + k ≤ (s.data p.request).length then
      some { s with
        taken := Function.update s.taken p.request (s.next len m (s.taken p.request) k) }
    else none

end Sys

/-- A step, with mappings of `len` bytes. -/
def step (len : Nat) (l : Label) (s : Sys) : Option Sys :=
  match l with
  | .rch l => (Rch.Sys.step l s.rch).map fun rch => { s with rch := rch, op := s.noteOp l }
  | .copyFromUser c bytes => s.copyFromUser len bytes (s.rch.clients c).pc
  | .copyToUser c n => s.copyToUser len n (s.rch.clients c).pc
  | .move n bytes => s.rch.unanswered[n]?.bind fun p => s.move len p bytes
  | .take n k => s.rch.unanswered[n]?.bind fun p => s.take len p k

/-- A device with no file open. -/
def initial (lastId : BitVec 16) (memory : Nat → UInt8) : Sys :=
  { rch := Rch.initial lastId, memory := memory, op := fun _ => .release
    data := fun _ => [], returned := fun _ => [], taken := fun _ => [] }

/-! ## The contract -/

/-- The data of the request lie in the mapping. -/
def Lies (len : Nat) (s : Sys) (t : Tag) (m : Nat) : Prop :=
  (s.data t).length ≤ len ∧ slice s.memory (m * len) (s.data t).length = s.data t

structure DataIntact (len : Nat) (memory : Nat → UInt8) (s : Sys) : Prop where
  /-- The user of a read gets what the card has moved for it. -/
  returned : ∀ t, s.returned t <+: s.data t
  /-- The card gets what the user of a write has passed. -/
  taken : ∀ t, s.taken t <+: s.data t
  /-- What the card has moved or is going to take is where its message says. -/
  waiting : ∀ p ∈ s.rch.unanswered, ∀ m ∈ p.target, Lies len s p.request m
  /-- A read that has got its reply finds all the bytes that the reply speaks
  of. -/
  ready : ∀ c e t m, (s.rch.clients c).pc = .recycleRead e t →
    poolKbuf (s.rch.dev.rch e).rchReturn = some (.mapping m) →
    slice s.memory (m * len) (s.rch.dev.rch e).rchReturn.nbytes.toNat
      = (s.data t).take (s.rch.dev.rch e).rchReturn.nbytes.toNat
  frames : ∀ i, MSG_MAPPING * len ≤ i → i < NMAPPINGS * len → s.memory i = memory i

/-- A reply says no more than what the card has moved. -/
def CardHonest (s : Sys) : Rch.Label → Prop
  | .dispatch n _ nsamples =>
    ∀ p ∈ s.rch.replies[n]?, saidBytes nsamples ≤ (s.data p.request).length
  | _ => True

/-- The driver frees no mapping too early, and the card is honest. -/
def Safe (l : Label) (s : Sys) : Prop :=
  match l with
  | .rch l => TargetsSafe l s.rch ∧ CardHonest s l
  | _ => True

instance (s : Sys) : ∀ l : Rch.Label, Decidable (CardHonest s l)
  | .dispatch n _ nsamples => inferInstanceAs
    (Decidable (∀ p ∈ s.rch.replies[n]?, saidBytes nsamples ≤ (s.data p.request).length))
  | .openFile _ _ | .call _ _ | .go _ | .check _ _ | .send _ _ | .wake _ | .timeout _
  | .signal _ | .answer _ => inferInstanceAs (Decidable True)

instance : ∀ (l : Label) (s : Sys), Decidable (Safe l s)
  | .rch l, s => inferInstanceAs (Decidable (TargetsSafe l s.rch ∧ CardHonest s l))
  | .copyFromUser _ _, _ | .copyToUser _ _, _ | .move _ _, _ | .take _ _, _ =>
    inferInstanceAs (Decidable True)

/-! ## The invariant -/

/-- What a client relies on about the data of its request. -/
def PcData (len : Nat) (s : Sys) : Pc → Prop
  | .allocMapping _ _ t _ | .checkLen _ _ t _ => s.data t = []
  | .build _ _ t (some (.mapping m)) => Lies len s t m
  | _ => True

structure DataInv (len : Nat) (memory : Nat → UInt8) (s : Sys) : Prop where
  fresh : ∀ t, s.rch.dev.allocs ≤ t.seq → s.data t = []
  pc : ∀ c, PcData len s (s.rch.clients c).pc
  lies : ∀ e t m, Carries s.rch.dev e t m →
    Lies len s t m ∧ (s.rch.dev.rch e).rchReturn.nbytes.toNat ≤ (s.data t).length
  returned : ∀ t, s.returned t <+: s.data t
  taken : ∀ t, s.taken t <+: s.data t
  frames : ∀ i, MSG_MAPPING * len ≤ i → i < NMAPPINGS * len → s.memory i = memory i

/-- The mapping of the message frames stays out of the pool. -/
structure FramesApart (s : Rch.Sys) : Prop where
  reserved : s.dev.mappings.reserved MSG_MAPPING = true
  owner : s.dev.mappingOwner MSG_MAPPING = none
  kbuf : ∀ e, poolKbuf (s.dev.rch e).rchReturn ≠ some (.mapping MSG_MAPPING)

/-- The handler that the client has built goes with the mapping that its
message is going to name. -/
def NamedPc (d : Device) (pc : Pc) : Prop :=
  ∀ entry t kbuf, pc.built = some (entry, t, kbuf) →
    ∀ e m, Carries d e t m → kbuf = some (.mapping m)

/-- The handler of a message goes with the mapping that the message names. -/
structure Named (s : Rch.Sys) : Prop where
  sent : ∀ p ∈ s.unanswered ++ s.replies, ∀ e m, Carries s.dev e p.request m →
    p.target = some m
  built : ∀ c, NamedPc s.dev (s.clients c).pc

structure Inv (len : Nat) (memory : Nat → UInt8) (s : Sys) : Prop where
  own : OwnInv s.rch
  dma : DmaInv s.rch
  apart : FramesApart s.rch
  named : Named s.rch
  data : DataInv len memory s

/-! ## The handlers and the mappings in a step -/

section Handlers

variable {l : Rch.Label} {s s' : Rch.Sys} {d d' : Device} {c e m : Nat} {t : Tag}

/-- A recycle leaves the handlers that have a mapping as they are. -/
theorem carries_recycled {entry : Nat} {caller : Tag} (hrec : Recycled d d' entry caller)
    (hc : Carries d' e t m) :
    Carries d e t m ∧ (d'.rch e).rchReturn = (d.rch e).rchReturn := by
  have hne : e ≠ entry := by
    rintro rfl
    have ho := hc.1
    rw [hrec.owner] at ho
    cases ho
  obtain ⟨hrch, howner, _⟩ := hrec.keeps e hne
  rw [Carries, hrch, howner] at hc
  exact ⟨hc, by rw [hrch]⟩

theorem buildRch_return (handler : Handler) (kbuf : Option Kbuf) (flags : Nat) :
    ((d.buildRch e handler c kbuf flags t).rch e).rchReturn =
      { (d.rch e).rchReturn with valid := 0, nbytes := 0, kbuf := kbuf, flags := flags } := by
  rw [buildRch, setRch_rch_self]

/-- A built handler goes with no mapping but its own. -/
theorem kbuf_of_build {handler : Handler} {kbuf : Option Kbuf} {flags : Nat}
    (h : poolKbuf ((d.buildRch e handler c kbuf flags t).rch e).rchReturn = some (.mapping m)) :
    kbuf = some (.mapping m) := by
  rw [buildRch_return, poolKbuf] at h
  split at h
  · exact h
  · cases h

/-- What a step can do to a handler with a mapping.  It leaves the handler as
it is, builds it, or tells it of the reply to its own message. -/
theorem carries_trans (hown : OwnInv s) (hok : TargetsSafe l s) (ht : Trans l s s')
    (hc : Carries s'.dev e t m) :
    Carries s.dev e t m ∧ (s'.dev.rch e).rchReturn = (s.dev.rch e).rchReturn ∨
      (∃ c op, (s.clients c).pc = .build op e t (some (.mapping m)) ∧
        (s'.dev.rch e).rchReturn.nbytes = 0) ∨
      ∃ n start nsamples p, l = .dispatch n start nsamples ∧ s.replies[n]? = some p ∧
        p.request = t ∧ Carries s.dev e t m ∧
        (s'.dev.rch e).rchReturn = setSamples (s.dev.rch e).rchReturn start nsamples := by
  cases ht with
  | oops | neutral _ _ _ _ _ | sleepMapping _ _ | failMapping _ _ | failLen _ _ | passLen _ _
  | endWaitRead _ _ | endWaitLast _ _ | foundValid _ _ | allocMapping _ _ _ _ | answer _ =>
    exact Or.inl ⟨hc, rfl⟩
  | @allocRch _ _ c op asleep entry client hl hpc hfree hlt hnext hslots =>
    refine Or.inl ⟨?_, rfl⟩
    have hne : e ≠ entry := by
      rintro rfl
      have hsome : (s.dev.rch e).path.isSome = true := hc.2.1
      rw [hown.dev.free_path e (hown.dev.owner_none hfree)] at hsome
      cases hsome
    have ho : Function.update s.dev.owner entry (some ⟨c, s.dev.allocs⟩) e = some t := hc.1
    rw [Function.update_of_ne hne] at ho
    exact ⟨ho, hc.2⟩
  | @freeMapping _ c kbuf hpc =>
    cases kbuf with
    | mapping freed => exact Or.inl ⟨hc, rfl⟩
    | other => exact Or.inl ⟨hc, rfl⟩
  | @build _ c op entry t' kbuf client hpc hnext hslots =>
    have hc : Carries (s.dev.buildRch entry op.handler c kbuf op.flags t') e t m := hc
    by_cases heq : e = entry
    · rw [heq] at hc ⊢
      refine Or.inr (Or.inl ⟨c, op, ?_, ?_⟩)
      · obtain rfl := Option.some.inj ((hown.pcInv hpc).2.1.1.symm.trans hc.1)
        rw [hpc, kbuf_of_build hc.2.2]
      · exact congrArg _ (buildRch_return _ _ _)
    · obtain ⟨hrch, howner, _⟩ := keepsOthers_setRch s.dev entry _ e heq
      rw [Carries, buildRch, hrch, howner] at hc
      exact Or.inl ⟨hc, congrArg _ hrch⟩
  | append hpc hd =>
    rw [rchAppend] at hd
    split at hd
    · cases hd
    · obtain rfl := Option.some.inj hd
      exact Or.inl ⟨hc, rfl⟩
  | @send _ c op entry t' kbuf predicted mfa hpc =>
    cases mfa with
    | true => exact Or.inl ⟨hc, rfl⟩
    | false => exact Or.inl ⟨hc, rfl⟩
  | @removeIfNotValid _ c entry t' d valid hpc hd =>
    obtain ⟨_, hk, _, hcases⟩ := removeIfNotValid_cases hown.dev (hown.pcInv hpc).2 hd
    have howner := (samePools_removeIfNotValid hd).owner
    have hsame : (d.rch e).path = (s.dev.rch e).path ∧
        (d.rch e).rchReturn = (s.dev.rch e).rchReturn := by
      by_cases heq : e = entry
      · rw [heq]
        rcases hcases with ⟨_, rfl⟩ | ⟨_, _, hrch, _⟩
        · exact ⟨rfl, rfl⟩
        · rw [hrch]
          exact ⟨rfl, rfl⟩
      · rw [(hk e heq).1]
        exact ⟨rfl, rfl⟩
    refine Or.inl ⟨?_, hsame.2⟩
    rw [Carries, ← hsame.1, ← hsame.2, ← howner]
    exact hc
  | recycleUnbuilt hpc hd | recycleRead hpc hd | recycleLast hpc hd | cleanup hpc he hd
  | recycleAB hpc hslot hd hslots hfree hopen =>
    exact Or.inl (carries_recycled (Device.recycled hd) hc)
  | @dispatch _ n p d start nsamples hp hd =>
    rcases dispatch_cases hown.dev hd with ⟨_, rfl⟩ | ⟨entry, hfind, hcase⟩
    · exact Or.inl ⟨hc, rfl⟩
    · rcases hcase with ⟨_, rfl⟩ | ⟨_, hrec⟩
      · by_cases heq : e = entry
        · rw [heq] at hc ⊢
          obtain ⟨ho, hsome, hkbuf⟩ := hc
          rw [setRch_rch_self] at hsome hkbuf
          have hreturn := setRch_rch_self s.dev entry { s.dev.rch entry with
            rchReturn := setSamples (s.dev.rch entry).rchReturn start nsamples }
          refine Or.inr (Or.inr ⟨n, start, nsamples, p, rfl, hp, ?_, ⟨ho, hsome, ?_⟩, ?_⟩)
          · have hlisted := (hown.dev.listed entry (findRch_mem hfind).1).1
            rw [hok.reply p hp entry hfind] at hlisted
            exact Option.some.inj (hlisted.symm.trans ho)
          · exact (poolKbuf_setSamples _ _ _) ▸ hkbuf
          · exact congrArg _ hreturn
        · obtain ⟨hrch, howner, _⟩ := keepsOthers_setRch s.dev entry { s.dev.rch entry with
            rchReturn := setSamples (s.dev.rch entry).rchReturn start nsamples } e heq
          rw [Carries, hrch, howner] at hc
          exact Or.inl ⟨hc, congrArg _ hrch⟩
      · exact Or.inl (carries_recycled hrec hc)

/-- A read that has its reply still has its mapping. -/
theorem carries_of_recycleRead (hown : OwnInv s) (hpc : (s.clients c).pc = .recycleRead e t)
    (hkbuf : poolKbuf (s.dev.rch e).rchReturn = some (.mapping m)) : Carries s.dev e t m := by
  rcases (hown.pcInv hpc).2 with hlive | ⟨ho, _, hpath⟩
  · exact ⟨hlive.1, hlive.2.2.1 ▸ rfl, hkbuf⟩
  · exact ⟨ho, hpath, hkbuf⟩

theorem framesApart_initial (lastId : BitVec 16) : FramesApart (Rch.initial lastId) where
  reserved := rfl
  owner := rfl
  kbuf := fun _ => by simp [Rch.initial, poolCreate, clearedRch, poolKbuf]

/-- A step on the handlers. -/
theorem FramesApart.handlers (h : FramesApart s) (hmappings : s'.dev.mappings = s.dev.mappings)
    (howner : s'.dev.mappingOwner = s.dev.mappingOwner)
    (hkbuf : ∀ e, poolKbuf (s'.dev.rch e).rchReturn = poolKbuf (s.dev.rch e).rchReturn ∨
      poolKbuf (s'.dev.rch e).rchReturn ≠ some (.mapping MSG_MAPPING)) : FramesApart s' where
  reserved := by
    rw [hmappings]
    exact h.reserved
  owner := by
    rw [howner]
    exact h.owner
  kbuf := by
    intro e
    rcases hkbuf e with hsame | hne
    · rw [hsame]
      exact h.kbuf e
    · exact hne

theorem FramesApart.recycled {caller : Tag} (h : FramesApart s)
    (hrec : Recycled s.dev s'.dev e caller) : FramesApart s' := by
  have hkbuf : ∀ other, poolKbuf (s'.dev.rch other).rchReturn
      = poolKbuf (s.dev.rch other).rchReturn := by
    intro other
    by_cases heq : other = e
    · rw [heq]
      exact hrec.kbuf
    · rw [(hrec.keeps other heq).1]
  rcases mappings_recycled hrec with ⟨freed, hfreed, hpool, howner⟩ | ⟨hpool, howner⟩
  · have hne : MSG_MAPPING ≠ freed := fun heq => h.kbuf e (heq ▸ hfreed)
    refine ⟨?_, ?_, fun other => (hkbuf other).symm ▸ h.kbuf other⟩
    · rw [hpool, Pool.free_reserved_of_ne _ hne]
      exact h.reserved
    · rw [howner, Function.update_of_ne hne]
      exact h.owner
  · exact h.handlers hpool howner fun other => Or.inl (hkbuf other)

/-- A mapping that is held is none of the message frames. -/
theorem FramesApart.ne (h : FramesApart s) (hheld : Held s.dev m t) : MSG_MAPPING ≠ m := by
  rintro rfl
  have ho := hheld.2
  rw [h.owner] at ho
  cases ho

theorem FramesApart.trans (h : FramesApart s) (hown : OwnInv s) (hdma : DmaInv s)
    (ht : Trans l s s') : FramesApart s' := by
  cases ht with
  | oops | neutral _ _ _ _ _ | sleepMapping _ _ | failMapping _ _ | failLen _ _ | passLen _ _
  | endWaitRead _ _ | endWaitLast _ _ | foundValid _ _ | allocRch _ _ _ _ _ _ | answer _ =>
    exact ⟨h.reserved, h.owner, h.kbuf⟩
  | @allocMapping _ _ c op e t asleep m hl hpc hfree hlt =>
    have hne : MSG_MAPPING ≠ m := by
      rintro rfl
      rw [h.reserved] at hfree
      cases hfree
    refine ⟨?_, (Function.update_of_ne hne _ _).trans h.owner, h.kbuf⟩
    exact (congrFun (poolAllocMapping_reserved s.dev m t) _).trans
      ((Function.update_of_ne hne _ _).trans h.reserved)
  | @freeMapping _ c kbuf hpc =>
    cases kbuf with
    | other => exact ⟨h.reserved, h.owner, h.kbuf⟩
    | mapping m =>
      have hpcDma := hdma.pc c
      rw [hpc] at hpcDma
      obtain ⟨t, _, hheld, _⟩ := hpcDma m rfl
      have hne := h.ne hheld
      refine ⟨?_, (Function.update_of_ne hne _ _).trans h.owner, h.kbuf⟩
      exact (Pool.free_reserved_of_ne _ hne).trans h.reserved
  | @build _ c op e t kbuf client hpc hnext hslots =>
    refine h.handlers rfl rfl fun other => ?_
    by_cases heq : other = e
    · refine Or.inr fun hkbuf => ?_
      rw [heq] at hkbuf
      have hpcDma := hdma.pc c
      rw [hpc] at hpcDma
      exact h.ne (hpcDma.2 _ (kbuf_of_build hkbuf)).1 rfl
    · refine Or.inl ?_
      exact congrArg (poolKbuf ·.rchReturn) (keepsOthers_setRch s.dev e _ other heq).1
  | append hpc hd =>
    rw [rchAppend] at hd
    split at hd
    · cases hd
    · obtain rfl := Option.some.inj hd
      exact ⟨h.reserved, h.owner, h.kbuf⟩
  | @send _ c op e t kbuf predicted mfa hpc =>
    cases mfa with
    | true => exact ⟨h.reserved, h.owner, h.kbuf⟩
    | false => exact ⟨h.reserved, h.owner, h.kbuf⟩
  | @removeIfNotValid _ c e t d valid hpc hd =>
    have hpools := samePools_removeIfNotValid hd
    obtain ⟨_, hk, _, hcases⟩ := removeIfNotValid_cases hown.dev (hown.pcInv hpc).2 hd
    refine h.handlers hpools.mappings hpools.mappingOwner fun other => Or.inl ?_
    by_cases heq : other = e
    · rw [heq]
      rcases hcases with ⟨_, rfl⟩ | ⟨_, _, hrch, _⟩
      · rfl
      · exact congrArg (poolKbuf ·.rchReturn) hrch
    · exact congrArg (poolKbuf ·.rchReturn) (hk other heq).1
  | recycleUnbuilt hpc hd | recycleRead hpc hd | recycleLast hpc hd | cleanup hpc he hd
  | recycleAB hpc hslot hd hslots hfree hopen =>
    exact h.recycled (Device.recycled hd)
  | @dispatch _ n p d start nsamples hp hd =>
    rcases dispatch_cases hown.dev hd with ⟨_, rfl⟩ | ⟨e, hfind, hcase⟩
    · exact ⟨h.reserved, h.owner, h.kbuf⟩
    · rcases hcase with ⟨_, rfl⟩ | ⟨_, hrec⟩
      · refine h.handlers rfl rfl fun other => Or.inl ?_
        by_cases heq : other = e
        · rw [heq]
          refine (congrArg (poolKbuf ·.rchReturn) (setRch_rch_self _ _ _)).trans ?_
          exact poolKbuf_setSamples _ _ _
        · exact congrArg (poolKbuf ·.rchReturn) (keepsOthers_setRch s.dev e _ other heq).1
      · exact h.recycled hrec

theorem named_initial (lastId : BitVec 16) : Named (Rch.initial lastId) where
  sent := fun _ h => by cases h
  built := fun _ _ _ _ h => by cases h

/-- A handler that has a mapping after a step, for a request that is not about
to be built, had it before. -/
theorem carries_before (hown : OwnInv s) (hok : TargetsSafe l s) (ht : Trans l s s')
    (hc : Carries s'.dev e t m)
    (hpc : ∀ c op entry kbuf, (s.clients c).pc ≠ .build op entry t kbuf) :
    Carries s.dev e t m := by
  rcases carries_trans hown hok ht hc with
    ⟨hold, _⟩ | ⟨c, op, hbuild, _⟩ | ⟨_, _, _, _, _, _, _, hold, _⟩
  · exact hold
  · exact absurd hbuild (hpc _ _ _ _)
  · exact hold

/-- A statement about every client, after a step of one of them. -/
theorem pc_setClient {P : Nat → Pc → Prop} {client : Client}
    (h : ∀ c, P c (s.clients c).pc) (hc : P c client.pc) :
    ∀ other, P other ((s.setClient c client).clients other).pc := by
  intro other
  by_cases heq : other = c
  · rw [heq, Rch.Sys.setClient_self]
    exact hc
  · rw [Rch.Sys.setClient_of_ne _ heq]
    exact h other

theorem built_of_entryFree {pc : Pc} (h : pc.entryFree = true) : pc.built = none := by
  cases pc <;> first | rfl | cases h

theorem built_afterSend (op : Op) (e : Nat) (t : Tag) :
    (Rch.Sys.afterSend op e t).built = none := by
  rcases op with _ | _ | _ | (_ | _) | _ <;> rfl

theorem NamedPc.of_none {pc : Pc} (h : pc.built = none) : NamedPc d pc := by
  intro entry t kbuf hb
  rw [h] at hb
  cases hb

theorem Named.trans (h : Named s) (hown : OwnInv s) (hdma : DmaInv s) (hok : TargetsSafe l s)
    (ht : Trans l s s') : Named s' := by
  have hsent : ∀ p ∈ s.unanswered ++ s.replies, ∀ e m, Carries s'.dev e p.request m →
      p.target = some m := by
    intro p hp e m hc
    refine h.sent p hp e m (carries_before hown hok ht hc fun c op entry kbuf hpc => ?_)
    have hbuild := hdma.pc c
    rw [hpc] at hbuild
    exact hbuild.1.2 p hp rfl
  have hbuilt : ∀ c, NamedPc s'.dev (s.clients c).pc := by
    intro c entry t kbuf hb e m hc
    refine h.built c entry t kbuf hb e m (carries_before hown hok ht hc ?_)
    intro other op entry' kbuf' hpc
    have hbuild := hdma.pc other
    rw [hpc] at hbuild
    rw [← hbuild.1.1, (hdma.unsent hb).1] at hpc
    rw [hpc] at hb
    cases hb
  cases ht with
  | oops => exact ⟨hsent, hbuilt⟩
  | neutral hl hslots hfree _ _ =>
    exact ⟨hsent, pc_setClient hbuilt (.of_none (built_of_entryFree hfree))⟩
  | sleepMapping hl hpc | failMapping hl hpc | failLen hl hpc | passLen hl hpc
  | endWaitRead hl hpc | endWaitLast hl hpc | foundValid hpc hvalid
  | allocMapping hl hpc hfree hlt | freeMapping hpc | recycleRead hpc hd | recycleLast hpc hd =>
    exact ⟨hsent, pc_setClient hbuilt (.of_none rfl)⟩
  | @allocRch _ _ c op asleep e client hl hpc hfree hlt hnext hslots =>
    refine ⟨hsent, pc_setClient hbuilt (.of_none ?_)⟩
    rw [hnext]
    cases op <;> rfl
  | @build _ c op e t kbuf client hpc hnext hslots =>
    refine ⟨hsent, pc_setClient hbuilt ?_⟩
    rw [hnext]
    rintro entry t' kbuf' ⟨⟩ other m hc
    have ho : s.dev.owner other = some t := hc.1
    obtain rfl := hown.dev.owner_inj other e t ho (hown.pcInv hpc).2.1.1
    exact kbuf_of_build hc.2.2
  | @append _ c op e t kbuf predicted d hpc hd =>
    refine ⟨hsent, pc_setClient hbuilt ?_⟩
    have hold := hbuilt c
    rw [hpc] at hold
    exact hold
  | @send _ c op e t kbuf predicted mfa hpc =>
    have hclients : ∀ other, NamedPc s.dev
        ((s.setPc c (Rch.Sys.afterSend op e t)).clients other).pc :=
      pc_setClient h.built (.of_none (built_afterSend op e t))
    cases mfa with
    | false => exact ⟨hsent, hclients⟩
    | true =>
      refine ⟨fun p hp e' m hc => ?_, hclients⟩
      have hp : p ∈ s.unanswered ++ [s.nextMessage e t kbuf predicted] ++ s.replies := hp
      rw [List.mem_append, List.mem_append, List.mem_singleton] at hp
      rcases hp with (hold | rfl) | hold
      · exact hsent p (List.mem_append_left _ hold) e' m hc
      · have hkbuf := h.built c e t kbuf (by rw [hpc]; rfl) e' m hc
        show kbufTarget kbuf = some m
        rw [hkbuf]
        rfl
      · exact hsent p (List.mem_append_right _ hold) e' m hc
  | @removeIfNotValid _ c e t d valid hpc hd =>
    refine ⟨hsent, pc_setClient hbuilt (.of_none ?_)⟩
    dsimp only
    split <;> rfl
  | @recycleUnbuilt _ c e t kbuf d hpc hd =>
    refine ⟨hsent, pc_setClient hbuilt (.of_none ?_)⟩
    cases kbuf <;> rfl
  | cleanup hpc he hd => exact ⟨hsent, hbuilt⟩
  | recycleAB hpc hslot hd hslots hfree hopen =>
    exact ⟨hsent, pc_setClient hbuilt (.of_none (built_of_entryFree hfree))⟩
  | @answer _ n p hp =>
    refine ⟨fun q hq => hsent q ?_, hbuilt⟩
    rw [List.mem_append, List.mem_append, List.mem_singleton] at hq
    rcases hq with hold | hold | rfl
    · exact List.mem_append_left _ (List.mem_of_mem_eraseIdx hold)
    · exact List.mem_append_right _ hold
    · exact List.mem_append_left _ (List.mem_of_getElem? hp)
  | dispatch hp hd =>
    refine ⟨fun q hq => hsent q ?_, hbuilt⟩
    exact (List.mem_append.mp hq).elim (List.mem_append_left _)
      fun hold => List.mem_append_right _ (List.mem_of_mem_eraseIdx hold)

end Handlers

/-! ## The data in a step -/

section Data

variable {len m k : Nat} {memory : Nat → UInt8} {s s' : Sys} {t other : Tag}
  {bytes : List UInt8}

theorem grown_data_self (after : Nat → UInt8) :
    (s.grown after t bytes).data t = s.data t ++ bytes :=
  Function.update_self _ _ _

theorem grown_data_of_ne (h : other ≠ t) (after : Nat → UInt8) :
    (s.grown after t bytes).data other = s.data other :=
  Function.update_of_ne h _ _

/-- Bytes behind the data of a request are part of them. -/
theorem Lies.put (h : Lies len s t m) (hfit : (s.data t).length + bytes.length ≤ len) :
    Lies len (s.put len t m bytes) t m := by
  rw [Lies, Sys.put, grown_data_self]
  refine ⟨?_, slice_splice_append h.2⟩
  rw [List.length_append]
  exact hfit

/-- Two mappings have no byte in common. -/
theorem pieces_apart (len : Nat) (h : k ≠ m) :
    m * len + len ≤ k * len ∨ k * len + len ≤ m * len := by
  rw [← Nat.succ_mul, ← Nat.succ_mul]
  rcases Nat.lt_or_gt_of_ne h with hlt | hgt
  · exact Or.inr (Nat.mul_le_mul_right len hlt)
  · exact Or.inl (Nat.mul_le_mul_right len hgt)

/-- The data of the other requests stay as they are. -/
theorem Lies.put_other (h : Lies len s other k) (ht : other ≠ t) (hm : k ≠ m)
    (hfit : (s.data t).length + bytes.length ≤ len) :
    Lies len (s.put len t m bytes) other k := by
  have hlen := h.1
  rw [Lies, Sys.put, grown_data_of_ne ht]
  refine ⟨h.1, (slice_splice_of_disjoint _ ?_).trans h.2⟩
  rcases pieces_apart len hm with hbelow | habove
  · exact Or.inl (by omega)
  · exact Or.inr (by omega)

/-- More data for a request.  The data of the others have to stay where they
are, and those of the request itself where its mapping is. -/
theorem DataInv.grow {after : Nat → UInt8} (h : DataInv len memory s) (hdma : DmaInv s.rch)
    (hlt : t.seq < s.rch.dev.allocs)
    (hpc : ∀ c op e asleep kbuf, (s.rch.clients c).pc ≠ .allocMapping op e t asleep ∧
      (s.rch.clients c).pc ≠ .checkLen op e t kbuf)
    (hothers : ∀ other k, other ≠ t → Held s.rch.dev k other → Lies len s other k →
      Lies len (s.grown after t bytes) other k)
    (hbuild : ∀ c op e k, (s.rch.clients c).pc = .build op e t (some (.mapping k)) →
      Lies len (s.grown after t bytes) t k)
    (hcarries : ∀ e k, Carries s.rch.dev e t k → Lies len (s.grown after t bytes) t k)
    (hframes : ∀ i, MSG_MAPPING * len ≤ i → i < NMAPPINGS * len → after i = s.memory i) :
    DataInv len memory (s.grown after t bytes) := by
  have hgrows : ∀ other, s.data other <+: (s.grown after t bytes).data other := by
    intro other
    by_cases heq : other = t
    · rw [heq]
      exact ⟨bytes, (grown_data_self after).symm⟩
    · exact ⟨[], (List.append_nil _).trans (grown_data_of_ne heq after).symm⟩
  refine ⟨?_, ?_, ?_, ?_, ?_, ?_⟩
  · intro other hother
    have ht : other ≠ t := by
      rintro rfl
      exact absurd hother (Nat.not_le_of_lt hlt)
    rw [grown_data_of_ne ht]
    exact h.fresh other hother
  · intro c
    have hdata := h.pc c
    have hclient := hdma.pc c
    show PcData len (s.grown after t bytes) (s.rch.clients c).pc
    cases hpc' : (s.rch.clients c).pc with
    | allocMapping op e other asleep =>
      rw [hpc'] at hdata
      have ht : other ≠ t := by
        rintro rfl
        exact (hpc c op e asleep .other).1 hpc'
      exact (grown_data_of_ne ht after).trans hdata
    | checkLen op e other kbuf =>
      rw [hpc'] at hdata
      have ht : other ≠ t := by
        rintro rfl
        exact (hpc c op e none kbuf).2 hpc'
      exact (grown_data_of_ne ht after).trans hdata
    | build op e other kbuf =>
      rw [hpc'] at hdata hclient
      rcases kbuf with _ | (k | _)
      · trivial
      · by_cases heq : other = t
        · rw [heq] at hpc' ⊢
          exact hbuild c op e k hpc'
        · exact hothers other k heq (hclient.2 k rfl).1 hdata
      · trivial
    | _ => trivial
  · intro e other k hc
    obtain ⟨hold, hle⟩ := h.lies e other k hc
    refine ⟨?_, Nat.le_trans hle (hgrows other).length_le⟩
    by_cases heq : other = t
    · rw [heq] at hc ⊢
      exact hcarries e k hc
    · exact hothers other k heq (hdma.carried e other k hc) hold
  · exact fun other => (h.returned other).trans (hgrows other)
  · exact fun other => (h.taken other).trans (hgrows other)
  · exact fun i hlow hhigh => (hframes i hlow hhigh).trans (h.frames i hlow hhigh)

/-- Bytes for a request that holds the mapping. -/
theorem DataInv.put (h : DataInv len memory s) (hdma : DmaInv s.rch)
    (happart : FramesApart s.rch) (hheld : Held s.rch.dev m t) (hlies : Lies len s t m)
    (hfit : (s.data t).length + bytes.length ≤ len)
    (hpc : ∀ c op e asleep kbuf, (s.rch.clients c).pc ≠ .allocMapping op e t asleep ∧
      (s.rch.clients c).pc ≠ .checkLen op e t kbuf)
    (hbuild : ∀ c op e k, (s.rch.clients c).pc = .build op e t (some (.mapping k)) → k = m)
    (hcarries : ∀ e k, Carries s.rch.dev e t k → k = m) :
    DataInv len memory (s.put len t m bytes) := by
  have hmine : Lies len (s.put len t m bytes) t m := hlies.put hfit
  refine h.grow hdma (hdma.held_lt m t hheld.2) hpc ?_ ?_ ?_ ?_
  · intro other k ht hk hold
    refine hold.put_other ht ?_ hfit
    rintro rfl
    exact ht (Option.some.inj (hk.2.symm.trans hheld.2))
  · intro c op e k hpc'
    rw [hbuild c op e k hpc']
    exact hmine
  · intro e k hc
    rw [hcarries e k hc]
    exact hmine
  · intro i hlow hhigh
    have hpart := pieces_apart len (happart.ne hheld)
    have hend : NMAPPINGS * len = MSG_MAPPING * len + len := Nat.succ_mul MSG_MAPPING len
    exact splice_of_outside s.memory (by omega)

/-- The bytes that a write copies belong to a request with no message. -/
theorem Inv.copyFromUser {c : Nat} (h : Inv len memory s)
    (hs : s.copyFromUser len bytes (s.rch.clients c).pc = some s') : Inv len memory s' := by
  cases hpc : (s.rch.clients c).pc with
  | build op e t kbuf =>
    rw [hpc] at hs
    rcases op with _ | _ | _ | _ | _ <;> rcases kbuf with _ | (m | _) <;> try cases hs
    rw [Sys.copyFromUser] at hs
    split at hs
    · rename_i hfit
      obtain rfl := Option.some.inj hs
      have hdata := h.data.pc c
      have hclient := h.dma.pc c
      rw [hpc] at hdata hclient
      have hmine : ∀ other t', (Unsent s.rch other t' → t' = t → other = c) := by
        rintro other t' hunsent rfl
        exact hunsent.1.symm.trans hclient.1.1
      refine ⟨h.own, h.dma, h.apart, h.named, ?_⟩
      refine h.data.put h.dma h.apart (hclient.2 m rfl).1 hdata hfit ?_ ?_ ?_
      · intro other op e asleep kbuf
        have hother := h.dma.pc other
        refine ⟨fun hpc' => ?_, fun hpc' => ?_⟩
        · rw [hpc'] at hother
          rw [hmine other t hother.1 rfl, hpc] at hpc'
          cases hpc'
        · rw [hpc'] at hother
          rw [hmine other t hother.1 rfl, hpc] at hpc'
          cases hpc'
      · intro other op e k hpc'
        have hother := h.dma.pc other
        rw [hpc'] at hother
        rw [hmine other t hother.1 rfl, hpc] at hpc'
        cases hpc'
        rfl
      · intro entry k hc
        obtain ⟨_, hunbuilt, _⟩ := h.own.pcInv hpc
        have hsome := hc.2.1
        rw [h.own.dev.owner_inj entry e t hc.1 hunbuilt.1, hunbuilt.2.2] at hsome
        cases hsome
    · cases hs
  | _ =>
    rw [hpc] at hs
    cases hs

/-- The bytes that the card moves belong to a request with a message. -/
theorem Inv.move {p : Posted} (h : Inv len memory s) (hp : p ∈ s.rch.unanswered)
    (hs : s.move len p bytes = some s') : Inv len memory s' := by
  have hsent : ∀ c, ¬ Unsent s.rch c p.request :=
    fun c hunsent => hunsent.2 p (List.mem_append_left _ hp) rfl
  have hpc : ∀ c op e asleep kbuf,
      (s.rch.clients c).pc ≠ .allocMapping op e p.request asleep ∧
        (s.rch.clients c).pc ≠ .checkLen op e p.request kbuf := by
    intro c op e asleep kbuf
    have hclient := h.dma.pc c
    refine ⟨fun hpc => ?_, fun hpc => ?_⟩
    · rw [hpc] at hclient
      exact hsent c hclient.1
    · rw [hpc] at hclient
      exact hsent c hclient.1
  have hbuild : ∀ c op e kbuf, (s.rch.clients c).pc ≠ .build op e p.request kbuf := by
    intro c op e kbuf hpc
    have hclient := h.dma.pc c
    rw [hpc] at hclient
    exact hsent c hclient.1
  have hcarries : ∀ e k, Carries s.rch.dev e p.request k → p.target = some k :=
    fun e k hc => h.named.sent p (List.mem_append_left _ hp) e k hc
  rw [Sys.move] at hs
  split at hs
  · cases hs
  · split at hs
    · rename_i hnone
      obtain rfl := Option.some.inj hs
      have hcarries : ∀ e k, ¬ Carries s.rch.dev e p.request k := by
        intro e k hc
        rw [hcarries e k hc] at hnone
        cases hnone
      refine ⟨h.own, h.dma, h.apart, h.named, ?_⟩
      refine h.data.grow h.dma ?_ hpc ?_ ?_ ?_ fun _ _ _ => rfl
      · exact h.dma.request_lt p (List.mem_append_left _ hp)
      · intro other k ht _ hold
        rw [Lies, grown_data_of_ne ht]
        exact hold
      · exact fun c op e k hpc' => absurd hpc' (hbuild c op e _)
      · exact fun e k hc => absurd hc (hcarries e k)
    · rename_i m htarget
      split at hs
      · rename_i hfit
        obtain rfl := Option.some.inj hs
        obtain ⟨hc, _⟩ := h.dma.sent p hp m htarget
        refine ⟨h.own, h.dma, h.apart, h.named, ?_⟩
        refine h.data.put h.dma h.apart (h.dma.carried _ _ m hc) (h.data.lies _ _ m hc).1 hfit
          hpc ?_ ?_
        · exact fun c op e k hpc' => absurd hpc' (hbuild c op e _)
        · exact fun e k hc' => Option.some.inj ((hcarries e k hc').symm.trans htarget)
      · cases hs

/-- What the user of a read gets is behind what it has got before. -/
theorem Inv.copyToUser {c n : Nat} (h : Inv len memory s)
    (hs : s.copyToUser len n (s.rch.clients c).pc = some s') : Inv len memory s' := by
  cases hpc : (s.rch.clients c).pc with
  | recycleRead e t =>
    rw [hpc, Sys.copyToUser] at hs
    split at hs
    · rename_i m hkbuf
      split at hs
      · rename_i hmore
        obtain rfl := Option.some.inj hs
        obtain ⟨hlies, hle⟩ := h.data.lies e t m (carries_of_recycleRead h.own hpc hkbuf)
        refine ⟨h.own, h.dma, h.apart, h.named, ?_⟩
        refine ⟨h.data.fresh, h.data.pc, h.data.lies, ?_, h.data.taken, h.data.frames⟩
        intro other
        show Function.update s.returned t (s.next len m (s.returned t) n) other <+: s.data other
        by_cases heq : other = t
        · rw [heq, Function.update_self]
          exact append_slice_isPrefix hlies.2 (h.data.returned t) (Nat.le_trans hmore.2 hle)
        · rw [Function.update_of_ne heq]
          exact h.data.returned other
      · cases hs
    · cases hs
  | _ =>
    rw [hpc] at hs
    cases hs

theorem Inv.take {p : Posted} (h : Inv len memory s) (hp : p ∈ s.rch.unanswered)
    (hs : s.take len p k = some s') : Inv len memory s' := by
  rw [Sys.take] at hs
  split at hs
  · cases hs
  · rename_i m htarget
    split at hs
    · rename_i hmore
      obtain rfl := Option.some.inj hs
      obtain ⟨hlies, _⟩ := h.data.lies _ _ m (h.dma.sent p hp m htarget).1
      refine ⟨h.own, h.dma, h.apart, h.named, ?_⟩
      refine ⟨h.data.fresh, h.data.pc, h.data.lies, h.data.returned, ?_, h.data.frames⟩
      intro other
      show Function.update s.taken p.request (s.next len m (s.taken p.request) k) other
        <+: s.data other
      by_cases heq : other = p.request
      · rw [heq, Function.update_self]
        exact append_slice_isPrefix hlies.2 (h.data.taken p.request) hmore.2
      · rw [Function.update_of_ne heq]
        exact h.data.taken other
    · cases hs

theorem allocs_trans {l : Rch.Label} {r r' : Rch.Sys} (hown : OwnInv r) (ht : Trans l r r') :
    r.dev.allocs ≤ r'.dev.allocs := by
  cases ht with
  | oops | neutral _ _ _ _ _ | sleepMapping _ _ | failMapping _ _ | failLen _ _ | passLen _ _
  | endWaitRead _ _ | endWaitLast _ _ | foundValid _ _ | allocMapping _ _ _ _ | build _ _ _
  | answer _ => exact Nat.le_refl _
  | allocRch _ _ _ _ _ _ => exact Nat.le_succ _
  | @freeMapping _ c kbuf hpc =>
    cases kbuf with
    | mapping freed => exact Nat.le_refl _
    | other => exact Nat.le_refl _
  | append hpc hd => exact Nat.le_of_eq (samePools_rchAppend hd).allocs.symm
  | @send _ c op e t kbuf predicted mfa hpc =>
    cases mfa with
    | true => exact Nat.le_refl _
    | false => exact Nat.le_refl _
  | removeIfNotValid hpc hd => exact Nat.le_of_eq (samePools_removeIfNotValid hd).allocs.symm
  | recycleUnbuilt hpc hd | recycleRead hpc hd | recycleLast hpc hd | cleanup hpc he hd
  | recycleAB hpc hslot hd hslots hfree hopen =>
    exact Nat.le_of_eq (Device.recycled hd).allocs.symm
  | dispatch hp hd =>
    rcases dispatch_cases hown.dev hd with ⟨_, rfl⟩ | ⟨e, _, hcase⟩
    · exact Nat.le_refl _
    · rcases hcase with ⟨_, rfl⟩ | ⟨_, hrec⟩
      · exact Nat.le_refl _
      · exact Nat.le_of_eq hrec.allocs.symm

theorem pcData_of_entryFree {pc : Pc} (h : pc.entryFree = true) : PcData len s pc := by
  cases pc <;> trivial

/-- A client that gets a handler has no data for it yet. -/
theorem DataInv.pc_trans {l : Rch.Label} {r : Rch.Sys} (h : DataInv len memory s)
    (ht : Trans l s.rch r) : ∀ c, PcData len s (r.clients c).pc := by
  cases ht with
  | oops | cleanup _ _ _ | answer _ | dispatch _ _ => exact h.pc
  | neutral hl hslots hfree _ _ => exact pc_setClient h.pc (pcData_of_entryFree hfree)
  | @sleepMapping _ _ c op e t asleep ibuf hl hpc =>
    have hdata := h.pc c
    rw [hpc] at hdata
    exact pc_setClient h.pc hdata
  | @allocMapping _ _ c op e t asleep m hl hpc hfree hlt =>
    have hdata := h.pc c
    rw [hpc] at hdata
    exact pc_setClient h.pc hdata
  | @passLen _ _ c op e t kbuf hl hpc =>
    have hdata := h.pc c
    rw [hpc] at hdata
    refine pc_setClient h.pc ?_
    cases kbuf with
    | other => trivial
    | mapping m =>
      have hnone : s.data t = [] := hdata
      show Lies len s t m
      rw [Lies, hnone]
      exact ⟨Nat.zero_le _, rfl⟩
  | @allocRch _ _ c op asleep e client hl hpc hfree hlt hnext hslots =>
    refine pc_setClient h.pc ?_
    rw [hnext]
    cases op with
    | read | write | readAB => exact h.fresh _ (Nat.le_refl _)
    | queue buffer | release => trivial
  | build hpc hnext hslots =>
    refine pc_setClient h.pc ?_
    rw [hnext]
    trivial
  | @send _ c op e t kbuf predicted mfa hpc =>
    have hafter : PcData len s (Rch.Sys.afterSend op e t) := by
      rcases op with _ | _ | _ | (_ | _) | _ <;> trivial
    cases mfa with
    | true => exact pc_setClient h.pc hafter
    | false => exact pc_setClient h.pc hafter
  | removeIfNotValid hpc hd =>
    refine pc_setClient h.pc ?_
    dsimp only
    split <;> trivial
  | @recycleUnbuilt _ c e t kbuf d hpc hd =>
    refine pc_setClient h.pc ?_
    cases kbuf <;> trivial
  | recycleAB hpc hslot hd hslots hfree hopen =>
    exact pc_setClient h.pc (pcData_of_entryFree hfree)
  | failMapping _ _ | failLen _ _ | endWaitRead _ _ | endWaitLast _ _ | foundValid _ _
  | freeMapping _ | append _ _ | recycleRead _ _ | recycleLast _ _ =>
    exact pc_setClient h.pc trivial

/-- A reply speaks of no more bytes than the card has moved. -/
theorem nbytes_setSamples_le {r : RchReturn} {start nsamples : BitVec 32} {n : Nat}
    (hold : r.nbytes.toNat ≤ n) (hsaid : saidBytes nsamples ≤ n) :
    (setSamples r start nsamples).nbytes.toNat ≤ n := by
  rw [setSamples]
  rw [saidBytes] at hsaid
  split
  · exact hold
  · rename_i hne
    rwa [if_neg hne] at hsaid

theorem Inv.rch_step {l : Rch.Label} {r : Rch.Sys} {op : Tag → Op} (h : Inv len memory s)
    (hok : TargetsSafe l s.rch) (hcard : CardHonest s l) (hs : Rch.Sys.step l s.rch = some r) :
    Inv len memory { s with rch := r, op := op } := by
  have ht := trans_of_step hs
  refine ⟨ownInv_step h.own hok.last ht, dmaInv_step h.own h.dma hok ht,
    h.apart.trans h.own h.dma ht, h.named.trans h.own h.dma hok ht, ?_⟩
  refine ⟨?_, h.data.pc_trans ht, ?_, h.data.returned, h.data.taken, h.data.frames⟩
  · exact fun t hlt => h.data.fresh t (Nat.le_trans (allocs_trans h.own ht) hlt)
  · intro e t m hc
    rcases carries_trans h.own hok ht hc with ⟨hold, hsame⟩ | ⟨c, op, hpc, hzero⟩ |
      ⟨n, start, nsamples, p, rfl, hp, rfl, hold, hnew⟩
    · show Lies len s t m ∧ _
      rw [hsame]
      exact h.data.lies e t m hold
    · have hdata := h.data.pc c
      rw [hpc] at hdata
      refine ⟨hdata, ?_⟩
      rw [hzero]
      exact Nat.zero_le _
    · obtain ⟨hlies, hle⟩ := h.data.lies e p.request m hold
      refine ⟨hlies, ?_⟩
      rw [hnew]
      exact nbytes_setSamples_le hle (hcard p hp)

end Data

/-! ## Runs -/

theorem inv_initial (len : Nat) (lastId : BitVec 16) (memory : Nat → UInt8) :
    Inv len memory (initial lastId memory) where
  own := ownInv_initial lastId
  dma := dmaInv_initial lastId
  apart := framesApart_initial lastId
  named := named_initial lastId
  data :=
    { fresh := fun _ _ => rfl
      pc := fun _ => trivial
      lies := fun _ _ _ h => by cases h.1
      returned := fun _ => List.prefix_refl _
      taken := fun _ => List.prefix_refl _
      frames := fun _ _ _ => rfl }

theorem inv_step {len : Nat} {memory : Nat → UInt8} (l : Label) (s s' : Sys)
    (h : Inv len memory s) (hok : Safe l s) (hs : step len l s = some s') :
    Inv len memory s' := by
  cases l with
  | rch l =>
    obtain ⟨r, hr, rfl⟩ := Option.map_eq_some_iff.mp hs
    exact h.rch_step hok.1 hok.2 hr
  | copyFromUser c bytes => exact h.copyFromUser hs
  | copyToUser c n => exact h.copyToUser hs
  | move n bytes =>
    obtain ⟨p, hp, hs⟩ := Option.bind_eq_some_iff.mp hs
    exact h.move (List.mem_of_getElem? hp) hs
  | take n k =>
    obtain ⟨p, hp, hs⟩ := Option.bind_eq_some_iff.mp hs
    exact h.take (List.mem_of_getElem? hp) hs

/-- The invariant gives the contract. -/
theorem Inv.dataIntact {len : Nat} {memory : Nat → UInt8} {s : Sys} (h : Inv len memory s) :
    DataIntact len memory s where
  returned := h.data.returned
  taken := h.data.taken
  waiting := fun p hp m hm => (h.data.lies _ _ m (h.dma.sent p hp m hm).1).1
  ready := by
    intro c e t m hpc hkbuf
    obtain ⟨hlies, hle⟩ := h.data.lies e t m (carries_of_recycleRead h.own hpc hkbuf)
    rw [← take_slice s.memory (m * len) hle, hlies.2]
  frames := h.data.frames

/-- A write while the card still has the message of an interrupted read, whose
data come late, and a read after it. -/
def lateData : List Label :=
  interruptedBridgeRead.map .rch ++
    [.rch (.call 0 .write), .rch (.go 0), .rch (.go 0), .rch (.check 0 false),
      .copyFromUser 0 [1, 2], .copyFromUser 0 [3], .rch (.go 0), .rch (.go 0),
      .rch (.send 0 true), .move 0 [9, 9, 9, 9], .take 1 3, .rch (.answer 0),
      .rch (.dispatch 0 0 2), .rch (.call 0 .read), .rch (.go 0), .rch (.go 0),
      .rch (.check 0 false), .rch (.go 0), .rch (.go 0), .rch (.send 0 true),
      .move 1 [5, 6], .move 1 [7, 8], .rch (.answer 1), .rch (.dispatch 0 0 2), .rch (.wake 0),
      .rch (.go 0), .copyToUser 0 3, .copyToUser 0 1]

end Acq200.Transfers
