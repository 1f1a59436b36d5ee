import Acq200.Bridge.Errors
import Acq200.Rch.PoolRuns
import Acq200.Rch.Routing

/-!
# A call is a run of the system

`Bridge.Basic` has a read and a write as one function each, and `Rch.System`
has them cut at the places where other clients can come in between.  This
module puts the steps of one client together again.  `write_is_run` and
`read_is_run` say that a call of a client that is alone is a run of the
system: it ends in the device that the function computes, and it faults where
the function does.  The steps of such a run recycle no handler twice, so the
rule of ownership holds of the device that a call leaves (`write_devInv`,
`read_devInv`).
-/

namespace Acq200.Bridge

open Acq200.Lib
open Acq200.Rch
open Acq200.Rch.Device

/-! ## Runs -/

/-- Client `c` stands at `pc`, and the device is `d`. -/
structure StandsAt (s : Sys) (c : Nat) (pc : Pc) (d : Device) : Prop where
  oopsed : s.oopsed = false
  pc : (s.clients c).pc = pc
  dev : s.dev = d

/-- The run goes on to a state in which the client stands at `pc`. -/
def Reaches (s : Sys) (c : Nat) (pc : Pc) (d : Device) : Prop :=
  ∃ s', Leads Sys.step SecondRecycleHarmless s s' ∧ StandsAt s' c pc d

/-- The run ends in a fault. -/
def Faults (s : Sys) : Prop :=
  ∃ s', Leads Sys.step SecondRecycleHarmless s s' ∧ s'.oopsed = true

section Steps

variable {s : Sys} {c e m : Nat} {t : Tag} {d d' : Device} {op : Op} {pc pc' : Pc}
  {kbuf : Option Kbuf}

/-- What holds from every state at `pc` holds from here. -/
theorem Reaches.bind (h : Reaches s c pc d)
    (hnext : ∀ s', StandsAt s' c pc d → Reaches s' c pc' d') : Reaches s c pc' d' := by
  obtain ⟨s₁, hleads, hat⟩ := h
  obtain ⟨s', hleads', hat'⟩ := hnext s₁ hat
  exact ⟨s', hleads.trans hleads', hat'⟩

theorem Reaches.faults (h : Reaches s c pc d)
    (hnext : ∀ s', StandsAt s' c pc d → Faults s') : Faults s := by
  obtain ⟨s₁, hleads, hat⟩ := h
  obtain ⟨s', hleads', hoops⟩ := hnext s₁ hat
  exact ⟨s', hleads.trans hleads', hoops⟩

/-- A step that the client takes, or that is not a statement of any client. -/
def Label.GoesOnly (l : Label) (c : Nat) : Prop := ∀ other ∈ l.goes, other = c

theorem goesOnly_go (c : Nat) : Label.GoesOnly (.go c) c := fun _ h => (Option.some.inj h).symm

theorem goesOnly_of_none {l : Label} (h : l.goes = none) (c : Nat) : Label.GoesOnly l c := by
  intro other hother
  rw [h] at hother
  cases hother

/-- Only a statement of a client recycles a second time. -/
theorem harmless_of_none {l : Label} (h : l.goes = none) (s : Sys) :
    SecondRecycleHarmless l s := by
  intro other hother
  rw [h] at hother
  cases hother

/-- A step that moves the client. -/
theorem StandsAt.move (h : StandsAt s c pc d) (hlast : pc.lastEntry = none) {l : Label}
    {client : Client} (hl : Label.GoesOnly l c)
    (hstep : Sys.step l s = some ({ s with dev := d' }.setClient c client)) :
    Reaches s c client.pc d' := by
  have hharmless : SecondRecycleHarmless l s := harmless_of_pc hl (by rw [h.pc, hlast])
  refine ⟨_, leads_step hharmless hstep, h.oopsed, ?_, rfl⟩
  rw [Sys.setClient_self]

theorem StandsAt.setPc (h : StandsAt s c pc d) (hlast : pc.lastEntry = none) {l : Label}
    (hl : Label.GoesOnly l c)
    (hstep : Sys.step l s = some ({ s with dev := d' }.setPc c pc')) :
    Reaches s c pc' d' :=
  h.move hlast hl hstep

/-- A step that does not change the device. -/
theorem StandsAt.stay (h : StandsAt s c pc d) (hlast : pc.lastEntry = none) {l : Label}
    (hl : Label.GoesOnly l c) (hstep : Sys.step l s = some (s.setPc c pc')) :
    Reaches s c pc' d := by
  have hsame : s = { s with dev := d } := by rw [← h.dev]
  refine h.setPc hlast hl ?_
  rw [hstep, ← hsame]

theorem StandsAt.oops (h : StandsAt s c pc d) (hlast : pc.lastEntry = none) {l : Label}
    (hl : Label.GoesOnly l c) (hstep : Sys.step l s = some { s with oopsed := true }) :
    Faults s :=
  ⟨_, leads_step (harmless_of_pc hl (by rw [h.pc, hlast])) hstep, rfl⟩

/-! ## Allocations -/

theorem stretch_found {p : Pool} {ibuf : Nat} (h : allocAlone p = some ibuf) :
    p.stretch none = some (.found ibuf) := by
  rw [allocAlone] at h
  split at h
  · rename_i found hfound
    cases h
    exact hfound
  · cases h

theorem stretch_sleep {p : Pool} (hcursor : p.cursor < p.maxEntries)
    (h : allocAlone p = none) : ∃ ibuf, p.stretch none = some (.sleep ibuf) := by
  rw [allocAlone] at h
  split at h
  · cases h
  · rename_i hnot
    cases hstretch : p.stretch none with
    | none => exact absurd hstretch (Pool.stretch_ends hcursor none)
    | some scan =>
      cases scan with
      | found ibuf => exact absurd hstretch (hnot ibuf)
      | sleep ibuf => exact ⟨ibuf, rfl⟩

theorem StandsAt.allocRch (h : StandsAt s c (.allocRch op none) d)
    (he : allocAlone d.handlers = some e) :
    Reaches s c (Sys.afterAllocRch op e ⟨c, d.allocs⟩) (d.poolAllocRch e c) := by
  obtain ⟨hoops, hpc, rfl⟩ := h
  have hstep : Sys.step (.go c) s = some
      ({ s with dev := s.dev.poolAllocRch e c }.setClient c
        { s.clients c with
          pc := Sys.afterAllocRch op e ⟨c, s.dev.allocs⟩
          rchAB := Sys.slotsAfterAlloc op (s.clients c).rchAB e ⟨c, s.dev.allocs⟩ }) := by
    simp [Sys.step, hoops, Sys.clientStep, hpc, Sys.goRequest, Sys.goAllocRch,
      stretch_found he]
  exact StandsAt.move ⟨hoops, hpc, rfl⟩ rfl (goesOnly_go c) hstep

/-- The calls that give up when there is no handler. -/
def Op.Transfers : Op → Prop
  | .read | .readAB | .write => True
  | .queue _ | .release => False

/-- Nobody frees a handler, and the sleep times out. -/
theorem StandsAt.noHandler (h : StandsAt s c (.allocRch op none) d) (hop : Op.Transfers op)
    (hcursor : d.handlers.cursor < d.handlers.maxEntries)
    (he : allocAlone d.handlers = none) : Reaches s c .idle d := by
  obtain ⟨ibuf, hsleep⟩ := stretch_sleep hcursor he
  have hasleep : Reaches s c (.allocRch op (some ibuf)) d := by
    obtain ⟨hoops, hpc, rfl⟩ := h
    refine StandsAt.stay ⟨hoops, hpc, rfl⟩ rfl (goesOnly_go c) ?_
    simp [Sys.step, hoops, Sys.clientStep, hpc, Sys.goRequest, Sys.goAllocRch, hsleep]
  refine hasleep.bind fun s' h' => ?_
  obtain ⟨hoops, hpc, rfl⟩ := h'
  refine StandsAt.stay ⟨hoops, hpc, rfl⟩ rfl (goesOnly_of_none (l := .timeout c) rfl c) ?_
  cases op with
  | read | readAB | write => simp [Sys.step, hoops, Sys.clientStep, hpc, Sys.timeout]
  | queue buffer => exact hop.elim
  | release => exact hop.elim

theorem StandsAt.allocMapping (h : StandsAt s c (.allocMapping op e t none) d)
    (hm : allocAlone d.mappings = some m) :
    Reaches s c (.checkLen op e t (.mapping m)) (d.poolAllocMapping m t) := by
  obtain ⟨hoops, hpc, rfl⟩ := h
  refine StandsAt.setPc ⟨hoops, hpc, rfl⟩ rfl (goesOnly_go c) ?_
  simp [Sys.step, hoops, Sys.clientStep, hpc, Sys.goRequest, Sys.goAllocMapping,
    stretch_found hm]

theorem StandsAt.noMapping (h : StandsAt s c (.allocMapping op e t none) d)
    (hcursor : d.mappings.cursor < d.mappings.maxEntries)
    (hm : allocAlone d.mappings = none) : Reaches s c (.recycleUnbuilt e t none) d := by
  obtain ⟨ibuf, hsleep⟩ := stretch_sleep hcursor hm
  have hasleep : Reaches s c (.allocMapping op e t (some ibuf)) d := by
    obtain ⟨hoops, hpc, rfl⟩ := h
    refine StandsAt.stay ⟨hoops, hpc, rfl⟩ rfl (goesOnly_go c) ?_
    simp [Sys.step, hoops, Sys.clientStep, hpc, Sys.goRequest, Sys.goAllocMapping, hsleep]
  refine hasleep.bind fun s' h' => ?_
  obtain ⟨hoops, hpc, rfl⟩ := h'
  refine StandsAt.stay ⟨hoops, hpc, rfl⟩ rfl (goesOnly_of_none (l := .timeout c) rfl c) ?_
  simp [Sys.step, hoops, Sys.clientStep, hpc, Sys.timeout]

/-! ## Requests -/

theorem StandsAt.recycleUnbuilt {unused : Option Kbuf}
    (h : StandsAt s c (.recycleUnbuilt e t unused) d)
    (hrecycle : d.i2oRecycleRch e t = some d') :
    Reaches s c (Sys.afterRecycleUnbuilt unused) d' := by
  obtain ⟨hoops, hpc, rfl⟩ := h
  refine StandsAt.setPc ⟨hoops, hpc, rfl⟩ rfl (goesOnly_go c) ?_
  simp [Sys.step, hoops, Sys.clientStep, hpc, Sys.goRequest, hrecycle, Sys.orOops]

theorem StandsAt.recycleUnbuilt_faults {unused : Option Kbuf}
    (h : StandsAt s c (.recycleUnbuilt e t unused) d)
    (hrecycle : d.i2oRecycleRch e t = none) : Faults s := by
  obtain ⟨hoops, hpc, rfl⟩ := h
  refine StandsAt.oops ⟨hoops, hpc, rfl⟩ rfl (goesOnly_go c) ?_
  simp [Sys.step, hoops, Sys.clientStep, hpc, Sys.goRequest, hrecycle, Sys.orOops]

theorem StandsAt.recycleRead (h : StandsAt s c (.recycleRead e t) d)
    (hrecycle : d.i2oRecycleRch e t = some d') : Reaches s c .idle d' := by
  obtain ⟨hoops, hpc, rfl⟩ := h
  refine StandsAt.setPc ⟨hoops, hpc, rfl⟩ rfl (goesOnly_go c) ?_
  simp [Sys.step, hoops, Sys.clientStep, hpc, Sys.goRequest, hrecycle, Sys.orOops]

theorem StandsAt.recycleRead_faults (h : StandsAt s c (.recycleRead e t) d)
    (hrecycle : d.i2oRecycleRch e t = none) : Faults s := by
  obtain ⟨hoops, hpc, rfl⟩ := h
  refine StandsAt.oops ⟨hoops, hpc, rfl⟩ rfl (goesOnly_go c) ?_
  simp [Sys.step, hoops, Sys.clientStep, hpc, Sys.goRequest, hrecycle, Sys.orOops]

theorem StandsAt.freeMapping {own : Kbuf} (h : StandsAt s c (.freeMapping own) d) :
    Reaches s c .idle (d.poolFreeMapping own) := by
  obtain ⟨hoops, hpc, rfl⟩ := h
  refine StandsAt.setPc ⟨hoops, hpc, rfl⟩ rfl (goesOnly_go c) ?_
  simp [Sys.step, hoops, Sys.clientStep, hpc, Sys.goRequest]

/-- The length test, which lets a call with bytes through. -/
theorem StandsAt.check {own : Kbuf} (h : StandsAt s c (.checkLen op e t own) d) (zero : Bool) :
    Reaches s c
      (if zero then (if op = .write then .idle else .recycleUnbuilt e t (some own))
        else .build op e t (some own)) d := by
  obtain ⟨hoops, hpc, rfl⟩ := h
  refine StandsAt.stay ⟨hoops, hpc, rfl⟩ rfl (goesOnly_of_none (l := .check c zero) rfl c) ?_
  simp only [Sys.step, hoops, Sys.clientStep, hpc, Sys.check]
  cases zero with
  | false => simp
  | true => by_cases hop : op = .write <;> simp [hop]

/-- `buildRch`. -/
theorem StandsAt.build (h : StandsAt s c (.build op e t kbuf) d) :
    ∃ predicted, Reaches s c (.append op e t kbuf predicted)
      (d.buildRch e op.handler c kbuf op.flags t) := by
  obtain ⟨hoops, hpc, rfl⟩ := h
  obtain ⟨s₁, hstep, hdev, predicted, hmoved⟩ := step_build hoops hpc
  have hharmless : SecondRecycleHarmless (.go c) s :=
    harmless_of_pc (goesOnly_go c) (by rw [hpc]; rfl)
  exact ⟨predicted, s₁, leads_step hharmless hstep, hmoved.oopsed.trans hoops, hmoved.pc, hdev⟩

/-- `rchAppend` of a handler that is linked. -/
theorem StandsAt.append_faults {predicted : Predicted}
    (h : StandsAt s c (.append op e t kbuf predicted) d) (hlinked : e ∈ d.list) :
    Faults s := by
  obtain ⟨hoops, hpc, rfl⟩ := h
  refine StandsAt.oops ⟨hoops, hpc, rfl⟩ rfl (goesOnly_go c) ?_
  simp [Sys.step, hoops, Sys.clientStep, hpc, Sys.goRequest, rchAppend, hlinked, Sys.orOops]

/-- A post of a handler that is linked. -/
theorem StandsAt.post_faults (h : StandsAt s c (.build op e t kbuf) d)
    (hlinked : e ∈ d.list) : Faults s := by
  obtain ⟨predicted, hbuilt⟩ := h.build
  exact hbuilt.faults fun s' h' => h'.append_faults hlinked

/-- What the client has when its request is posted: where it stands, and the
message on the card. -/
structure Posts (s : Sys) (c : Nat) (pc : Pc) (d : Device) (mfa : Bool) (id : BitVec 16) :
    Prop where
  stands : StandsAt s c pc d
  message : mfa = true → ∃ p ∈ s.unanswered, p.id = id

/-- `buildRch`, `rchAppend` and the send. -/
theorem StandsAt.post (h : StandsAt s c (.build op e t kbuf) d) {mfa : Bool} {rc : Int}
    (hpost : postRequest d e op.handler c kbuf op.flags t mfa = some (d', rc)) :
    ∃ s', Leads Sys.step SecondRecycleHarmless s s' ∧
      Posts s' c (Sys.afterSend op e t) d' mfa (nextId d) := by
  have hfresh : e ∉ d.list := by
    intro hlinked
    rw [postRequest_eq_none.mpr hlinked] at hpost
    cases hpost
  obtain ⟨hoops, hpc, rfl⟩ := h
  obtain ⟨s₁, s₂, predicted, h₁, h₂, hdev, hmoved₁, hmoved, -⟩ := post_steps hoops hpc hfresh
  have hoops₂ : s₂.oopsed = false := hmoved.oopsed.trans hoops
  have h₃ := step_send mfa hoops₂ hmoved.pc
  have hbuild : SecondRecycleHarmless (.go c) s :=
    harmless_of_pc (goesOnly_go c) (by rw [hpc]; rfl)
  have happend : SecondRecycleHarmless (.go c) s₁ :=
    harmless_of_pc (goesOnly_go c) (by rw [hmoved₁.pc]; rfl)
  have hsend : SecondRecycleHarmless (.send c mfa) s₂ := harmless_of_none rfl s₂
  refine ⟨_, (leads_step hbuild h₁).trans ((leads_step happend h₂).trans (leads_step hsend h₃)),
    ⟨?_, ?_, ?_⟩, ?_⟩
  · cases mfa <;> exact hoops₂
  · rw [Sys.setPc_self]
  · have hbuilt : e ∉ (s.dev.buildRch e op.handler c kbuf op.flags t).list := hfresh
    rw [postRequest, rchAppend, if_neg hbuilt] at hpost
    cases mfa <;> cases hpost <;> simp [Sys.sendI2OKbuf, Sys.setPc, Sys.setClient, hdev]
    all_goals rfl
  · rintro rfl
    refine ⟨s₂.nextMessage e t kbuf predicted, List.mem_append_right _ List.mem_cons_self, ?_⟩
    show makeIdDtacq ((s₂.dev.i2oLastIdOut + 1).signExtend 32) = nextId s.dev
    rw [hdev, nextId, makeIdDtacq_next]
    exact makeIdDtacq_incremented s.dev.i2oLastIdOut

/-! ## Replies -/

/-- The card answers the message, and the bottom half takes the reply to the
handler of its id. -/
theorem StandsAt.reply {p : Posted} {start nsamples : BitVec 32}
    (h : StandsAt s c pc d) (hp : p ∈ s.unanswered)
    (hreply : d.processCommandMessageReturn p.id start nsamples = some d') :
    Reaches s c pc d' := by
  obtain ⟨n, hn⟩ := List.getElem?_of_mem hp
  obtain ⟨hoops, hpc, rfl⟩ := h
  have hanswer : Sys.step (.answer n) s = some
      { s with unanswered := s.unanswered.eraseIdx n, replies := s.replies ++ [p] } := by
    simp [Sys.step, hoops, hn]
  have hdispatch : Sys.step (.dispatch s.replies.length start nsamples)
      { s with unanswered := s.unanswered.eraseIdx n, replies := s.replies ++ [p] } = some
      { s with
        unanswered := s.unanswered.eraseIdx n
        dev := d'
        replies := (s.replies ++ [p]).eraseIdx s.replies.length } := by
    simp [Sys.step, hoops, hreply, Sys.orOops]
  exact ⟨_, (leads_step (harmless_of_none rfl _) hanswer).trans
    (leads_step (harmless_of_none rfl _) hdispatch), hoops, hpc, rfl⟩

theorem StandsAt.wake (h : StandsAt s c (.waitRead e t) d)
    (hvalid : (d.rch e).rchReturn.valid ≠ 0) : Reaches s c (.removeIfNotValid e t) d := by
  obtain ⟨hoops, hpc, rfl⟩ := h
  refine StandsAt.stay ⟨hoops, hpc, rfl⟩ rfl (goesOnly_of_none (l := .wake c) rfl c) ?_
  simp [Sys.step, hoops, Sys.clientStep, hpc, Sys.wake, Sys.validOf, hvalid]

theorem StandsAt.signal (h : StandsAt s c (.waitRead e t) d) :
    Reaches s c (.removeIfNotValid e t) d := by
  obtain ⟨hoops, hpc, rfl⟩ := h
  refine StandsAt.stay ⟨hoops, hpc, rfl⟩ rfl (goesOnly_of_none (l := .signal c) rfl c) ?_
  simp [Sys.step, hoops, Sys.clientStep, hpc, Sys.signal]

/-- A request leaves the other handlers as they are. -/
theorem postRequest_rch_of_ne {handler : Handler} {path flags other : Nat} {mfa : Bool}
    {rc : Int} (h : postRequest d e handler path kbuf flags t mfa = some (d', rc))
    (hne : other ≠ e) : d'.rch other = d.rch other := by
  obtain ⟨d₁, happend, hsend⟩ := Option.map_eq_some_iff.mp h
  rw [Device.rchAppend] at happend
  split at happend
  · cases happend
  · cases happend
    cases mfa <;> cases hsend <;> exact Function.update_of_ne hne _ _

/-- The handler of a request is the one that its reply finds, if no handler
before it on the list has its id. -/
theorem Requested.findRch {handler : Handler} {path flags : Nat} {mfa : Bool} {rc : Int}
    (h : Requested d d' e handler path kbuf flags t mfa rc)
    (hkept : ∀ other ∈ d.list, d'.rch other = d.rch other)
    (hids : ∀ other ∈ d.list, (d.rch other).commandId ≠ nextId d) :
    d'.findRch (nextId d) = some e := by
  have hother : d.list.find? (fun other => (d'.rch other).commandId == nextId d) = none := by
    rw [List.find?_eq_none]
    intro other hmem
    rw [hkept other hmem, beq_iff_eq]
    exact hids other hmem
  rw [Device.findRch, h.list, List.find?_append, hother, Option.none_or,
    List.find?_singleton, h.rch]
  exact if_pos (beq_self_eq_true _)

/-! ## The calls -/

/-- The run of a call ends where the function says: it returns with the device of
the outcome, or it faults. -/
def EndsAs (s : Sys) (c : Nat) (o : Outcome) : Prop :=
  o.rc.isSome = true ∧ Reaches s c .idle o.device ∨ o.rc = none ∧ Faults s

/-- The cursors of both pools are in range. -/
structure InRange (d : Device) : Prop where
  handlers : d.handlers.cursor < d.handlers.maxEntries
  mappings : d.mappings.cursor < d.mappings.maxEntries

theorem EndsAs.of_leads {s₁ : Sys} {o : Outcome} (h : EndsAs s₁ c o)
    (hleads : Leads Sys.step SecondRecycleHarmless s s₁) : EndsAs s c o := by
  rcases h with ⟨hrc, s', hleads', hidle⟩ | ⟨hrc, s', hleads', hoops⟩
  · exact Or.inl ⟨hrc, s', hleads.trans hleads', hidle⟩
  · exact Or.inr ⟨hrc, s', hleads.trans hleads', hoops⟩

/-- What a call that goes on to `pc` ends as. -/
theorem Reaches.endsAs {o : Outcome} (h : Reaches s c pc d)
    (hnext : ∀ s', StandsAt s' c pc d → EndsAs s' c o) : EndsAs s c o := by
  obtain ⟨s₁, hleads, hat⟩ := h
  exact (hnext s₁ hat).of_leads hleads

/-- The error returns before `buildRch`. -/
theorem StandsAt.recycleUnbuilt_endsAs {rc : Int} {posp : BitVec 64}
    (h : StandsAt s c (.recycleUnbuilt e t none) d) :
    EndsAs s c (Bridge.recycleUnbuilt d e t posp fun d =>
      Outcome.early (some rc) d posp) := by
  rw [Bridge.recycleUnbuilt]
  cases hrecycle : d.i2oRecycleRch e t with
  | none => exact Or.inr ⟨rfl, h.recycleUnbuilt_faults hrecycle⟩
  | some d' => exact Or.inl ⟨rfl, h.recycleUnbuilt hrecycle⟩

/-! ## Reads -/

/-- The end of a read, from `acq200_rch_remove_if_not_valid` on. -/
theorem StandsAt.finishRead_endsAs {done : Outcome} {kbuf : KBuf}
    (h : StandsAt s c (.removeIfNotValid e t) done.device) (hrc : done.rc = none) :
    EndsAs s c (finishRead done e t kbuf) := by
  rw [finishRead]
  cases hremove : done.device.rchRemoveIfNotValid e with
  | none =>
    refine Or.inr ⟨hrc, ?_⟩
    obtain ⟨hoops, hpc, hdev⟩ := h
    refine StandsAt.oops ⟨hoops, hpc, hdev⟩ rfl (goesOnly_go c) ?_
    simp [Sys.step, hoops, Sys.clientStep, hpc, Sys.goRequest, hdev, hremove]
  | some p =>
    obtain ⟨d₁, valid⟩ := p
    have hremoved : Reaches s c (if valid = 0 then .idle else .recycleRead e t) d₁ := by
      refine h.setPc rfl (goesOnly_go c) ?_
      obtain ⟨hoops, hpc, hdev⟩ := h
      simp [Sys.step, hoops, Sys.clientStep, hpc, Sys.goRequest, hdev, hremove]
    simp only
    split
    · rename_i hone
      rw [if_neg (by omega)] at hremoved
      cases hrecycle : d₁.i2oRecycleRch e t with
      | none => exact Or.inr ⟨hrc, hremoved.faults fun _ h' => h'.recycleRead_faults hrecycle⟩
      | some d₂ => exact Or.inl ⟨rfl, hremoved.bind fun _ h' => h'.recycleRead hrecycle⟩
    · split
      · rename_i hzero
        rw [if_pos hzero] at hremoved
        exact Or.inl ⟨rfl, hremoved⟩
      · rename_i hzero
        rw [if_neg hzero] at hremoved
        cases hrecycle : d₁.i2oRecycleRch e t with
        | none =>
          exact Or.inr ⟨hrc, hremoved.faults fun _ h' => h'.recycleRead_faults hrecycle⟩
        | some d₂ => exact Or.inl ⟨rfl, hremoved.bind fun _ h' => h'.recycleRead hrecycle⟩

/-- The wait of a read.  The reply comes, or a signal ends the wait. -/
theorem Posts.afterWait {path flags : Nat} {rc : Int} {env : Env}
    {pooled : Kbuf} (h : Posts s c (.waitRead e t) d' env.mfa (nextId d))
    (hreq : Requested d d' e .handleReadMessageFile path (some pooled) flags t env.mfa rc)
    (hfind : d'.findRch (nextId d) = some e) :
    ∃ d₁, Bridge.afterWait d' e .handleReadMessageFile env = some d₁ ∧
      Reaches s c (.removeIfNotValid e t) d₁ := by
  by_cases hsignal : env.mfa = false ∨ env.reply = none
  · exact ⟨d', afterWait_signal hsignal, h.stands.signal⟩
  · have hmfa : env.mfa = true := Bool.of_not_eq_false fun hf => hsignal (Or.inl hf)
    obtain ⟨⟨start, nsamples⟩, hreply⟩ : ∃ p, env.reply = some p :=
      Option.ne_none_iff_exists'.mp fun hn => hsignal (Or.inr hn)
    refine ⟨_, afterWait_reply hreq hmfa hreply, ?_⟩
    obtain ⟨p, hp, hid⟩ := h.message hmfa
    have hhandled : d'.processCommandMessageReturn p.id start nsamples
        = some (replied d' e start nsamples) := by
      have hhandler : (d'.rch e).handler = some .handleReadMessageFile := by rw [hreq.rch]
      have hpath : (d'.rch e).path = some path := by rw [hreq.rch]
      rw [processCommandMessageReturn, hid, hfind]
      simp only [hhandler]
      exact handle_read hpath
    refine (StandsAt.reply h.stands hp hhandled).bind fun s' h' => h'.wake ?_
    rw [replied, setRch_rch_self]
    show (setSamples (d'.rch e).rchReturn start nsamples).valid ≠ 0
    rw [setSamples]
    split <;> simp

/-- A read from the test of `kbuf->len` on. -/
theorem StandsAt.readInto_endsAs {file : File} {pooled : Kbuf} {flags : Nat}
    (hrdCode : BitVec 16) (count : Nat) (posp : BitVec 64) (env : Env) (kbuf : KBuf)
    (pam : BitVec 32) (hop : op = .read ∨ op = .readAB) (hflags : op.flags = flags)
    (hids : ∀ other ∈ d.list, (d.rch other).commandId ≠ nextId d)
    (h : StandsAt s file.path (.checkLen op e t pooled) d) :
    EndsAs s file.path
      (readInto file hrdCode d count posp env e t kbuf pooled pam flags) := by
  subst hflags
  have hwrite : op ≠ .write := by rcases hop with rfl | rfl <;> simp
  have hhandler : op.handler = .handleReadMessageFile := by rcases hop with rfl | rfl <;> rfl
  have hafter : Sys.afterSend op e t = .waitRead e t := by rcases hop with rfl | rfl <;> rfl
  by_cases hlen : kbuf.len = 0
  · rw [readInto, if_pos hlen, Bridge.recycleUnbuilt]
    have hempty : Reaches s file.path (.recycleUnbuilt e t (some pooled)) d := by
      have := h.check true
      rwa [if_pos rfl, if_neg hwrite] at this
    cases hrecycle : d.i2oRecycleRch e t with
    | none => exact Or.inr ⟨rfl, hempty.faults fun _ h' => h'.recycleUnbuilt_faults hrecycle⟩
    | some d' =>
      have hfree := hempty.bind fun _ h' => h'.recycleUnbuilt hrecycle
      exact Or.inl ⟨rfl, hfree.bind fun _ h' => h'.freeMapping⟩
  · refine Reaches.endsAs (h.check false) fun s₁ h₁ => ?_
    by_cases hlinked : e ∈ d.list
    · exact Or.inr ⟨(readInto_linked hlen hlinked).1, StandsAt.post_faults h₁ hlinked⟩
    · obtain ⟨d', rc, hpost⟩ : ∃ d' rc, postRequest d e op.handler file.path (some pooled)
          op.flags t env.mfa = some (d', rc) := exists_requested hlinked
      obtain ⟨s₂, hleads, h₂⟩ := StandsAt.post h₁ hpost
      rw [hafter] at h₂
      rw [hhandler] at hpost
      have hreq := requested hpost
      have hkept : ∀ other ∈ d.list, d'.rch other = d.rch other := fun other hmem =>
        postRequest_rch_of_ne hpost (ne_of_mem_of_not_mem hmem hlinked)
      obtain ⟨d₁, hwait, hremove⟩ := h₂.afterWait hreq (hreq.findRch hkept hids)
      rw [readInto_waits hlen hpost, hwait]
      have hends : EndsAs s₂ file.path (finishRead (waitingRead d₁ posp
          (readRequest file hrdCode count posp kbuf pam) rc) e t kbuf) :=
        hremove.endsAs fun _ h' => h'.finishRead_endsAs rfl
      exact hends.of_leads hleads

/-- A read is a run of the system.  A file of the AB device gives the mapping
of its first buffer, and no handler on the list has the id of the request. -/
theorem read_is_run {file : File} (hrdCode : BitVec 16) (count : Nat) (posp : BitVec 64)
    (env : Env) (given : Option KBuf) (h : StandsAt s file.path .idle d)
    (hkind : (s.clients file.path).kind = if given.isSome then .bufferAB else .bridge)
    (hrange : InRange d) (hids : ∀ other ∈ d.list, (d.rch other).commandId ≠ nextId d) :
    EndsAs s file.path (bridgeReadGeneric file hrdCode d count posp given env) := by
  obtain ⟨op, hop, hcall⟩ : ∃ op, op = (if given.isSome then Op.readAB else .read) ∧
      Reaches s file.path (.allocRch op none) d := by
    obtain ⟨hoops, hpc, rfl⟩ := h
    refine ⟨_, rfl, StandsAt.stay ⟨hoops, hpc, rfl⟩ rfl
      (goesOnly_of_none (l := .call file.path .read) rfl file.path) ?_⟩
    cases hsome : given.isSome <;>
      simp [Sys.step, hoops, Sys.clientStep, hpc, Sys.call, hkind, hsome]
  have htransfers : Op.Transfers op := by
    rw [hop]
    split <;> trivial
  refine hcall.endsAs fun s₁ h₁ => ?_
  cases he : allocAlone d.handlers with
  | none =>
    rw [read_no_handler hrdCode count posp env given he]
    exact Or.inl ⟨rfl, h₁.noHandler htransfers hrange.handlers he⟩
  | some e =>
    refine (h₁.allocRch he).endsAs fun s₂ h₂ => ?_
    cases given with
    | some kbuf =>
      cases hop
      rw [read_given hrdCode count posp env he kbuf]
      exact StandsAt.readInto_endsAs hrdCode count posp env kbuf kbuf.pa (Or.inr rfl) rfl
        hids h₂
    | none =>
      cases hop
      cases hm : allocAlone d.mappings with
      | none =>
        rw [read_no_mapping hrdCode count posp env he hm]
        refine Reaches.endsAs (StandsAt.noMapping h₂ hrange.mappings hm) fun s₃ h₃ => ?_
        exact h₃.recycleUnbuilt_endsAs
      | some m =>
        refine Reaches.endsAs (StandsAt.allocMapping h₂ hm) fun s₃ h₃ => ?_
        rw [read_pool hrdCode count posp env he hm]
        exact StandsAt.readInto_endsAs hrdCode count posp env (file.kbuf m) _ (Or.inl rfl)
          rfl hids h₃

/-- The first read of a bridge file. -/
example (file : File) (lastId : BitVec 16) (count : Nat) (posp : BitVec 64) (env : Env)
    (hopen : Sys.step (.openFile file.path .bridge) (initial lastId) = some s) :
    EndsAs s file.path (bridgeRead file (poolCreate lastId) count posp env) := by
  simp only [Sys.step, Sys.clientStep, Sys.openFile, initial, unopenedClient] at hopen
  cases hopen
  refine read_is_run HRD_CHAN_IS_FILE count posp env none ⟨rfl, ?_, rfl⟩ ?_
    ⟨?_, ?_⟩ (by simp [poolCreate])
  · rw [Sys.setClient_self]
  · rw [Sys.setClient_self]
    rfl
  · show 0 < NHANDLERS
    decide
  · show 0 < NMAPPINGS
    decide

/-- A write is a run of the system. -/
theorem write_is_run {file : File} (hrdCode : BitVec 16) (count : Nat) (posp : BitVec 64)
    (env : Env) (h : StandsAt s file.path .idle d) (hrange : InRange d) :
    EndsAs s file.path (bridgeWriteGeneric file hrdCode d count posp env) := by
  have hcall : Reaches s file.path (.allocRch .write none) d := by
    obtain ⟨hoops, hpc, rfl⟩ := h
    refine StandsAt.stay ⟨hoops, hpc, rfl⟩ rfl
      (goesOnly_of_none (l := .call file.path .write) rfl file.path) ?_
    simp [Sys.step, hoops, Sys.clientStep, hpc, Sys.call]
  refine hcall.endsAs fun s₁ h₁ => ?_
  cases he : allocAlone d.handlers with
  | none =>
    rw [write_no_handler hrdCode count posp env he]
    exact Or.inl ⟨rfl, h₁.noHandler trivial hrange.handlers he⟩
  | some e =>
    refine (h₁.allocRch he).endsAs fun s₂ h₂ => ?_
    cases hm : allocAlone d.mappings with
    | none =>
      rw [write_no_mapping hrdCode count posp env he hm]
      refine Reaches.endsAs (StandsAt.noMapping h₂ hrange.mappings hm) fun s₃ h₃ => ?_
      exact h₃.recycleUnbuilt_endsAs
    | some m =>
      refine Reaches.endsAs (StandsAt.allocMapping h₂ hm) fun s₃ h₃ => ?_
      by_cases hn : (file.kbuf m).clip count = 0
      · rw [write_no_bytes hrdCode count posp env he hm hn]
        exact Or.inl ⟨rfl, h₃.check true⟩
      · refine Reaches.endsAs (h₃.check false) fun s₄ h₄ => ?_
        by_cases hlinked : e ∈ d.list
        · obtain ⟨hrc, -, -⟩ := write_linked hrdCode count posp env he hm hn hlinked
          exact Or.inr ⟨hrc, StandsAt.post_faults h₄ hlinked⟩
        · obtain ⟨d', rc, hpost, heq⟩ := write_sent hrdCode count posp env he hm hn hlinked
          rw [heq]
          obtain ⟨s', hleads, hposts⟩ := StandsAt.post h₄ hpost
          exact Or.inl ⟨rfl, s', hleads, hposts.stands⟩

/-! ## What the calls keep -/

/-- A call that returns leaves the handlers and the list as the rule of
ownership wants them. -/
theorem EndsAs.devInv {o : Outcome} (h : EndsAs s c o) (hown : OwnInv s)
    (hrc : o.rc.isSome = true) : DevInv o.device := by
  rcases h with ⟨-, s', hleads, hat⟩ | ⟨hnone, -⟩
  · have hown' : OwnInv s' :=
      hleads.inv (fun l s s' h hok hstep => ownInv_step h hok (trans_of_step hstep)) hown
    rw [← hat.dev]
    exact hown'.dev
  · rw [hnone] at hrc
    cases hrc

theorem write_devInv {file : File} (hrdCode : BitVec 16) (count : Nat) (posp : BitVec 64)
    (env : Env) (h : StandsAt s file.path .idle d) (hrange : InRange d) (hown : OwnInv s)
    (hrc : (bridgeWriteGeneric file hrdCode d count posp env).rc.isSome = true) :
    DevInv (bridgeWriteGeneric file hrdCode d count posp env).device :=
  (write_is_run hrdCode count posp env h hrange).devInv hown hrc

theorem read_devInv {file : File} (hrdCode : BitVec 16) (count : Nat) (posp : BitVec 64)
    (env : Env) (given : Option KBuf) (h : StandsAt s file.path .idle d)
    (hkind : (s.clients file.path).kind = if given.isSome then .bufferAB else .bridge)
    (hrange : InRange d) (hids : ∀ other ∈ d.list, (d.rch other).commandId ≠ nextId d)
    (hown : OwnInv s)
    (hrc : (bridgeReadGeneric file hrdCode d count posp given env).rc.isSome = true) :
    DevInv (bridgeReadGeneric file hrdCode d count posp given env).device :=
  (read_is_run hrdCode count posp env given h hkind hrange hids).devInv hown hrc

end Steps

end Acq200.Bridge
