import Acq200.Rch.Transitions

/-!
# What the steps of a client do not look at

The driver counts the packets that it discards and never reads the count.
A client does not see the replies that wait for the bottom half either.
`rebase` changes both, and a step of a client commutes with it.

The dispatch of a reply does look at the replies, so it only commutes with
`recount`, and it may itself have counted one more packet.
-/

namespace Acq200.Rch

namespace Device

variable {d : Device} {e : Nat} {caller : Tag} {n : BitVec 32}

/-- The device with another number of discarded packets. -/
def recount (d : Device) (n : BitVec 32) : Device := { d with i2oPacketsDiscarded := n }

@[simp] theorem recount_rch (d : Device) (n : BitVec 32) : (d.recount n).rch = d.rch := rfl

@[simp] theorem recount_list (d : Device) (n : BitVec 32) : (d.recount n).list = d.list := rfl

theorem setRch_recount (rch : ReturnCommandHandler) :
    (d.recount n).setRch e rch = (d.setRch e rch).recount n := rfl

theorem listDel_recount : (d.recount n).listDel e = (d.listDel e).map (recount · n) := by
  rw [listDel, listDel, recount_list]
  split <;> rfl

theorem rchAppend_recount : (d.recount n).rchAppend e = (d.rchAppend e).map (recount · n) := by
  rw [rchAppend, rchAppend, recount_list]
  split <;> rfl

theorem rchRemove_recount : (d.recount n).rchRemove e = (d.rchRemove e).map (recount · n) := by
  rw [rchRemove, rchRemove, listDel_recount]
  cases d.listDel e <;> rfl

theorem rchRemoveIfNotValid_recount :
    (d.recount n).rchRemoveIfNotValid e
      = (d.rchRemoveIfNotValid e).map fun p => (p.1.recount n, p.2) := by
  rw [rchRemoveIfNotValid, rchRemoveIfNotValid, recount_rch, listDel_recount]
  by_cases hvalid : (d.rch e).rchReturn.valid ≠ 1
  · rw [if_pos hvalid, if_pos hvalid]
    by_cases hneg : (d.rch e).rchReturn.valid < 0
    · rw [if_pos hneg, if_pos hneg]
      cases d.listDel e <;> rfl
    · rw [if_neg hneg, if_neg hneg]
      rfl
  · rw [if_neg hvalid, if_neg hvalid]
    rfl

theorem poolFreeMapping_recount (kbuf : Kbuf) :
    (d.recount n).poolFreeMapping kbuf = (d.poolFreeMapping kbuf).recount n := by
  cases kbuf <;> rfl

/-- The frees at the end of `i2o_recycleRch`. -/
theorem recycle_recount (d : Device) (e : Nat) (caller : Tag) (n : BitVec 32) :
    (match poolKbuf (d.rch e).rchReturn with
      | none => d.recount n
      | some kbuf => (d.recount n).poolFreeMapping kbuf).poolFreeRch e caller
      = ((match poolKbuf (d.rch e).rchReturn with
        | none => d
        | some kbuf => d.poolFreeMapping kbuf).poolFreeRch e caller).recount n := by
  cases poolKbuf (d.rch e).rchReturn with
  | none => rfl
  | some kbuf => cases kbuf <;> rfl

theorem i2oRecycleRch_recount :
    (d.recount n).i2oRecycleRch e caller = (d.i2oRecycleRch e caller).map (recount · n) := by
  have hremove : (if (d.rch e).path.isSome then (d.recount n).rchRemove e else some (d.recount n))
      = (if (d.rch e).path.isSome then d.rchRemove e else some d).map (recount · n) := by
    split
    · exact rchRemove_recount
    · rfl
  rw [i2oRecycleRch, i2oRecycleRch, recount_rch, hremove]
  cases (if (d.rch e).path.isSome then d.rchRemove e else some d) with
  | none => rfl
  | some d₁ =>
    rw [Option.map_some, Option.bind_some, Option.bind_some, recount_rch]
    split
    · rw [Option.map_some]
      exact congrArg some (recycle_recount d₁ e caller n)
    · rfl

theorem handle_recount (start nsamples : BitVec 32) (handler : Handler) :
    (d.recount n).handle e start nsamples handler
      = (d.handle e start nsamples handler).map (recount · n) := by
  cases handler with
  | handleReadMessageFile =>
    simp only [handle, rchSetSamplesAndGetPath, recount_rch, setRch_recount]
    cases (d.rch e).path with
    | some path => rfl
    | none => exact i2oRecycleRch_recount
  | recycleRchWrapper => exact i2oRecycleRch_recount
  | handleLastMessage =>
    have hlast : ∀ d₁ : Device,
        (if (d₁.rch e).path.isSome then (d₁.recount n).i2oRecycleRch e (d₁.rch e).request else none)
          = (if (d₁.rch e).path.isSome then d₁.i2oRecycleRch e (d₁.rch e).request
              else none).map (recount · n) := by
      intro d₁
      split
      · exact i2oRecycleRch_recount
      · rfl
    exact hlast (d.setRch e _)

/-- The dispatch of a reply may count a packet, and does nothing else with the
count. -/
theorem processCommandMessageReturn_recount (d : Device) (n : BitVec 32) (id : BitVec 16)
    (start nsamples : BitVec 32) :
    ∃ m, (d.recount n).processCommandMessageReturn id start nsamples
      = (d.processCommandMessageReturn id start nsamples).map (recount · m) := by
  simp only [processCommandMessageReturn, recount_rch]
  rw [show (d.recount n).findRch id = d.findRch id from rfl]
  cases d.findRch id with
  | none => exact ⟨n, rfl⟩
  | some e =>
    simp only
    cases (d.rch e).handler with
    | some handler => exact ⟨n, handle_recount start nsamples handler⟩
    | none =>
      refine ⟨n + 1, ?_⟩
      simp only
      rw [i2oRecycleRch_recount, Option.map_map, Option.map_map]
      cases h : d.i2oRecycleRch e (d.rch e).request with
      | none => rfl
      | some d₁ => rfl

end Device

/-! ## The steps of a client -/

namespace Sys

variable {s : Sys} {c : Nat} {replies : List Posted} {n : BitVec 32}

/-- The system with other replies in wait and another count. -/
def rebase (s : Sys) (replies : List Posted) (n : BitVec 32) : Sys :=
  { s with dev := s.dev.recount n, replies := replies }

@[simp] theorem rebase_clients (s : Sys) (replies : List Posted) (n : BitVec 32) :
    (s.rebase replies n).clients = s.clients := rfl

@[simp] theorem rebase_dev (s : Sys) (replies : List Posted) (n : BitVec 32) :
    (s.rebase replies n).dev = s.dev.recount n := rfl

/-- A step that may fault commutes if what follows it does. -/
theorem orOops_rebase {d : Option Device} {next : Device → Sys} {next' : Device → Sys}
    (h : ∀ d, next' (d.recount n) = (next d).rebase replies n) :
    (s.rebase replies n).orOops (d.map (Device.recount · n)) next'
      = (s.orOops d next).rebase replies n := by
  cases d with
  | none => rfl
  | some d => exact h d

theorem goAllocRch_rebase (op : Op) (asleep : Option Nat) :
    (s.rebase replies n).goAllocRch c op asleep
      = (s.goAllocRch c op asleep).map (rebase · replies n) := by
  have hstretch : (s.rebase replies n).dev.handlers.stretch asleep
      = s.dev.handlers.stretch asleep := rfl
  rw [goAllocRch, goAllocRch, hstretch]
  cases s.dev.handlers.stretch asleep with
  | none => rfl
  | some scan => cases scan <;> rfl

theorem goAllocMapping_rebase (op : Op) (e : Nat) (t : Tag) (asleep : Option Nat) :
    (s.rebase replies n).goAllocMapping c op e t asleep
      = (s.goAllocMapping c op e t asleep).map (rebase · replies n) := by
  have hstretch : (s.rebase replies n).dev.mappings.stretch asleep
      = s.dev.mappings.stretch asleep := rfl
  rw [goAllocMapping, goAllocMapping, hstretch]
  cases s.dev.mappings.stretch asleep with
  | none => rfl
  | some scan => cases scan <;> rfl

theorem goRequest_rebase (pc : Pc) :
    (s.rebase replies n).goRequest c pc = (s.goRequest c pc).map (rebase · replies n) := by
  cases pc with
  | allocRch op asleep =>
    cases asleep with
    | none => exact goAllocRch_rebase op none
    | some ibuf => rfl
  | allocMapping op e t asleep =>
    cases asleep with
    | none => exact goAllocMapping_rebase op e t none
    | some ibuf => rfl
  | recycleUnbuilt e t kbuf =>
    simp only [goRequest, rebase_dev, Device.i2oRecycleRch_recount, Option.map_some]
    exact congrArg some (orOops_rebase fun _ => rfl)
  | freeMapping kbuf =>
    simp only [goRequest, rebase_dev, Device.poolFreeMapping_recount]
    rfl
  | append op e t kbuf predicted =>
    simp only [goRequest, rebase_dev, Device.rchAppend_recount, Option.map_some]
    exact congrArg some (orOops_rebase fun _ => rfl)
  | removeIfNotValid e t =>
    simp only [goRequest, rebase_dev, Device.rchRemoveIfNotValid_recount]
    cases s.dev.rchRemoveIfNotValid e <;> rfl
  | recycleRead e t =>
    simp only [goRequest, rebase_dev, Device.i2oRecycleRch_recount, Option.map_some]
    exact congrArg some (orOops_rebase fun _ => rfl)
  | _ => rfl

theorem goRelease_rebase (pc : Pc) :
    (s.rebase replies n).goRelease c pc = (s.goRelease c pc).map (rebase · replies n) := by
  cases pc with
  | recycleLast e t =>
    simp only [goRelease, rebase_dev, Device.i2oRecycleRch_recount, Option.map_some]
    exact congrArg some (orOops_rebase fun _ => rfl)
  | cleanup =>
    simp only [goRelease, rebase_dev]
    rw [show (s.dev.recount n).cleanupRch c = s.dev.cleanupRch c from rfl]
    cases s.dev.cleanupRch c with
    | none => rfl
    | some e =>
      simp only [Device.recount_rch, Device.i2oRecycleRch_recount, Option.map_some]
      exact congrArg some (orOops_rebase fun _ => rfl)
  | _ => rfl

theorem goAB_rebase (pc : Pc) :
    (s.rebase replies n).goAB c pc = (s.goAB c pc).map (rebase · replies n) := by
  cases pc with
  | recycleAB buffer recycleA recycleB =>
    simp only [goAB, rebase_clients, rebase_dev]
    split
    · simp only [Device.i2oRecycleRch_recount, Option.map_some]
      exact congrArg some (orOops_rebase fun _ => rfl)
    · rfl
  | queueAB buffer =>
    simp only [goAB, rebase_clients]
    split <;> rfl
  | fillAB second =>
    simp only [goAB, rebase_clients, rebase_dev, Device.recount_rch]
    split
    · rfl
    · rename_i e _ _
      by_cases hvalid : (s.dev.rch e).rchReturn.valid ≠ 0
      · refine (if_pos hvalid).trans ?_
        rw [if_pos hvalid]
        cases second <;> rfl
      · refine (if_neg hvalid).trans ?_
        rw [if_neg hvalid]
        rfl
  | _ => rfl

theorem wake_rebase (pc : Pc) :
    (s.rebase replies n).wake c pc = (s.wake c pc).map (rebase · replies n) := by
  have hvalid : ∀ e, (s.rebase replies n).validOf e = s.validOf e := fun _ => rfl
  cases pc with
  | allocRch op asleep =>
    cases asleep with
    | none => rfl
    | some ibuf => exact goAllocRch_rebase op (some ibuf)
  | allocMapping op e t asleep =>
    cases asleep with
    | none => rfl
    | some ibuf => exact goAllocMapping_rebase op e t (some ibuf)
  | waitRead e t =>
    simp only [wake, hvalid]
    split <;> rfl
  | waitLast e t =>
    simp only [wake, hvalid]
    split <;> rfl
  | waitAB =>
    simp only [wake, hvalid, rebase_clients]
    split
    · rfl
    · split <;> rfl
  | _ => rfl

theorem timeout_rebase (pc : Pc) :
    (s.rebase replies n).timeout c pc = (s.timeout c pc).map (rebase · replies n) := by
  cases pc with
  | allocRch op asleep =>
    cases asleep with
    | none => cases op <;> rfl
    | some ibuf => cases op <;> rfl
  | allocMapping op e t asleep => cases asleep <;> rfl
  | _ => rfl

theorem signal_rebase (pc : Pc) :
    (s.rebase replies n).signal c pc = (s.signal c pc).map (rebase · replies n) := by
  cases pc <;> rfl

theorem check_rebase (pc : Pc) (zero : Bool) :
    (s.rebase replies n).check c zero pc = (s.check c zero pc).map (rebase · replies n) := by
  cases pc with
  | checkLen op e t kbuf =>
    simp only [check]
    split
    · split <;> rfl
    · rfl
  | _ => rfl

theorem call_rebase (client : Client) (call : Call) :
    (s.rebase replies n).call c client call = (s.call c client call).map (rebase · replies n) := by
  cases call with
  | ioctlAB copied recycleA recycleB =>
    simp only [Sys.call]
    rw [show (s.rebase replies n).busyFree = s.busyFree from rfl]
    split <;> rfl
  | _ => rfl

theorem openFile_rebase (kind : Kind) :
    (s.rebase replies n).openFile c kind = (s.openFile c kind).map (rebase · replies n) := by
  cases kind with
  | bridge =>
    simp only [openFile]
    rw [show (s.rebase replies n).busyFree = s.busyFree from rfl]
    split <;> rfl
  | bufferAB => rfl

theorem step_client {l : Label} (hl : l.client = some c) (hoops : s.oopsed = false) :
    step l s = s.clientStep c l := by
  unfold step
  rw [hoops, if_neg Bool.false_ne_true]
  cases l with
  | answer n => cases hl
  | dispatch n start nsamples => cases hl
  | _ =>
    obtain rfl := Option.some.inj hl
    rfl

/-- A step of a client neither sees nor changes the count and the replies. -/
theorem clientStep_rebase (l : Label) :
    (s.rebase replies n).clientStep c l = (s.clientStep c l).map (rebase · replies n) := by
  cases l with
  | openFile c' kind =>
    show (if (s.clients c).pc = .unopened then (s.rebase replies n).openFile c kind else none)
      = (if (s.clients c).pc = .unopened then s.openFile c kind else none).map _
    split
    · exact openFile_rebase kind
    · rfl
  | call c' call =>
    show (if (s.clients c).pc = .idle then (s.rebase replies n).call c (s.clients c) call else none)
      = (if (s.clients c).pc = .idle then s.call c (s.clients c) call else none).map _
    split
    · exact call_rebase _ call
    · rfl
  | go c' =>
    simp only [clientStep, rebase_clients, goRequest_rebase, goRelease_rebase, goAB_rebase]
    cases s.goRequest c (s.clients c).pc with
    | some s₁ => rfl
    | none =>
      cases s.goRelease c (s.clients c).pc with
      | some s₁ => rfl
      | none => rfl
  | check c' zero => exact check_rebase _ zero
  | send c' mfa =>
    simp only [clientStep, rebase_clients]
    split
    · cases mfa <;> rfl
    · rfl
  | wake c' => exact wake_rebase _
  | timeout c' => exact timeout_rebase _
  | signal c' => exact signal_rebase _
  | answer m => rfl
  | dispatch m start nsamples => rfl

end Sys

end Acq200.Rch
