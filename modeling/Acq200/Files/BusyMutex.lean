import Acq200.Lib.Run
import Acq200.Lib.Tally

/-!
# The busy semaphore of the A/B buffers

A file that `acq200_open` sends to `return_open_take_busy` holds
`buffer_AB_busy_mutex` while it is open.  A file of the A/B buffers takes it
for the time of one `acq200_ioctlAB`.  Both record it in the flag
`has_AB_busy_mutex` of their path, and `acq200_release` ups the semaphore for
a path whose flag is set.

The model runs any number of threads over any number of files, and threads
may share a file.  A step ends where another call can matter, so that a
`down_interruptible` that succeeds is one step with the flag set after it.
`busy_accounted` is the result for every run in which no `COPY_FROM_USER` of
`acq200_ioctlAB` faults and no `acq200_open` is interrupted.
`faulted_ioctl_keeps_busy` is a run in which the copy faults.

The allocation of a path is taken to succeed, since `acq200_createPath`
clears it before it looks.
-/

namespace Acq200.Busy

open Acq200.Lib

/-! ## Opening by minor -/

/-- `_SPECIAL`, `SPECIAL_FLAGS`, `_CHANNEL`, `_FILE` and `_RSH`. -/
def isSpecial (minor : Nat) : Bool := minor &&& 0xe0 = 0xc0
def specialFlags (minor : Nat) : Nat := if isSpecial minor then minor &&& 0x1f else 0
def isChannelDev (minor : Nat) : Bool := minor &&& 0x80 = 0
def isFile (minor : Nat) : Bool := minor &&& 0xf0 = 0x80
def isRsh (minor : Nat) : Bool :=
  minor = 227 ∨ minor = 228 ∨ minor = 229 ∨ minor = 237

def devraw (minor : Nat) : Bool := isSpecial minor && specialFlags minor = 1
def bigdumpdev (minor : Nat) : Bool := isSpecial minor && specialFlags minor = 3
def llhostdev (minor : Nat) : Bool := isSpecial minor && specialFlags minor = 11

/-- The file operations that `acq200_open` chooses. -/
inductive Fops
  | mbox
  | host
  | llhost
  | bridgeAB
  | bridge
  deriving Repr, DecidableEq

/-- The choice of `acq200_open`, with `true` for `return_open_take_busy`. -/
def openFops (minor : Nat) : Fops × Bool :=
  if devraw minor then (.mbox, false)
  else if bigdumpdev minor then (.host, false)
  else if llhostdev minor then (.llhost, false)
  else if isChannelDev minor then
    if minor > 96 then (.bridgeAB, false) else (.bridge, true)
  else if isFile minor then (.bridge, true)
  else if isRsh minor then (.bridge, true)
  else (.host, true)

/-- The minor is opened through `return_open_take_busy`. -/
def takesBusy (minor : Nat) : Bool := (openFops minor).2

/-- A file of the A/B buffers does not take the semaphore when it is
opened. -/
theorem takesBusy_bridgeAB {minor : Nat} (h : (openFops minor).1 = .bridgeAB) :
    takesBusy minor = false := by
  revert h
  unfold takesBusy openFops
  repeat' split
  all_goals simp

/-! ## The state -/

structure Path where
  minor : Nat
  hasABBusyMutex : Bool
  deriving Repr, DecidableEq

/-- Where a thread is.  The places of `acq200_ioctlAB` name the file, and from
`ioctlUp` on the result of `acq200_bufferABaction`. -/
inductive Pc (n : Nat)
  | idle
  | openDown (i : Fin n) (minor : Nat)
  | ioctlDown (i : Fin n)
  | ioctlCopyIn (i : Fin n)
  | ioctlAction (i : Fin n)
  | ioctlUp (i : Fin n) (rc : Int)
  | ioctlUnflag (i : Fin n) (rc : Int)
  | ioctlCopyOut (i : Fin n)
  deriving Repr, DecidableEq

/-- What the statements of one `acq200_ioctlAB` have done so far: the times
they took the semaphore less those they gave it back, and whether they have
set the flag without clearing it. -/
structure Effect where
  units : Int
  leftFlag : Bool
  deriving Repr, DecidableEq

def Effect.nothing : Effect := ⟨0, false⟩

/-- The semaphore, the files that are open, the paths that failed opens have
left allocated, the threads with the effect of the call each is in, and the
results and effects of the calls of `acq200_ioctlAB` that have returned. -/
structure State (m n : Nat) where
  sem : Nat
  file : Fin n → Option Path
  leaked : Nat
  pc : Fin m → Pc n
  effect : Fin m → Effect
  returns : List (Int × Effect)

def State.init (m n : Nat) : State m n where
  sem := 1
  file := fun _ => none
  leaked := 0
  pc := fun _ => .idle
  effect := fun _ => .nothing
  returns := []

/-! ## The steps -/

def EFAULT : Int := 14
def ENOTTY : Int := 25
def ERESTARTSYS : Int := 512

variable {m n : Nat}

def State.goto (s : State m n) (t : Fin m) (pc : Pc n) : State m n :=
  { s with pc := Function.update s.pc t pc }

/-- A statement of `acq200_ioctlAB` has an effect. -/
def State.affect (s : State m n) (t : Fin m) (f : Effect → Effect) : State m n :=
  { s with effect := Function.update s.effect t (f (s.effect t)) }

def State.setFlag (s : State m n) (i : Fin n) (flag : Bool) : State m n :=
  { s with
    file := Function.update s.file i
      ((s.file i).map fun p => { p with hasABBusyMutex := flag }) }

/-- `acq200_ioctlAB` returns. -/
def State.ioctlReturn (s : State m n) (t : Fin m) (rc : Int) : State m n :=
  { s with
    pc := Function.update s.pc t .idle
    returns := s.returns ++ [(rc, s.effect t)] }

inductive Label (m n : Nat)
  /-- `acq200_open` of a minor, for the file `i`. -/
  | openFile (t : Fin m) (i : Fin n) (minor : Nat)
  /-- `down_interruptible` gets the semaphore. -/
  | down (t : Fin m)
  /-- `down_interruptible` sleeps and is interrupted. -/
  | interrupted (t : Fin m)
  /-- `acq200_ioctlAB`, with `true` for `ACQ200_BUFFER_AB_IOWR`. -/
  | ioctl (t : Fin m) (i : Fin n) (cmd : Bool)
  /-- `COPY_FROM_USER`, with `false` for a fault. -/
  | copyFromUser (t : Fin m) (ok : Bool)
  /-- `acq200_bufferABaction` returns. -/
  | action (t : Fin m) (rc : Int)
  | up (t : Fin m)
  | unflag (t : Fin m)
  /-- `COPY_TO_USER`, with `false` for a fault. -/
  | copyToUser (t : Fin m) (ok : Bool)
  /-- `acq200_release`, when no call is in progress on the file. -/
  | release (i : Fin n)
  deriving Repr, DecidableEq

/-- The thread is in a call on the file. -/
def Pc.on : Pc n → Fin n → Bool
  | .idle, _ | .openDown _ _, _ => false
  | .ioctlDown i, j | .ioctlCopyIn i, j | .ioctlAction i, j
  | .ioctlUp i _, j | .ioctlUnflag i _, j | .ioctlCopyOut i, j => i = j

def step : Label m n → State m n → Option (State m n)
  | .openFile t i minor, s =>
    if s.pc t = .idle ∧ s.file i = none then
      if takesBusy minor then some (s.goto t (.openDown i minor))
      else some { s with file := Function.update s.file i (some ⟨minor, false⟩) }
    else none
  | .down t, s =>
    if s.sem = 0 then none
    else
      let s' := { s with sem := s.sem - 1 }
      match s.pc t with
      | .openDown i minor =>
        if s.file i = none then
          some
            ({ s' with
               file := Function.update s.file i (some ⟨minor, true⟩) }.goto t .idle)
        else none
      | .ioctlDown i =>
        some (((s'.setFlag i true).affect t fun e => ⟨e.units + 1, true⟩).goto t
          (.ioctlCopyIn i))
      | _ => none
  | .interrupted t, s =>
    if s.sem = 0 then
      match s.pc t with
      -- acq200_open returns -ERESTARTSYS and no release follows
      | .openDown _ _ => some ({ s with leaked := s.leaked + 1 }.goto t .idle)
      | .ioctlDown _ => some (s.ioctlReturn t (-ERESTARTSYS))
      | _ => none
    else none
  | .ioctl t i cmd, s =>
    match s.file i with
    | some p =>
      if s.pc t = .idle ∧ (openFops p.minor).1 = .bridgeAB then
        let s' := s.affect t fun _ => .nothing
        if cmd then some (s'.goto t (.ioctlDown i))
        else some (s'.ioctlReturn t (-ENOTTY))
      else none
    | none => none
  | .copyFromUser t ok, s =>
    match s.pc t with
    | .ioctlCopyIn i =>
      if ok then some (s.goto t (.ioctlAction i))
      else some (s.ioctlReturn t (-EFAULT))
    | _ => none
  | .action t rc, s =>
    match s.pc t with
    | .ioctlAction i => some (s.goto t (.ioctlUp i rc))
    | _ => none
  | .up t, s =>
    match s.pc t with
    | .ioctlUp i rc =>
      some (({ s with sem := s.sem + 1 }.affect t
        fun e => ⟨e.units - 1, e.leftFlag⟩).goto t (.ioctlUnflag i rc))
    | _ => none
  | .unflag t, s =>
    match s.pc t with
    | .ioctlUnflag i rc =>
      let s' := (s.setFlag i false).affect t fun e => ⟨e.units, false⟩
      if rc = 0 then some (s'.goto t (.ioctlCopyOut i))
      else some (s'.ioctlReturn t rc)
    | _ => none
  | .copyToUser t ok, s =>
    match s.pc t with
    | .ioctlCopyOut _ => some (s.ioctlReturn t (if ok then 0 else -EFAULT))
    | _ => none
  | .release i, s =>
    match s.file i with
    | some p =>
      if ∀ t, (s.pc t).on i = false then
        some
          { s with
            sem := if p.hasABBusyMutex then s.sem + 1 else s.sem
            file := Function.update s.file i none }
      else none
    | none => none

/-! ## What the flag is for -/

/-- No call is in progress. -/
def State.Quiet (s : State m n) : Prop := ∀ t, s.pc t = .idle

instance (s : State m n) : Decidable s.Quiet :=
  inferInstanceAs (Decidable (∀ _, _ = _))

def flagged (f : Option Path) : Bool := f.any (·.hasABBusyMutex)

/-- Between calls the semaphore is 1 less the number of flagged paths, and a
flagged path was opened through `return_open_take_busy`.  Every return of
`acq200_ioctlAB` has given back what the call took and left no flag, and no
failed open has left a path. -/
def State.Accounted (s : State m n) : Prop :=
  (s.Quiet →
    s.sem + tally flagged s.file = 1 ∧
    ∀ i p, s.file i = some p → p.hasABBusyMutex = true → takesBusy p.minor = true) ∧
  (∀ r ∈ s.returns, r.2 = .nothing) ∧
  s.leaked = 0

/-- The thread waits in `acq200_open`. -/
def Pc.opening : Pc n → Bool
  | .openDown _ _ => true
  | _ => false

/-- The copy does not fault, and it is not `acq200_open` that is
interrupted. -/
def Undisturbed : Label m n → State m n → Bool
  | .copyFromUser _ ok, _ => ok
  | .interrupted t, s => !(s.pc t).opening
  | _, _ => true

/-! ## The invariant -/

/-- The thread holds the semaphore for its `acq200_ioctlAB`. -/
def Pc.holds : Pc n → Bool
  | .ioctlCopyIn _ | .ioctlAction _ | .ioctlUp _ _ => true
  | _ => false

/-- The thread has set the flag of the file and not yet cleared it. -/
def Pc.marks : Pc n → Fin n → Bool
  | .ioctlCopyIn i, j | .ioctlAction i, j | .ioctlUp i _, j
  | .ioctlUnflag i _, j => i = j
  | _, _ => false

/-- The effect that the call has had at the place. -/
def Pc.due : Pc n → Effect
  | .ioctlCopyIn _ | .ioctlAction _ | .ioctlUp _ _ => ⟨1, true⟩
  | .ioctlUnflag _ _ => ⟨0, true⟩
  | _ => .nothing

/-- The file holds the semaphore while it is open. -/
def heldFile (f : Option Path) : Bool := f.any fun p => takesBusy p.minor

/-- What holds in every state of an undisturbed run. -/
structure Inv (s : State m n) : Prop where
  sem : s.sem + tally Pc.holds s.pc + tally heldFile s.file = 1
  opening : ∀ t i minor, s.pc t = .openDown i minor → takesBusy minor = true
  busy : ∀ i p, s.file i = some p → takesBusy p.minor = true →
    p.hasABBusyMutex = true
  onAB : ∀ t i, (s.pc t).on i = true →
    ∃ p, s.file i = some p ∧ (openFops p.minor).1 = .bridgeAB
  flag : ∀ i p, s.file i = some p → p.hasABBusyMutex = true →
    takesBusy p.minor = true ∨ ∃ t, (s.pc t).marks i = true
  effect : ∀ t i, (s.pc t).on i = true → s.effect t = (s.pc t).due
  returns : ∀ r ∈ s.returns, r.2 = .nothing
  leaked : s.leaked = 0

theorem inv_init (m n : Nat) : Inv (State.init m n) where
  sem := by simp [State.init, tally, Pc.holds, heldFile]
  opening := by simp [State.init]
  busy := by simp [State.init]
  onAB := by simp [State.init, Pc.on]
  flag := by simp [State.init]
  effect := by simp [State.init, Pc.on]
  returns := by simp [State.init]
  leaked := rfl

/-- One thread moves and the files stay.  What it owes at its new place has
to be shown, and that a flag it no longer answers for is not its own. -/
theorem Inv.moveThread {s s' : State m n} (h : Inv s) {t : Fin m} {q : Pc n}
    (hfile : s'.file = s.file) (hleaked : s'.leaked = s.leaked)
    (hpc : s'.pc = Function.update s.pc t q)
    (heff : ∀ u, u ≠ t → s'.effect u = s.effect u)
    (hsem : s'.sem + q.holds.toNat = s.sem + (s.pc t).holds.toNat)
    (hopening : ∀ i minor, q = .openDown i minor → takesBusy minor = true)
    (hon : ∀ i, q.on i = true →
      s'.effect t = q.due ∧
        ∃ p, s.file i = some p ∧ (openFops p.minor).1 = .bridgeAB)
    (hmarks : ∀ i p, s.file i = some p → p.hasABBusyMutex = true →
      (s.pc t).marks i = true → q.marks i = true)
    (hret : ∀ r ∈ s'.returns, r ∈ s.returns ∨ r.2 = .nothing) : Inv s' := by
  have htally := tally_update Pc.holds s.pc t q
  refine ⟨?_, ?_, ?_, ?_, ?_, ?_, ?_, ?_⟩
  · have := h.sem
    rw [hpc, hfile]
    omega
  · intro u i minor hu
    by_cases hut : u = t
    · subst hut
      rw [hpc, Function.update_self] at hu
      exact hopening i minor hu
    · rw [hpc, Function.update_of_ne hut] at hu
      exact h.opening u i minor hu
  · rw [hfile]
    exact h.busy
  · intro u i hu
    rw [hfile]
    by_cases hut : u = t
    · subst hut
      rw [hpc, Function.update_self] at hu
      exact (hon i hu).2
    · rw [hpc, Function.update_of_ne hut] at hu
      exact h.onAB u i hu
  · intro i p hp hflag
    rw [hfile] at hp
    rcases h.flag i p hp hflag with hbusy | ⟨u, hu⟩
    · exact .inl hbusy
    · refine .inr ⟨u, ?_⟩
      by_cases hut : u = t
      · subst hut
        rw [hpc, Function.update_self]
        exact hmarks i p hp hflag hu
      · rw [hpc, Function.update_of_ne hut]
        exact hu
  · intro u i hu
    by_cases hut : u = t
    · subst hut
      rw [hpc, Function.update_self] at hu ⊢
      exact (hon i hu).1
    · rw [hpc, Function.update_of_ne hut] at hu ⊢
      rw [heff u hut]
      exact h.effect u i hu
  · intro r hr
    rcases hret r hr with hr' | hr'
    · exact h.returns r hr'
    · exact hr'
  · rw [hleaked]
    exact h.leaked

/-- The flag of a file of the A/B buffers is written.  It may be set while a
thread answers for it, and cleared at any time. -/
theorem Inv.setFlag {s : State m n} (h : Inv s) {i : Fin n} {p : Path} {b : Bool}
    (hp : s.file i = some p) (hab : (openFops p.minor).1 = .bridgeAB)
    (hmark : b = true → ∃ t, (s.pc t).marks i = true) : Inv (s.setFlag i b) := by
  have hnot := takesBusy_bridgeAB hab
  have hself : (s.setFlag i b).file i = some { p with hasABBusyMutex := b } := by
    simp [State.setFlag, hp]
  have hother : ∀ j, j ≠ i → (s.setFlag i b).file j = s.file j := by
    intro j hj
    simp [State.setFlag, hj]
  have htally : tally heldFile (s.setFlag i b).file = tally heldFile s.file := by
    refine tally_congr fun j => ?_
    by_cases hj : j = i
    · subst hj
      rw [hself, hp]
      rfl
    · rw [hother j hj]
  refine ⟨?_, h.opening, ?_, ?_, ?_, h.effect, h.returns, h.leaked⟩
  · rw [htally]
    exact h.sem
  · intro j p' hp' hbusy
    by_cases hj : j = i
    · subst hj
      rw [hself] at hp'
      obtain rfl := Option.some.inj hp'
      rw [hnot] at hbusy
      cases hbusy
    · rw [hother j hj] at hp'
      exact h.busy j p' hp' hbusy
  · intro t j ht
    by_cases hj : j = i
    · subst hj
      exact ⟨_, hself, hab⟩
    · rw [hother j hj]
      exact h.onAB t j ht
  · intro j p' hp' hflag
    by_cases hj : j = i
    · subst hj
      rw [hself] at hp'
      obtain rfl := Option.some.inj hp'
      exact .inr (hmark hflag)
    · rw [hother j hj] at hp'
      exact h.flag j p' hp' hflag

/-- A file is opened, and has the semaphore if its minor takes it. -/
theorem Inv.openFile {s : State m n} (h : Inv s) {i : Fin n} {p : Path}
    {sem : Nat} (hnone : s.file i = none)
    (hflag : p.hasABBusyMutex = takesBusy p.minor)
    (hsem : sem + (takesBusy p.minor).toNat = s.sem) :
    Inv { s with sem := sem, file := Function.update s.file i (some p) } := by
  have htally := tally_update heldFile s.file i (some p)
  have hheld : heldFile (some p) = takesBusy p.minor := rfl
  have hzero : heldFile (s.file i) = false := by rw [hnone]; rfl
  rw [hheld, hzero] at htally
  refine ⟨?_, h.opening, ?_, ?_, ?_, h.effect, h.returns, h.leaked⟩
  · have := h.sem
    show sem + tally Pc.holds s.pc + tally heldFile (Function.update s.file i (some p)) = 1
    simp only [Bool.toNat_false, Nat.add_zero] at htally
    omega
  · intro j p' hp' hbusy
    by_cases hj : j = i
    · subst hj
      simp only [Function.update_self] at hp'
      obtain rfl := Option.some.inj hp'
      rw [hflag, hbusy]
    · simp only [Function.update_of_ne hj] at hp'
      exact h.busy j p' hp' hbusy
  · intro t j ht
    obtain ⟨p', hp', hab⟩ := h.onAB t j ht
    have hj : j ≠ i := by
      rintro rfl
      rw [hnone] at hp'
      cases hp'
    simp only [Function.update_of_ne hj]
    exact ⟨p', hp', hab⟩
  · intro j p' hp' hf
    by_cases hj : j = i
    · subst hj
      simp only [Function.update_self] at hp'
      obtain rfl := Option.some.inj hp'
      rw [hflag] at hf
      exact .inl hf
    · simp only [Function.update_of_ne hj] at hp'
      exact h.flag j p' hp' hf

theorem Pc.on_of_marks {q : Pc n} {i : Fin n} (h : q.marks i = true) :
    q.on i = true := by
  cases q <;> simp_all [Pc.marks, Pc.on]

/-- A file on which no call is in progress is flagged exactly when its minor
takes the semaphore. -/
theorem Inv.flag_eq {s : State m n} (h : Inv s) {i : Fin n} {p : Path}
    (hp : s.file i = some p) (hfree : ∀ t, (s.pc t).on i = false) :
    p.hasABBusyMutex = takesBusy p.minor := by
  cases hf : p.hasABBusyMutex with
  | true =>
    rcases h.flag i p hp hf with hbusy | ⟨t, ht⟩
    · exact hbusy.symm
    · have := Pc.on_of_marks ht
      rw [hfree t] at this
      cases this
  | false =>
    cases hb : takesBusy p.minor with
    | true =>
      rw [h.busy i p hp hb] at hf
      cases hf
    | false => rfl

/-- A file on which no call is in progress is released. -/
theorem Inv.release {s : State m n} (h : Inv s) {i : Fin n} {p : Path}
    (hp : s.file i = some p) (hfree : ∀ t, (s.pc t).on i = false) :
    Inv { s with
      sem := if p.hasABBusyMutex then s.sem + 1 else s.sem
      file := Function.update s.file i none } := by
  have htally := tally_update heldFile s.file i none
  have hheld : heldFile (s.file i) = p.hasABBusyMutex := by
    rw [hp, h.flag_eq hp hfree]
    rfl
  have hnone : heldFile none = false := rfl
  rw [hheld, hnone] at htally
  refine ⟨?_, h.opening, ?_, ?_, ?_, h.effect, h.returns, h.leaked⟩
  · have := h.sem
    show (if p.hasABBusyMutex then s.sem + 1 else s.sem) + tally Pc.holds s.pc +
      tally heldFile (Function.update s.file i none) = 1
    cases hf : p.hasABBusyMutex <;> rw [hf] at htally <;> simp at htally ⊢ <;> omega
  · intro j p' hp' hbusy
    by_cases hj : j = i
    · subst hj
      simp only [Function.update_self] at hp'
      cases hp'
    · simp only [Function.update_of_ne hj] at hp'
      exact h.busy j p' hp' hbusy
  · intro t j ht
    have hj : j ≠ i := by
      rintro rfl
      rw [hfree t] at ht
      cases ht
    simp only [Function.update_of_ne hj]
    exact h.onAB t j ht
  · intro j p' hp' hf
    by_cases hj : j = i
    · subst hj
      simp only [Function.update_self] at hp'
      cases hp'
    · simp only [Function.update_of_ne hj] at hp'
      exact h.flag j p' hp' hf

/-- A call of `acq200_ioctlAB` returns with everything given back. -/
theorem Inv.ioctlReturn {s : State m n} (h : Inv s) {t : Fin m} {rc : Int}
    (hholds : (s.pc t).holds = false) (heff : s.effect t = .nothing)
    (hmarks : ∀ i p, s.file i = some p → p.hasABBusyMutex = true →
      (s.pc t).marks i = false) : Inv (s.ioctlReturn t rc) := by
  refine h.moveThread (t := t) (q := .idle) rfl rfl rfl (fun _ _ => rfl) ?_
    (fun i minor hq => by cases hq) (fun i hi => by simp [Pc.on] at hi) ?_ ?_
  · rw [hholds]
    rfl
  · intro i p hp hflag hm
    rw [hmarks i p hp hflag] at hm
    cases hm
  · intro r hr
    rcases List.mem_append.mp hr with hr' | hr'
    · exact .inl hr'
    · rw [List.mem_singleton.mp hr']
      exact .inr heff

/-! ## One step -/

section Step

variable {s s' : State m n} {t : Fin m}

/-- What a call of `acq200_ioctlAB` has to give back at its place. -/
theorem Inv.effect_at (h : Inv s) (i : Fin n) {q : Pc n} (hp : s.pc t = q)
    (hi : q.on i = true) : s.effect t = q.due := by
  rw [← hp] at hi ⊢
  exact h.effect t i hi

theorem openFile_inv {i : Fin n} {minor : Nat} (h : Inv s)
    (hs : step (.openFile t i minor) s = some s') : Inv s' := by
  simp only [step] at hs
  split at hs
  · rename_i hidle
    split at hs
    · rename_i hbusy
      obtain rfl := Option.some.inj hs
      refine h.moveThread (t := t) (q := .openDown i minor) rfl rfl rfl
        (fun _ _ => rfl) ?_ ?_ (fun j hj => by simp [Pc.on] at hj) ?_
        (fun r hr => .inl hr)
      · rw [hidle.1]
        rfl
      · intro j minor' hq
        injection hq with _ hminor
        rw [← hminor]
        exact hbusy
      · intro j p _ _ hm
        rw [hidle.1] at hm
        simp [Pc.marks] at hm
    · rename_i hbusy
      obtain rfl := Option.some.inj hs
      have hfalse := Bool.eq_false_of_not_eq_true hbusy
      exact h.openFile (p := ⟨minor, false⟩) hidle.2 hfalse.symm (by simp [hfalse])
  · cases hs

theorem down_inv (h : Inv s) (hs : step (.down t) s = some s') : Inv s' := by
  simp only [step] at hs
  by_cases hsem : s.sem = 0
  · rw [if_pos hsem] at hs
    cases hs
  rw [if_neg hsem] at hs
  cases hp : s.pc t <;> simp only [hp, reduceCtorEq] at hs
  case openDown i minor =>
    split at hs
    · rename_i hnone
      obtain rfl := Option.some.inj hs
      have hbusy := h.opening t i minor hp
      have hidle : Inv (s.goto t .idle) := by
        refine h.moveThread (t := t) (q := .idle) rfl rfl rfl (fun _ _ => rfl) ?_
          (fun i minor hq => by cases hq) (fun j hj => by simp [Pc.on] at hj) ?_
          (fun r hr => .inl hr)
        · rw [hp]
          rfl
        · intro j p _ _ hm
          rw [hp] at hm
          simp [Pc.marks] at hm
      refine hidle.openFile (p := ⟨minor, true⟩) hnone hbusy.symm ?_
      show s.sem - 1 + (takesBusy minor).toNat = s.sem
      rw [hbusy]
      simp only [Bool.toNat_true]
      omega
    · cases hs
  case ioctlDown i =>
    obtain rfl := Option.some.inj hs
    obtain ⟨p, hfile, hab⟩ := h.onAB t i (by simp [hp, Pc.on])
    have heff : s.effect t = .nothing := h.effect_at i hp (by simp [Pc.on])
    have hmoved : Inv (({ s with sem := s.sem - 1 }.affect t
        fun e => ⟨e.units + 1, true⟩).goto t (.ioctlCopyIn i)) := by
      refine h.moveThread (t := t) (q := .ioctlCopyIn i) rfl rfl rfl ?_ ?_
        (fun i minor hq => by cases hq) ?_ ?_ (fun r hr => .inl hr)
      · intro u hu
        simp [State.goto, State.affect, hu]
      · rw [hp]
        simp only [State.goto, State.affect, Pc.holds, Bool.toNat_true,
          Bool.toNat_false]
        omega
      · intro j hj
        have hij : i = j := by simpa [Pc.on] using hj
        subst hij
        exact ⟨by simp [State.goto, State.affect, heff, Pc.due, Effect.nothing],
          p, hfile, hab⟩
      · intro j q _ _ hm
        rw [hp] at hm
        simp [Pc.marks] at hm
    exact hmoved.setFlag (b := true) hfile hab
      (fun _ => ⟨t, by simp [State.goto, Pc.marks]⟩)

theorem interrupted_inv (h : Inv s) (hl : Undisturbed (.interrupted t) s = true)
    (hs : step (.interrupted t) s = some s') : Inv s' := by
  simp only [step] at hs
  by_cases hsem : s.sem = 0
  · rw [if_pos hsem] at hs
    cases hp : s.pc t <;> simp only [hp, reduceCtorEq] at hs
    case openDown i minor => simp [Undisturbed, hp, Pc.opening] at hl
    case ioctlDown i =>
      obtain rfl := Option.some.inj hs
      have heff : s.effect t = .nothing := h.effect_at i hp (by simp [Pc.on])
      exact h.ioctlReturn (by rw [hp]; rfl) heff (fun _ _ _ _ => by rw [hp]; rfl)
  · rw [if_neg hsem] at hs
    cases hs

theorem ioctl_inv {i : Fin n} {cmd : Bool} (h : Inv s)
    (hs : step (.ioctl t i cmd) s = some s') : Inv s' := by
  simp only [step] at hs
  cases hfile : s.file i <;> simp only [hfile, reduceCtorEq] at hs
  case some p =>
  split at hs
  · rename_i hidle
    obtain ⟨hidle, hab⟩ := hidle
    -- the effect of the last call is forgotten first
    have hstart : Inv (s.affect t fun _ => .nothing) := by
      refine h.moveThread (t := t) (q := .idle) rfl rfl ?_ ?_ ?_
        (fun i minor hq => by cases hq) (fun j hj => by simp [Pc.on] at hj) ?_
        (fun r hr => .inl hr)
      · rw [← hidle, Function.update_eq_self]
        rfl
      · intro u hu
        simp [State.affect, hu]
      · rw [hidle]
        rfl
      · intro j q _ _ hm
        rw [hidle] at hm
        simp [Pc.marks] at hm
    split at hs
    · obtain rfl := Option.some.inj hs
      refine hstart.moveThread (t := t) (q := .ioctlDown i) rfl rfl rfl
        (fun _ _ => rfl) ?_ (fun i minor hq => by cases hq) ?_ ?_
        (fun r hr => .inl hr)
      · show s.sem + _ = s.sem + (s.pc t).holds.toNat
        rw [hidle]
        rfl
      · intro j hj
        have hij : i = j := by simpa [Pc.on] using hj
        subst hij
        exact ⟨by simp [State.goto, State.affect, Pc.due], p, hfile, hab⟩
      · intro j q _ _ hm
        rw [show (s.affect t fun _ => .nothing).pc t = .idle from hidle] at hm
        simp [Pc.marks] at hm
    · obtain rfl := Option.some.inj hs
      have hpc : (s.affect t fun _ => Effect.nothing).pc t = .idle := hidle
      refine hstart.ioctlReturn (by rw [hpc]; rfl) (by simp [State.affect])
        (fun _ _ _ _ => by rw [hpc]; rfl)
  · cases hs

/-- A thread in its locked region goes on to another place of the region. -/
theorem Inv.stay (h : Inv s) {q : Pc n} (hold : (s.pc t).holds = true)
    (hq : q.holds = true) (hqi : ∀ j, q.on j = (s.pc t).on j)
    (hqm : ∀ j, q.marks j = (s.pc t).marks j) (hdue : q.due = (s.pc t).due) :
    Inv (s.goto t q) := by
  refine h.moveThread (t := t) (q := q) rfl rfl rfl (fun _ _ => rfl) ?_ ?_ ?_ ?_
    (fun r hr => .inl hr)
  · rw [hold, hq]
    rfl
  · intro j minor he
    rw [he] at hq
    cases hq
  · intro j hj
    rw [hqi] at hj
    refine ⟨?_, h.onAB t j hj⟩
    rw [hdue]
    exact h.effect t j hj
  · intro j p _ _ hm
    rw [hqm]
    exact hm

theorem copyFromUser_inv {ok : Bool} (h : Inv s)
    (hl : Undisturbed (.copyFromUser t ok) s = true)
    (hs : step (.copyFromUser t ok) s = some s') : Inv s' := by
  have hok : ok = true := hl
  simp only [step, hok, if_true] at hs
  cases hp : s.pc t <;> simp only [hp, reduceCtorEq] at hs
  case ioctlCopyIn i =>
    obtain rfl := Option.some.inj hs
    refine h.stay ?_ rfl ?_ ?_ ?_ <;> simp [hp, Pc.holds, Pc.on,
      Pc.marks, Pc.due]

theorem action_inv {rc : Int} (h : Inv s)
    (hs : step (.action t rc) s = some s') : Inv s' := by
  simp only [step] at hs
  cases hp : s.pc t <;> simp only [hp, reduceCtorEq] at hs
  case ioctlAction i =>
    obtain rfl := Option.some.inj hs
    refine h.stay ?_ rfl ?_ ?_ ?_ <;> simp [hp, Pc.holds, Pc.on,
      Pc.marks, Pc.due]

theorem up_inv (h : Inv s) (hs : step (.up t) s = some s') : Inv s' := by
  simp only [step] at hs
  cases hp : s.pc t <;> simp only [hp, reduceCtorEq] at hs
  case ioctlUp i rc =>
    obtain rfl := Option.some.inj hs
    have heff : s.effect t = ⟨1, true⟩ := h.effect_at i hp (by simp [Pc.on])
    refine h.moveThread (t := t) (q := .ioctlUnflag i rc) rfl rfl rfl ?_ ?_
      (fun i minor hq => by cases hq) ?_ ?_ (fun r hr => .inl hr)
    · intro u hu
      simp [State.goto, State.affect, hu]
    · rw [hp]
      rfl
    · intro j hj
      have hij : i = j := by simpa [Pc.on] using hj
      subst hij
      exact ⟨by simp [State.goto, State.affect, heff, Pc.due],
        h.onAB t i (by simp [hp, Pc.on])⟩
    · intro j p _ _ hm
      rw [hp] at hm
      exact hm

theorem unflag_inv (h : Inv s) (hs : step (.unflag t) s = some s') : Inv s' := by
  simp only [step] at hs
  cases hp : s.pc t <;> simp only [hp, reduceCtorEq] at hs
  case ioctlUnflag i rc =>
    obtain ⟨p, hfile, hab⟩ := h.onAB t i (by simp [hp, Pc.on])
    have heff : s.effect t = ⟨0, true⟩ := h.effect_at i hp (by simp [Pc.on])
    have hclear : Inv (s.setFlag i false) :=
      h.setFlag hfile hab (fun hf => by cases hf)
    have hpc : (s.setFlag i false).pc t = .ioctlUnflag i rc := hp
    -- no flag is left for the thread to answer for
    have hmarks : ∀ j p', (s.setFlag i false).file j = some p' →
        p'.hasABBusyMutex = true →
        ((s.setFlag i false).pc t).marks j = false := by
      intro j p' hp' hf
      by_cases hj : i = j
      · subst hj
        simp only [State.setFlag, Function.update_self, hfile, Option.map_some,
          Option.some.injEq] at hp'
        rw [← hp'] at hf
        cases hf
      · simp [hpc, Pc.marks, hj]
    split at hs
    · obtain rfl := Option.some.inj hs
      refine hclear.moveThread (t := t) (q := .ioctlCopyOut i) rfl rfl rfl ?_ ?_
        (fun i minor hq => by cases hq) ?_ ?_ (fun r hr => .inl hr)
      · intro u hu
        simp [State.goto, State.affect, State.setFlag, hu]
      · rw [hpc]
        rfl
      · intro j hj
        have hij : i = j := by simpa [Pc.on] using hj
        subst hij
        exact ⟨by simp [State.goto, State.affect, State.setFlag, heff, Pc.due,
          Effect.nothing], hclear.onAB t i (by simp [hpc, Pc.on])⟩
      · intro j p' hp' hf hm
        rw [hmarks j p' hp' hf] at hm
        cases hm
    · obtain rfl := Option.some.inj hs
      refine hclear.moveThread (t := t) (q := .idle) rfl rfl rfl ?_ ?_
        (fun i minor hq => by cases hq) (fun j hj => by simp [Pc.on] at hj) ?_ ?_
      · intro u hu
        simp [State.ioctlReturn, State.affect, State.setFlag, hu]
      · rw [hpc]
        rfl
      · intro j p' hp' hf hm
        rw [hmarks j p' hp' hf] at hm
        cases hm
      · intro r hr
        rcases List.mem_append.mp hr with hr' | hr'
        · exact .inl hr'
        · rw [List.mem_singleton.mp hr']
          refine .inr ?_
          simp [State.affect, State.setFlag, heff, Effect.nothing]

theorem copyToUser_inv {ok : Bool} (h : Inv s)
    (hs : step (.copyToUser t ok) s = some s') : Inv s' := by
  simp only [step] at hs
  cases hp : s.pc t <;> simp only [hp, reduceCtorEq] at hs
  case ioctlCopyOut i =>
    obtain rfl := Option.some.inj hs
    have heff : s.effect t = .nothing := h.effect_at i hp (by simp [Pc.on])
    exact h.ioctlReturn (by rw [hp]; rfl) heff (fun _ _ _ _ => by rw [hp]; rfl)

theorem release_inv {i : Fin n} (h : Inv s)
    (hs : step (.release i) s = some s') : Inv s' := by
  simp only [step] at hs
  cases hfile : s.file i <;> simp only [hfile, reduceCtorEq] at hs
  case some p =>
  split at hs
  · rename_i hfree
    obtain rfl := Option.some.inj hs
    exact h.release hfile hfree
  · cases hs

/-- Every undisturbed step keeps the invariant. -/
theorem step_inv {l : Label m n} (h : Inv s) (hl : Undisturbed l s = true)
    (hs : step l s = some s') : Inv s' := by
  cases l with
  | openFile t i minor => exact openFile_inv h hs
  | down t => exact down_inv h hs
  | interrupted t => exact interrupted_inv h hl hs
  | ioctl t i cmd => exact ioctl_inv h hs
  | copyFromUser t ok => exact copyFromUser_inv h hl hs
  | action t rc => exact action_inv h hs
  | up t => exact up_inv h hs
  | unflag t => exact unflag_inv h hs
  | copyToUser t ok => exact copyToUser_inv h hs
  | release i => exact release_inv h hs

end Step

/-! ## Every run -/

theorem Inv.accounted {s : State m n} (h : Inv s) : s.Accounted := by
  refine ⟨fun hq => ?_, h.returns, h.leaked⟩
  have hfree : ∀ i t, (s.pc t).on i = false := by
    intro i t
    rw [hq t]
    rfl
  have hnone : tally Pc.holds s.pc = 0 := by
    refine tally_eq_zero.mpr fun t => ?_
    rw [hq t]
    rfl
  have hflagged : tally flagged s.file = tally heldFile s.file := by
    refine tally_congr fun i => ?_
    cases hp : s.file i with
    | none => rfl
    | some p => exact h.flag_eq hp (hfree i)
  refine ⟨?_, fun i p hp hf => ?_⟩
  · have := h.sem
    omega
  · rw [← h.flag_eq hp (hfree i)]
    exact hf

/-- In every run of any number of threads over any number of files in which
no copy from the user faults and no open is interrupted, the semaphore is
accounted for in every state. -/
theorem busy_accounted (m n : Nat) (ls : List (Label m n)) (s : State m n)
    (hrun : runFrom step ls (State.init m n) = some s)
    (hok : RunMeets step (Undisturbed · ·) ls (State.init m n)) : s.Accounted := by
  have hinv : Inv s :=
    runFrom_inv (fun _ _ _ h hl hs => step_inv h hl hs) (inv_init m n) hok hrun
  exact hinv.accounted

/-- Two threads use an A/B file and a bridge file.  The ioctl waits for the
bridge file to be closed, and its copy to the user faults. -/
def twoFiles : List (Label 2 2) :=
  [.openFile 0 0 100, .openFile 1 1 5, .down 1, .ioctl 0 0 true, .release 1,
    .down 0, .copyFromUser 0 true, .action 0 0, .up 0, .unflag 0,
    .copyToUser 0 false]

theorem busy_accounted_twoFiles :
    ∃ s, runFrom step twoFiles (State.init 2 2) = some s ∧ s.Quiet ∧
      s.returns = [(-EFAULT, .nothing)] ∧ s.Accounted :=
  ⟨_, rfl, by decide, by decide, busy_accounted 2 2 twoFiles _ rfl (by decide)⟩

/-- The copy from the user faults in an ioctl. -/
def faultedIoctl : List (Label 1 1) :=
  [.openFile 0 0 100, .ioctl 0 0 true, .down 0, .copyFromUser 0 false]

/-- The call returns with the semaphore taken and the flag set on a path
that was not opened through `return_open_take_busy`. -/
theorem faulted_ioctl_keeps_busy :
    ∃ s, runFrom step faultedIoctl (State.init 1 1) = some s ∧ ¬ s.Accounted := by
  refine ⟨_, rfl, fun h => ?_⟩
  exact absurd ((h.1 (by decide)).2 0 ⟨100, true⟩ rfl rfl) (by decide)

end Acq200.Busy
