import Acq200.Lib.Run
import Acq200.Lib.Tally

/-!
# The clients of the A/B buffers

`acq200_bridge_openAB` counts a client in `clients.count` and starts the
backstop thread for the first one.  `acq200_bridge_releaseAB` counts it out
and stops the thread with the last one.  Both take `clients.mutex` with
`down_interruptible`, and neither handles an interruption: the open returns 0
without having counted the client, and the release goes on without the
semaphore and ups it at the end.

The model runs any number of clients in any interleaving, one statement at a
time.  `Inv` is the invariant while no `down_interruptible` is interrupted,
and `clients_counted` reads off it what holds whenever no call is in
progress.  `interrupted_open_not_counted` is a run in which an interrupted
open leaves two files open and one client counted.

`kthread_run` is taken to start its thread.  The allocation of the buffers in
`acq200_bridge_openAB` does not touch the fields of this model.
-/

namespace Acq200.Clients

open Acq200.Lib

/-! ## The state -/

/-- Where a client is.  `openDown` and `releaseDown` wait for the semaphore,
and the places after them are the statements of `onOpen` and `onRelease` in
their order. -/
inductive Pc
  | closed
  | openDown
  | openCount
  | openFirst
  | openUp
  | opened
  | releaseDown
  | releaseTest
  | releaseLast
  | releaseCount
  | releaseUp
  deriving Repr, DecidableEq

/-- The device, with the value of `clients.mutex`, `clients.count` and the
number of calls of `kthread_run` and `kthread_stop`, and the clients. -/
structure State (n : Nat) where
  sem : Nat
  count : Int
  starts : Nat
  stops : Nat
  pc : Fin n → Pc

/-- The device as `acq200_device_create` leaves it. -/
def State.init (n : Nat) : State n where
  sem := 1
  count := 0
  starts := 0
  stops := 0
  pc := fun _ => .closed

variable {n : Nat}

def State.goto (s : State n) (c : Fin n) (pc : Pc) : State n :=
  { s with pc := Function.update s.pc c pc }

/-! ## The steps -/

inductive Label (n : Nat)
  /-- The client calls `acq200_bridge_openAB`. -/
  | openAB (c : Fin n)
  /-- The client calls `acq200_bridge_releaseAB`. -/
  | releaseAB (c : Fin n)
  /-- `down_interruptible` gets the semaphore. -/
  | down (c : Fin n)
  /-- `down_interruptible` sleeps and is interrupted. -/
  | interrupted (c : Fin n)
  /-- The client runs its next statement. -/
  | go (c : Fin n)
  deriving Repr, DecidableEq

/-- The statements of `onOpen` and `onRelease` behind `down_interruptible`. -/
def run (c : Fin n) (s : State n) : Option (State n) :=
  match s.pc c with
  | .openCount =>
    let s' := { s with count := s.count + 1 }
    some (s'.goto c (if s'.count = 1 then .openFirst else .openUp))
  | .openFirst => some ({ s with starts := s.starts + 1 }.goto c .openUp)
  | .openUp => some ({ s with sem := s.sem + 1 }.goto c .opened)
  | .releaseTest =>
    some (s.goto c (if s.count = 1 then .releaseLast else .releaseCount))
  | .releaseLast => some ({ s with stops := s.stops + 1 }.goto c .releaseCount)
  | .releaseCount => some ({ s with count := s.count - 1 }.goto c .releaseUp)
  | .releaseUp => some ({ s with sem := s.sem + 1 }.goto c .closed)
  | _ => none

def step : Label n → State n → Option (State n)
  | .openAB c, s =>
    if s.pc c = .closed then some (s.goto c .openDown) else none
  | .releaseAB c, s =>
    if s.pc c = .opened then some (s.goto c .releaseDown) else none
  | .down c, s =>
    if s.sem = 0 then none
    else
      match s.pc c with
      | .openDown => some ({ s with sem := s.sem - 1 }.goto c .openCount)
      | .releaseDown => some ({ s with sem := s.sem - 1 }.goto c .releaseTest)
      | _ => none
  | .interrupted c, s =>
    if s.sem = 0 then
      match s.pc c with
      -- onOpen returns -ERESTARTSYS, and acq200_bridge_openAB returns 0
      | .openDown => some (s.goto c .opened)
      | .releaseDown => some (s.goto c .releaseTest)
      | _ => none
    else none
  | .go c, s => run c s

/-! ## What the count is for -/

/-- No call is in progress. -/
def State.Quiet (s : State n) : Prop := ∀ c, s.pc c = .closed ∨ s.pc c = .opened

instance (s : State n) : Decidable s.Quiet :=
  inferInstanceAs (Decidable (∀ _, _ ∨ _))

/-- The number of files that are open. -/
def State.openFiles (s : State n) : Nat := tally (· = .opened) s.pc

/-- The count is that of the open files, the thread has been started once
more than stopped exactly when there are any, and the semaphore is free. -/
def State.Counted (s : State n) : Prop :=
  s.count = s.openFiles ∧
    s.starts = s.stops + (if 0 < s.openFiles then 1 else 0) ∧
    s.sem = 1

instance (s : State n) : Decidable s.Counted :=
  inferInstanceAs (Decidable (_ ∧ _ ∧ _))

/-- The step is no interruption. -/
def Label.Uninterrupted : Label n → Prop
  | .interrupted _ => False
  | _ => True

instance : (l : Label n) → Decidable l.Uninterrupted
  | .interrupted _ => .isFalse id
  | .openAB _ | .releaseAB _ | .down _ | .go _ => .isTrue trivial

/-! ## The invariant -/

/-- The place is between `down_interruptible` and `up`. -/
def Pc.holds : Pc → Bool
  | .openCount | .openFirst | .openUp => true
  | .releaseTest | .releaseLast | .releaseCount | .releaseUp => true
  | _ => false

/-- A client at the place is in `clients.count`. -/
def Pc.counted : Pc → Bool
  | .openFirst | .openUp | .opened => true
  | .releaseDown | .releaseTest | .releaseLast | .releaseCount => true
  | _ => false

/-- The thread runs exactly when a client is counted. -/
def State.Backed (s : State n) : Prop :=
  s.starts = s.stops + (if 0 < s.count then 1 else 0)

/-- What the holder of the semaphore knows of the thread at its place. -/
def State.Knows (s : State n) : Pc → Prop
  | .openFirst => s.count = 1 ∧ s.starts = s.stops
  | .releaseLast => s.count = 1 ∧ s.starts = s.stops + 1
  | .releaseCount => s.starts = s.stops + (if 1 < s.count then 1 else 0)
  | _ => s.Backed

/-- What holds in every state while no `down_interruptible` is
interrupted. -/
structure Inv (s : State n) : Prop where
  sem : s.sem + tally Pc.holds s.pc = 1
  count : s.count = tally Pc.counted s.pc
  holder : ∀ c, (s.pc c).holds = true → s.Knows (s.pc c)
  free : s.sem = 1 → s.Backed

theorem inv_init (n : Nat) : Inv (State.init n) where
  sem := by simp [State.init, tally, Pc.holds]
  count := by simp [State.init, tally, Pc.counted]
  holder := by simp [State.init, Pc.holds]
  free := by simp [State.init, State.Backed]

/-- A client outside the critical section moves to another such place. -/
theorem Inv.move {s : State n} (h : Inv s) {c : Fin n} {pc : Pc}
    (hold : (s.pc c).holds = false) (hnew : pc.holds = false)
    (hcount : pc.counted = (s.pc c).counted) : Inv (s.goto c pc) := by
  have hs := tally_update Pc.holds s.pc c pc
  have hc := tally_update Pc.counted s.pc c pc
  rw [hold, hnew] at hs
  rw [hcount] at hc
  refine ⟨?_, ?_, fun d hd => ?_, h.free⟩
  · have := h.sem
    show s.sem + tally Pc.holds (Function.update s.pc c pc) = 1
    omega
  · have := h.count
    show s.count = tally Pc.counted (Function.update s.pc c pc)
    omega
  · by_cases hdc : d = c
    · subst hdc
      simp [State.goto, hnew] at hd
    · simp only [State.goto, Function.update_of_ne hdc] at hd ⊢
      have hk := h.holder d hd
      cases hp : s.pc d <;> rw [hp] at hk <;> exact hk

/-- A client enters, runs or leaves the critical section.  No other client is
in it, so only what this one knows has to be shown. -/
theorem Inv.critical {s t : State n} (h : Inv s) {c : Fin n} {q : Pc}
    (hpc : t.pc = Function.update s.pc c q)
    (hin : (s.pc c).holds = true ∨ q.holds = true)
    (hsem : t.sem + q.holds.toNat = s.sem + (s.pc c).holds.toNat)
    (hcount : t.count + (s.pc c).counted.toNat = s.count + q.counted.toNat)
    (hknows : q.holds = true → t.Knows q)
    (hfree : q.holds = false → t.Backed) : Inv t := by
  have hs := tally_update Pc.holds s.pc c q
  have hc := tally_update Pc.counted s.pc c q
  have hsem' : t.sem + tally Pc.holds t.pc = 1 := by
    have := h.sem
    rw [hpc]
    omega
  refine ⟨hsem', ?_, fun d hd => ?_, fun hone => ?_⟩
  · have := h.count
    rw [hpc]
    omega
  · have hdc : d = c := by
      cases hp : q.holds with
      | true =>
        have hself : (t.pc c).holds = true := by rw [hpc, Function.update_self, hp]
        exact tally_le_one (by omega : tally Pc.holds t.pc ≤ 1) hd hself
      | false =>
        -- it has left, and was the only one inside before
        by_contra hne
        have hwas : (s.pc c).holds = true := by
          rcases hin with hin | hin
          · exact hin
          · rw [hp] at hin
            cases hin
        rw [hpc, Function.update_of_ne hne] at hd
        have := h.sem
        exact hne (tally_le_one (by omega : tally Pc.holds s.pc ≤ 1) hd hwas)
    subst hdc
    rw [hpc, Function.update_self] at hd ⊢
    exact hknows hd
  · refine hfree ?_
    have hzero : tally Pc.holds t.pc = 0 := by omega
    have := tally_eq_zero.mp hzero c
    rwa [hpc, Function.update_self] at this

/-- A client goes on inside the critical section. -/
theorem Inv.inside {s t : State n} (h : Inv s) {c : Fin n} {p q : Pc}
    (hp : s.pc c = p) (hpc : t.pc = Function.update s.pc c q)
    (hold : p.holds = true) (hnew : q.holds = true) (hsem : t.sem = s.sem)
    (hcount : t.count + p.counted.toNat = s.count + q.counted.toNat)
    (hknows : t.Knows q) : Inv t := by
  refine h.critical (c := c) (q := q) hpc (.inr hnew) ?_ ?_ (fun _ => hknows) ?_
  · rw [hp, hold, hnew, hsem]
  · rw [hp]
    exact hcount
  · intro hf
    rw [hnew] at hf
    cases hf

/-! ## One step -/

theorem Inv.count_nonneg {s : State n} (h : Inv s) : 0 ≤ s.count := by
  rw [h.count]
  exact Int.natCast_nonneg _

theorem Inv.count_pos {s : State n} (h : Inv s) {c : Fin n}
    (hc : (s.pc c).counted = true) : 0 < s.count := by
  rw [h.count]
  exact Int.natCast_pos.mpr (tally_pos hc)

/-- The statements behind `down_interruptible` keep the invariant. -/
theorem run_inv {s t : State n} {c : Fin n} (h : Inv s)
    (ht : run c s = some t) : Inv t := by
  unfold run at ht
  have hknows := h.holder c
  have hnonneg := h.count_nonneg
  cases hp : s.pc c <;> simp only [hp] at ht hknows <;> try cases ht
  case openCount =>
    have hb : s.Backed := hknows rfl
    unfold State.Backed at hb
    by_cases hone : s.count + 1 = 1
    · refine h.inside (q := .openFirst) hp (by simp [State.goto, hone]) rfl rfl rfl
        (by simp [Pc.counted, State.goto]) ?_
      have hzero : ¬ 0 < s.count := by omega
      rw [if_neg hzero] at hb
      exact ⟨hone, hb⟩
    · refine h.inside (q := .openUp) hp (by simp [State.goto, hone]) rfl rfl rfl
        (by simp [Pc.counted, State.goto]) ?_
      have hpos : 0 < s.count := by omega
      have hpos' : 0 < s.count + 1 := by omega
      rw [if_pos hpos] at hb
      simp [State.Knows, State.Backed, State.goto, hpos', hb]
  case openFirst =>
    obtain ⟨hone, hstarts⟩ := hknows rfl
    refine h.inside (q := .openUp) hp rfl rfl rfl rfl rfl ?_
    simp [State.Knows, State.Backed, State.goto, hone, hstarts]
  case openUp =>
    refine h.critical (c := c) (q := .opened) rfl (.inl (by rw [hp]; rfl)) ?_ ?_
      (fun hf => by cases hf) (fun _ => hknows rfl)
    · simp [hp, Pc.holds, State.goto]
    · simp [hp, Pc.counted, State.goto]
  case releaseTest =>
    have hb : s.Backed := hknows rfl
    unfold State.Backed at hb
    have hpos : 0 < s.count := h.count_pos (c := c) (by rw [hp]; rfl)
    rw [if_pos hpos] at hb
    by_cases hone : s.count = 1
    · exact h.inside (q := .releaseLast) hp (by simp [State.goto, hone]) rfl rfl rfl
        rfl ⟨hone, hb⟩
    · refine h.inside (q := .releaseCount) hp (by simp [State.goto, hone]) rfl rfl rfl
        rfl ?_
      have hgt : 1 < s.count := by omega
      simp [State.Knows, State.goto, hgt, hb]
  case releaseLast =>
    obtain ⟨hone, hstarts⟩ := hknows rfl
    refine h.inside (q := .releaseCount) hp rfl rfl rfl rfl rfl ?_
    simp [State.Knows, State.goto, hone, hstarts]
  case releaseCount =>
    have hthread : s.starts = s.stops + (if 1 < s.count then 1 else 0) := hknows rfl
    refine h.inside (q := .releaseUp) hp rfl rfl rfl rfl
      (by simp [Pc.counted, State.goto]) ?_
    have hiff : 0 < s.count - 1 ↔ 1 < s.count := by omega
    simp only [State.Knows, State.Backed, State.goto, hiff]
    exact hthread
  case releaseUp =>
    refine h.critical (c := c) (q := .closed) rfl (.inl (by rw [hp]; rfl)) ?_ ?_
      (fun hf => by cases hf) (fun _ => hknows rfl)
    · simp [hp, Pc.holds, State.goto]
    · simp [hp, Pc.counted, State.goto]

/-- A client that gets the semaphore keeps the invariant. -/
theorem down_inv {s : State n} {c : Fin n} {q : Pc} (h : Inv s)
    (hsem : s.sem ≠ 0) (hold : (s.pc c).holds = false) (hnew : q.holds = true)
    (hcount : q.counted = (s.pc c).counted)
    (hknows : ∀ t : State n, t.Backed → t.Knows q) :
    Inv ({ s with sem := s.sem - 1 }.goto c q) := by
  have hone : s.sem = 1 := by
    have := h.sem
    omega
  refine h.critical (c := c) (q := q) rfl (.inr hnew) ?_ ?_
    (fun _ => hknows _ (h.free hone)) (fun hf => ?_)
  · simp [State.goto, hold, hnew, hone]
  · simp [State.goto, hcount]
  · rw [hnew] at hf
    cases hf

/-- Every step that is no interruption keeps the invariant. -/
theorem step_inv {l : Label n} {s t : State n} (h : Inv s)
    (hl : l.Uninterrupted) (ht : step l s = some t) : Inv t := by
  cases l with
  | openAB c =>
    simp only [step] at ht
    split at ht
    · rename_i hp
      obtain rfl := Option.some.inj ht
      exact h.move (by rw [hp]; rfl) rfl (by rw [hp]; rfl)
    · cases ht
  | releaseAB c =>
    simp only [step] at ht
    split at ht
    · rename_i hp
      obtain rfl := Option.some.inj ht
      exact h.move (by rw [hp]; rfl) rfl (by rw [hp]; rfl)
    · cases ht
  | down c =>
    simp only [step] at ht
    split at ht
    · cases ht
    rename_i hsem
    split at ht
    · rename_i hp
      obtain rfl := Option.some.inj ht
      exact down_inv h hsem (by rw [hp]; rfl) rfl (by rw [hp]; rfl) (fun _ hb => hb)
    · rename_i hp
      obtain rfl := Option.some.inj ht
      exact down_inv h hsem (by rw [hp]; rfl) rfl (by rw [hp]; rfl) (fun _ hb => hb)
    · cases ht
  | interrupted c => exact absurd hl id
  | go c => exact run_inv h ht

/-! ## Every run -/

/-- What the invariant says when no call is in progress. -/
theorem Inv.counted {s : State n} (h : Inv s) (hq : s.Quiet) : s.Counted := by
  have hnone : tally Pc.holds s.pc = 0 := by
    refine tally_eq_zero.mpr fun c => ?_
    rcases hq c with hp | hp <;> rw [hp] <;> rfl
  have hfiles : tally Pc.counted s.pc = s.openFiles := by
    refine tally_congr fun c => ?_
    rcases hq c with hp | hp <;> rw [hp] <;> rfl
  have hsem : s.sem = 1 := by
    have := h.sem
    omega
  have hcount : s.count = s.openFiles := by rw [h.count, hfiles]
  have hback := h.free hsem
  unfold State.Backed at hback
  rw [hcount] at hback
  refine ⟨hcount, ?_, hsem⟩
  simpa using hback

/-- In every run of any number of clients in which no `down_interruptible` is
interrupted, the clients are counted whenever no call is in progress. -/
theorem clients_counted (n : Nat) (ls : List (Label n)) (s : State n)
    (hrun : runFrom step ls (State.init n) = some s)
    (hok : ∀ l ∈ ls, l.Uninterrupted) (hq : s.Quiet) : s.Counted := by
  have hmeets : RunMeets step (fun l _ => l.Uninterrupted) ls (State.init n) :=
    runMeets_of_forall (fun l hl _ => hok l hl) _
  have hinv : Inv s :=
    runFrom_inv (fun _ _ _ h hl ht => step_inv h hl ht) (inv_init n) hmeets hrun
  exact hinv.counted hq

/-- Two clients open, the second one waits for the first, and the first
closes. -/
def twoClients {n : Nat} (a b : Fin n) : List (Label n) :=
  [.openAB a, .down a, .openAB b, .go a, .go a, .go a, .down b, .go b, .go b,
    .releaseAB a, .down a, .go a, .go a, .go a]

theorem clients_counted_twoClients :
    ∃ s, runFrom step (twoClients 0 1) (State.init 2) = some s ∧ s.openFiles = 1 ∧
      s.Counted :=
  ⟨_, rfl, by decide,
    clients_counted 2 (twoClients 0 1) _ rfl (by decide) (by decide)⟩

/-- The second client is interrupted while the first one is in `onOpen`.  Its
open returns 0, and two files are open with one client counted. -/
def interruptedOpen {n : Nat} (a b : Fin n) : List (Label n) :=
  [.openAB a, .down a, .openAB b, .interrupted b, .go a, .go a, .go a]

theorem interrupted_open_not_counted :
    ∃ s, runFrom step (interruptedOpen 0 1) (State.init 2) = some s ∧ s.Quiet ∧
      ¬ s.Counted :=
  ⟨_, rfl, by decide, by decide⟩

end Acq200.Clients
