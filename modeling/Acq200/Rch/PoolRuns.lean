import Acq200.Lib.Run
import Acq200.Rch.Pool

/-!
# Runs of `_alloc` and `_free`

Any number of clients call `_alloc` and `_free` on one pool.  A stretch of
`_alloc` between two sleeps is one step.  A client that comes to the
cursor and finds that entry reserved goes to sleep, and the sleep ends
with a wake-up or with the timeout.

The cursor is where a scan starts and also how it knows that it has been
once round.  The first stretch always makes a whole round.  A stretch
after a sleep starts behind the entry at which the client slept but ends at
the cursor of that moment, which another client may have moved, so it can
go back to sleep after a few entries.  `RoundAhead` says when it cannot do
so early, and `early_sleep` that it does so in every other case.
-/

namespace Acq200.Rch

namespace Pool

variable {p : Pool}

/-- A scan that sleeps is at the cursor, and every entry on its way there
is reserved. -/
theorem scan_sleep (hcursor : p.cursor < p.maxEntries) (fuel : Nat) :
    ∀ {start ibuf : Nat}, start < p.maxEntries →
      p.scan fuel start = some (.sleep ibuf) →
      ibuf = p.cursor ∧
        ∀ i < p.maxEntries, p.ahead i ≤ p.ahead start → p.reserved i = true := by
  induction fuel with
  | zero =>
    intro start ibuf _ h
    cases h
  | succ fuel ih =>
    intro start ibuf hstart h
    rw [scan] at h
    split at h
    · rename_i hres
      split at h
      · rename_i hat
        cases h
        refine ⟨hat, fun i hi hle => ?_⟩
        have hzero : p.ahead start = 0 := by
          rw [ahead, hat, if_pos (Nat.le_refl _), Nat.sub_self]
        rw [ahead_inj hi hstart (by omega)]
        exact hres
      · rename_i hat
        have hnext := ahead_incr hcursor hstart hat
        have hrest := ih (incr_lt (by omega) start) h
        refine ⟨hrest.1, fun i hi hle => ?_⟩
        by_cases heq : i = start
        · rw [heq]
          exact hres
        · have hlt : p.ahead i < p.ahead start :=
            Nat.lt_of_le_of_ne hle fun h => heq (ahead_inj hi hstart h)
          exact hrest.2 i hi (by omega)
    · cases h

/-- The entry that a scan finds is on its way to the cursor. -/
theorem scan_found_ahead (hcursor : p.cursor < p.maxEntries) (fuel : Nat) :
    ∀ {start ibuf : Nat}, start < p.maxEntries →
      p.scan fuel start = some (.found ibuf) → p.ahead ibuf ≤ p.ahead start := by
  induction fuel with
  | zero =>
    intro start ibuf _ h
    cases h
  | succ fuel ih =>
    intro start ibuf hstart h
    rw [scan] at h
    split at h
    · split at h
      · cases h
      · rename_i hat
        have hnext := ahead_incr hcursor hstart hat
        have hrest := ih (incr_lt (by omega) start) h
        omega
    · cases h
      exact Nat.le_refl _

/-- A scan with fuel for the way to the cursor ends. -/
theorem scan_ends (hcursor : p.cursor < p.maxEntries) (fuel : Nat) :
    ∀ {start : Nat}, start < p.maxEntries → p.ahead start < fuel →
      p.scan fuel start ≠ none := by
  induction fuel with
  | zero =>
    intro start _ hfuel
    exact absurd hfuel (Nat.not_lt_zero _)
  | succ fuel ih =>
    intro start hstart hfuel
    rw [scan]
    split
    · split
      · exact Option.some_ne_none _
      · rename_i hat
        have hnext := ahead_incr hcursor hstart hat
        exact ih (incr_lt (by omega) start) (by omega)
    · exact Option.some_ne_none _

/-- A stretch of `_alloc` always ends. -/
theorem stretch_ends (hcursor : p.cursor < p.maxEntries) (asleep : Option Nat) :
    p.stretch asleep ≠ none :=
  scan_ends hcursor p.maxEntries (incr_lt (by omega) _) (ahead_lt hcursor _)

/-- A stretch that starts behind the cursor sleeps only in a full pool. -/
theorem stretch_sleep_full (hcursor : p.cursor < p.maxEntries) {asleep : Option Nat}
    {ibuf : Nat} (hround : asleep.getD p.cursor = p.cursor)
    (h : p.stretch asleep = some (.sleep ibuf)) :
    ∀ i < p.maxEntries, p.reserved i = true := by
  rw [stretch, hround] at h
  intro i hi
  have hahead := ahead_lt hcursor i
  have hstart := ahead_incr_cursor hcursor
  exact (scan_sleep hcursor _ (incr_lt (by omega) _) h).2 i hi (by omega)

/-- What the flags and the cursor have to be when a client that slept at
`asleep` goes on, so that it cannot sleep again in a pool that is not full. -/
def RoundAhead (p : Pool) (asleep : Nat) : Prop :=
  asleep = p.cursor ∨
    (∃ i, i < p.maxEntries ∧ p.reserved i = false ∧
      p.ahead i ≤ p.ahead (p.incr asleep)) ∨
    ∀ i < p.maxEntries, p.reserved i = true

instance (p : Pool) (asleep : Nat) : Decidable (p.RoundAhead asleep) :=
  inferInstanceAs (Decidable (_ ∨ _ ∨ _))

/-- A stretch after a sleep sleeps again only in a full pool, exactly when
there is a round ahead. -/
theorem resumed_sleep_full_iff (hcursor : p.cursor < p.maxEntries) (asleep : Nat) :
    p.RoundAhead asleep ↔
      ∀ ibuf, p.stretch (some asleep) = some (.sleep ibuf) →
        ∀ i < p.maxEntries, p.reserved i = true := by
  have hstart : p.incr asleep < p.maxEntries := incr_lt (by omega) asleep
  constructor
  · rintro (hat | ⟨free, hfree, hres, hway⟩ | hfull) ibuf h
    · exact stretch_sleep_full hcursor (show (some asleep).getD p.cursor = p.cursor from hat) h
    · have hway' := (scan_sleep hcursor _ hstart h).2 free hfree hway
      rw [hres] at hway'
      cases hway'
    · exact hfull
  · intro h
    match hend : p.stretch (some asleep) with
    | none => exact absurd hend (stretch_ends hcursor _)
    | some (.sleep ibuf) => exact Or.inr (Or.inr (h ibuf hend))
    | some (.found ibuf) =>
      have hfree := stretch_found hend
      have hway := scan_found_ahead hcursor _ hstart hend
      exact Or.inr (Or.inl ⟨ibuf, hfree.2, hfree.1, hway⟩)

end Pool

/-! ## Clients of one pool -/

/-- A client in `interruptible_sleep_on_timeout`. -/
structure Nap where
  ibuf : Nat
  /-- The flags of the pool when this sleep began. -/
  reserved : Nat → Bool

/-- A pool with its clients. -/
structure PoolState where
  pool : Pool
  /-- `none` is a client that is not in `_alloc`. -/
  nap : Nat → Option Nap
  /-- The client whose `_alloc` returned in the last step, and the item
  that it got.  No item is the return value 0. -/
  answer : Option (Nat × Option Nat)

inductive PoolLabel where
  | alloc (client : Nat)
  | wake (client : Nat)
  | timeout (client : Nat)
  | free (ibuf : Nat)

namespace PoolState

variable {s s' : PoolState}

/-- No client is in `_alloc`. -/
def idle (p : Pool) : PoolState where
  pool := p
  nap := fun _ => none
  answer := none

/-- How a stretch of `_alloc` ends for its client. -/
def endStretch (s : PoolState) (client : Nat) : Scan → PoolState
  | .found ibuf =>
    { pool := s.pool.take ibuf
      nap := Function.update s.nap client none
      answer := some (client, some ibuf) }
  | .sleep ibuf =>
    { s with
      nap := Function.update s.nap client (some ⟨ibuf, s.pool.reserved⟩)
      answer := none }

/-- One step.  A client calls `_alloc` only when it is not in it already. -/
def step : PoolLabel → PoolState → Option PoolState
  | .alloc client, s =>
    match s.nap client with
    | none => (s.pool.stretch none).map (s.endStretch client)
    | some _ => none
  | .wake client, s =>
    match s.nap client with
    | none => none
    | some nap => (s.pool.stretch (some nap.ibuf)).map (s.endStretch client)
  | .timeout client, s =>
    match s.nap client with
    | none => none
    | some _ =>
      some { s with nap := Function.update s.nap client none
                    answer := some (client, none) }
  | .free ibuf, s => some { s with pool := s.pool.free ibuf, answer := none }

/-- Everything that a step can do. -/
theorem step_cases {l : PoolLabel} (h : step l s = some s') :
    (∃ client sc, l = .alloc client ∧ s.nap client = none ∧
      s.pool.stretch none = some sc ∧ s' = s.endStretch client sc) ∨
    (∃ client nap sc, l = .wake client ∧ s.nap client = some nap ∧
      s.pool.stretch (some nap.ibuf) = some sc ∧ s' = s.endStretch client sc) ∨
    (∃ client nap, l = .timeout client ∧ s.nap client = some nap ∧
      s' = { s with nap := Function.update s.nap client none
                    answer := some (client, none) }) ∨
    ∃ ibuf, l = .free ibuf ∧ s' = { s with pool := s.pool.free ibuf, answer := none } := by
  cases l with
  | alloc client =>
    rw [step] at h
    split at h
    · rename_i hnap
      rw [Option.map_eq_some_iff] at h
      obtain ⟨sc, hsc, rfl⟩ := h
      exact Or.inl ⟨client, sc, rfl, hnap, hsc, rfl⟩
    · cases h
  | wake client =>
    rw [step] at h
    split at h
    · cases h
    · rename_i nap hnap
      rw [Option.map_eq_some_iff] at h
      obtain ⟨sc, hsc, rfl⟩ := h
      exact Or.inr (Or.inl ⟨client, nap, sc, rfl, hnap, hsc, rfl⟩)
  | timeout client =>
    rw [step] at h
    split at h
    · cases h
    · rename_i nap hnap
      cases h
      exact Or.inr (Or.inr (Or.inl ⟨client, nap, rfl, hnap, rfl⟩))
  | free ibuf =>
    cases h
    exact Or.inr (Or.inr (Or.inr ⟨ibuf, rfl, rfl⟩))

/-! ## What `_alloc` promises -/

/-- What one step has to keep.  An item that `_alloc` returns was
unreserved and is the one entry that changes, the cursor stays in range,
and `_alloc` returns 0 only when every entry was reserved as the sleep that
timed out began. -/
structure AllocSound (s s' : PoolState) : Prop where
  found : ∀ client ibuf, s'.answer = some (client, some ibuf) →
    ibuf < s.pool.maxEntries ∧ s.pool.reserved ibuf = false ∧
      s'.pool.reserved = Function.update s.pool.reserved ibuf true
  cursor : s'.pool.cursor < s'.pool.maxEntries
  refused : ∀ client, s'.answer = some (client, none) →
    ∃ nap, s.nap client = some nap ∧ ∀ i < s.pool.maxEntries, nap.reserved i = true

/-- A step is sound, and so is the timeout of any client after it. -/
def StepSound (l : PoolLabel) (s : PoolState) : Prop :=
  ∀ s' ∈ step l s, AllocSound s s' ∧
    ∀ client, ∀ s'' ∈ step (.timeout client) s', AllocSound s' s''

/-- A client that goes on after a sleep has a round ahead of it. -/
def WakesToRound : PoolLabel → PoolState → Prop
  | .wake client, s => ∀ nap ∈ s.nap client, s.pool.RoundAhead nap.ibuf
  | _, _ => True

instance : ∀ (l : PoolLabel) (s : PoolState), Decidable (WakesToRound l s)
  | .wake client, s =>
    inferInstanceAs (Decidable (∀ nap ∈ s.nap client, s.pool.RoundAhead nap.ibuf))
  | .alloc _, _ => inferInstanceAs (Decidable True)
  | .timeout _, _ => inferInstanceAs (Decidable True)
  | .free _, _ => inferInstanceAs (Decidable True)

/-- The pool was full when each of the sleepers went to sleep. -/
structure SleptFull (s : PoolState) : Prop where
  cursor : s.pool.cursor < s.pool.maxEntries
  full : ∀ client, ∀ nap ∈ s.nap client, ∀ i < s.pool.maxEntries,
    nap.reserved i = true

theorem sleptFull_idle {p : Pool} (hcursor : p.cursor < p.maxEntries) :
    SleptFull (idle p) where
  cursor := hcursor
  full := by
    intro client nap hnap
    cases hnap

/-- The end of a stretch keeps the invariant, if it sleeps only in a full
pool. -/
theorem SleptFull.endStretch {client : Nat} {asleep : Option Nat} {sc : Scan}
    (h : SleptFull s) (hsc : s.pool.stretch asleep = some sc)
    (hfull : ∀ ibuf, sc = .sleep ibuf → ∀ i < s.pool.maxEntries,
      s.pool.reserved i = true) :
    SleptFull (s.endStretch client sc) := by
  cases sc with
  | found ibuf =>
    refine ⟨(Pool.stretch_found hsc).2, fun other nap hnap => ?_⟩
    by_cases heq : other = client
    · rw [heq] at hnap
      simp [PoolState.endStretch] at hnap
    · simp only [PoolState.endStretch, Function.update_of_ne heq] at hnap
      exact h.full other nap hnap
  | sleep ibuf =>
    refine ⟨h.cursor, fun other nap hnap => ?_⟩
    by_cases heq : other = client
    · rw [heq] at hnap
      simp only [PoolState.endStretch, Function.update_self, Option.mem_some_iff] at hnap
      rw [← hnap]
      exact hfull ibuf rfl
    · simp only [PoolState.endStretch, Function.update_of_ne heq] at hnap
      exact h.full other nap hnap

/-- A client that wakes to a round keeps the invariant, and no other step
can break it. -/
theorem SleptFull.step {l : PoolLabel} (h : SleptFull s) (hok : WakesToRound l s)
    (hstep : PoolState.step l s = some s') : SleptFull s' := by
  obtain ⟨client, sc, rfl, hnap, hsc, rfl⟩ | ⟨client, nap, sc, rfl, hnap, hsc, rfl⟩ |
    ⟨client, nap, rfl, hnap, rfl⟩ | ⟨ibuf, rfl, rfl⟩ := step_cases hstep
  · apply h.endStretch hsc
    rintro ibuf rfl
    exact Pool.stretch_sleep_full h.cursor rfl hsc
  · apply h.endStretch hsc
    rintro ibuf rfl
    exact (Pool.resumed_sleep_full_iff h.cursor nap.ibuf).mp (hok nap hnap) ibuf hsc
  · refine ⟨h.cursor, fun other nap' hnap' => ?_⟩
    by_cases heq : other = client
    · simp [heq] at hnap'
    · simp only [Function.update_of_ne heq] at hnap'
      exact h.full other nap' hnap'
  · refine ⟨?_, fun other nap hnap => ?_⟩
    · simp only [Pool.free]
      split <;> exact h.cursor
    · simp only [Pool.free_maxEntries]
      exact h.full other nap hnap

theorem AllocSound.endStretch {client : Nat} {asleep : Option Nat} {sc : Scan}
    (hcursor : s.pool.cursor < s.pool.maxEntries)
    (hsc : s.pool.stretch asleep = some sc) : AllocSound s (s.endStretch client sc) := by
  cases sc with
  | found ibuf =>
    have hfound := Pool.stretch_found hsc
    refine ⟨?_, hfound.2, ?_⟩
    · intro other ibuf' h
      cases h
      exact ⟨hfound.2, hfound.1, rfl⟩
    · intro other h
      cases h
  | sleep ibuf =>
    refine ⟨?_, hcursor, ?_⟩
    · intro other ibuf' h
      cases h
    · intro other h
      cases h

/-- From a state in which every sleeper slept in a full pool, every step is
sound. -/
theorem SleptFull.allocSound {l : PoolLabel} (h : SleptFull s)
    (hstep : PoolState.step l s = some s') : AllocSound s s' := by
  obtain ⟨client, sc, rfl, hnap, hsc, rfl⟩ | ⟨client, nap, sc, rfl, hnap, hsc, rfl⟩ |
    ⟨client, nap, rfl, hnap, rfl⟩ | ⟨ibuf, rfl, rfl⟩ := step_cases hstep
  · exact AllocSound.endStretch h.cursor hsc
  · exact AllocSound.endStretch h.cursor hsc
  · refine ⟨?_, h.cursor, ?_⟩
    · intro other ibuf h
      cases h
    · intro other hother
      cases hother
      exact ⟨nap, hnap, h.full client nap hnap⟩
  · refine ⟨?_, ?_, ?_⟩
    · intro other ibuf' h
      cases h
    · simp only [Pool.free]
      split <;> exact h.cursor
    · intro other h
      cases h

theorem SleptFull.stepSound {l : PoolLabel} (h : SleptFull s) (hok : WakesToRound l s) :
    StepSound l s := by
  intro s' hstep
  refine ⟨h.allocSound hstep, fun client s'' htimeout => ?_⟩
  exact (h.step hok hstep).allocSound htimeout

/-- A wake-up whose sleep may time out soundly had a round ahead of it. -/
theorem StepSound.wakesToRound {l : PoolLabel}
    (hcursor : s.pool.cursor < s.pool.maxEntries) (h : StepSound l s) :
    WakesToRound l s := by
  cases l with
  | wake client =>
    intro nap hnap
    rw [Pool.resumed_sleep_full_iff hcursor]
    intro ibuf hsleep
    have hstep : step (.wake client) s = some (s.endStretch client (.sleep ibuf)) := by
      rw [step, Option.mem_def.mp hnap]
      simp only [hsleep, Option.map_some]
    have htimeout := (h _ hstep).2 client
    simp only [step, PoolState.endStretch, Function.update_self] at htimeout
    obtain ⟨again, hagain, hfull⟩ := (htimeout _ rfl).refused client rfl
    simp only [Function.update_self, Option.some.injEq] at hagain
    rw [← hagain] at hfull
    exact hfull
  | alloc client => trivial
  | timeout client => trivial
  | free ibuf => trivial

/-- Every step of a run is sound, timeouts included, exactly when every
client that goes on after a sleep has a round ahead of it. -/
theorem alloc_sound_iff {p : Pool} (hcursor : p.cursor < p.maxEntries)
    (ls : List PoolLabel) :
    Lib.RunMeets step StepSound ls (idle p) ↔
      Lib.RunMeets step WakesToRound ls (idle p) := by
  constructor
  · intro h
    refine Lib.runMeets_of_inv ?_ ?_ (sleptFull_idle hcursor) h
    · intro l s s' hinv hsound hstep
      exact hinv.step (hsound.wakesToRound hinv.cursor) hstep
    · intro l s hinv hsound
      exact hsound.wakesToRound hinv.cursor
  · intro h
    refine Lib.runMeets_of_inv ?_ ?_ (sleptFull_idle hcursor) h
    · intro l s s' hinv hok hstep
      exact hinv.step hok hstep
    · intro l s hinv hok
      exact hinv.stepSound hok

/-- A pool of three mappings that are all in use. -/
def fullPool : Pool where
  maxEntries := 3
  reserved := fun _ => true
  cursor := 0

/-- The sleeper is woken by the entry that is freed for it, and gets it. -/
theorem woken_client_gets_entry :
    Lib.RunMeets step StepSound [.alloc 0, .free 2, .wake 0] (idle fullPool) :=
  (alloc_sound_iff (by decide) _).mpr (by decide)

/-- While client 0 sleeps at entry 0, client 1 takes entry 1 and moves the
cursor there.  Entry 2 is free when client 0 goes on, but the scan is back
at the cursor with its first entry, and times out. -/
theorem timeout_with_entry_free :
    ¬ Lib.RunMeets step StepSound
      [.alloc 0, .free 1, .alloc 1, .free 2, .wake 0, .timeout 0] (idle fullPool) := by
  intro h
  have hlast := ((((((h.2 _ rfl).2 _ rfl).2 _ rfl).2 _ rfl).2 _ rfl).1 _ rfl).1
  obtain ⟨nap, hnap, hfull⟩ := hlast.refused 0 rfl
  cases hnap
  exact absurd (hfull 2 (by decide)) (by decide)

end PoolState

end Acq200.Rch
