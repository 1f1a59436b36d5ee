import Acq200.Irq.Imask

/-!
# The interrupt test

`int-disable-test` runs a loop, stores a mask in `imask`, runs the loop again and
stores a mask of zeros.  Between the two stores it may be killed, and then the
lines of its mask stay disabled until somebody stores another one.

`test_runs_balanced_iff` is about every sequence of runs, finished or killed, from
a device on which no mask has been stored.  No interrupt is lost just when no run
masks a line that a killed run has left masked.  In particular, runs that all
finish lose none, whatever their masks are.
The debug level is at most 2: above it the driver masks nothing.
-/

namespace Acq200.Irq

/-! ## The program -/

def NOMASK : List Char := List.replicate 8 '0'

/-- What `set_mask` writes. -/
def maskText (mask : List Char) : List Char := mask ++ ['\n']

def setMask (nrIrqs debug : Nat) (dev : Device) (mask : List Char) : Device :=
  (storeImask nrIrqs debug dev (maskText mask)).1

/-- One run of the program that comes to its first store.  A killed one does not
come to the second. -/
structure TestRun where
  mask : List Char
  killed : Bool

namespace TestRun

def text (run : TestRun) : List Char := maskText run.mask

/-- `main`, as far as the run gets. -/
def main (nrIrqs debug : Nat) (dev : Device) (run : TestRun) : Device :=
  let masked := setMask nrIrqs debug dev run.mask
  if run.killed then masked else setMask nrIrqs debug masked NOMASK

/-- The lines that the run leaves masked. -/
def leaves (nrIrqs : Nat) (run : TestRun) (irq : Nat) : Bool :=
  run.killed && names nrIrqs run.text irq

/-- The run stores a mask.  A command for the lock is undone by the second store, and
the one for the APIC does nothing to the mask. -/
def stores (run : TestRun) : Bool :=
  !isLoc run.text && !(isLapic run.text && run.killed)

end TestRun

/-- The device after the runs. -/
def testRuns (nrIrqs debug : Nat) (runs : List TestRun) (dev : Device) : Device :=
  runs.foldl (TestRun.main nrIrqs debug) dev

/-- The calls that disable a line beyond the one that its bit stands for. -/
def excess (nrIrqs : Nat) (dev : Device) (irq : Nat) : Int :=
  depth dev.calls irq - if activeBit nrIrqs dev.imaskA irq then 1 else 0

theorem balanced_iff_excess {nrIrqs : Nat} {dev : Device} :
    Balanced nrIrqs dev ↔ ∀ irq < nrIrqs, excess nrIrqs dev irq = 0 := by
  unfold Balanced excess
  exact forall_congr' fun irq => forall_congr' fun _ => sub_eq_zero.symm

/-! ## The texts -/

/-- Digits that are all zero name no line. -/
theorem names_eq_false {nrIrqs : Nat} {buf : List Char}
    (h : ∀ c ∈ hexDigits nrIrqs buf, getMask c = 0) (irq : Nat) :
    names nrIrqs buf irq = false := by
  unfold names
  split
  · rename_i c hc
    rw [h c (List.mem_reverse.mp (List.mem_of_getElem? hc))]
    exact BitVec.getLsbD_zero
  · rfl

theorem names_noMask (nrIrqs irq : Nat) : names nrIrqs (maskText NOMASK) irq = false := by
  refine names_eq_false (fun c hc => ?_) irq
  have hmem : c ∈ maskText NOMASK :=
    List.mem_of_mem_take ((List.takeWhile_sublist isxdigit).subset hc)
  have hhex : isxdigit c = true := List.mem_takeWhile_imp hc
  rcases List.mem_append.mp hmem with hzero | hend
  · rw [List.eq_of_mem_replicate hzero]
    decide
  · rw [List.mem_singleton.mp hend] at hhex
    exact absurd hhex (by decide)

/-- The command for the APIC begins with no digit. -/
theorem names_lapic {nrIrqs : Nat} {buf : List Char} (h : isLapic buf = true) (irq : Nat) :
    names nrIrqs buf irq = false := by
  obtain ⟨rest, rfl⟩ := List.isPrefixOf_iff_prefix.mp h
  have hnone : hexDigits nrIrqs ("LAPIC".toList ++ rest) = [] := by
    unfold hexDigits
    cases nrIrqs / 4 <;> rfl
  refine names_eq_false (fun c hc => ?_) irq
  rw [hnone] at hc
  cases hc

theorem isLapic_noMask : isLapic (maskText NOMASK) = false := by decide

theorem isLoc_noMask : isLoc (maskText NOMASK) = false := by decide

/-! ## One run -/

section Run

variable {nrIrqs debug irq : Nat} {dev : Device} {run : TestRun} {buf : List Char}

/-- A store of a mask adds one call for each line that is named and active. -/
theorem storeImask_excess (hdebug : debug ≤ 2) (hl : isLapic buf = false)
    (hloc : isLoc buf = false) (hk : dev.isLocked = false) :
    excess nrIrqs (storeImask nrIrqs debug dev buf).1 irq = excess nrIrqs dev irq +
      if activeBit nrIrqs dev.imaskA irq ∧ names nrIrqs buf irq then 1 else 0 := by
  unfold excess
  rw [storeImask_depth hdebug hl hloc hk, storeImask_active hdebug hl hloc hk]
  unfold change
  cases names nrIrqs buf irq <;> cases activeBit nrIrqs dev.imaskA irq <;> simp
  omega

/-- What a run does to a device: the lock is free, the bits are those of the lines that
it leaves masked, and a line that was active and is in its mask has one call too many. -/
structure Masks (nrIrqs : Nat) (run : TestRun) (dev dev' : Device) : Prop where
  unlocked : dev'.isLocked = false
  active : ∀ irq, activeBit nrIrqs dev'.imaskA irq = run.leaves nrIrqs irq
  excess : ∀ irq, excess nrIrqs dev' irq = Irq.excess nrIrqs dev irq +
    if activeBit nrIrqs dev.imaskA irq ∧ names nrIrqs run.text irq then 1 else 0

/-- The second store, which gives back what is active. -/
theorem setMask_noMask (hdebug : debug ≤ 2) (hk : dev.isLocked = false) :
    (setMask nrIrqs debug dev NOMASK).isLocked = false ∧
      (∀ irq, activeBit nrIrqs (setMask nrIrqs debug dev NOMASK).imaskA irq = false) ∧
      ∀ irq, excess nrIrqs (setMask nrIrqs debug dev NOMASK) irq = excess nrIrqs dev irq := by
  unfold setMask
  refine ⟨storeImask_isLocked hdebug isLoc_noMask hk, fun irq => ?_, fun irq => ?_⟩
  · rw [storeImask_active hdebug isLapic_noMask isLoc_noMask hk, names_noMask]
  · rw [storeImask_excess hdebug isLapic_noMask isLoc_noMask hk, names_noMask]
    simp

theorem stores_eq_true : run.stores = true ↔
    isLoc run.text = false ∧ (isLapic run.text = true → run.killed = false) := by
  unfold TestRun.stores
  cases isLoc run.text <;> cases isLapic run.text <;> cases run.killed <;> simp

theorem main_of_killed (h : run.killed = true) :
    run.main nrIrqs debug dev = (storeImask nrIrqs debug dev run.text).1 := by
  unfold TestRun.main setMask
  rw [h]
  rfl

theorem main_of_finished (h : run.killed = false) : run.main nrIrqs debug dev =
    setMask nrIrqs debug (storeImask nrIrqs debug dev run.text).1 NOMASK := by
  unfold TestRun.main
  rw [h]
  rfl

theorem main_masks (hdebug : debug ≤ 2) (hk : dev.isLocked = false) (h : run.stores = true) :
    Masks nrIrqs run dev (run.main nrIrqs debug dev) := by
  obtain ⟨hloc, hfinishes⟩ := stores_eq_true.mp h
  cases hl : isLapic run.text with
  | true =>
    have hfinished : run.killed = false := hfinishes hl
    obtain ⟨hunlocked, hactive, hexcess⟩ := @setMask_noMask nrIrqs debug dev hdebug hk
    rw [main_of_finished hfinished, storeImask_lapic hl]
    refine ⟨hunlocked, fun irq => ?_, fun irq => ?_⟩
    · rw [hactive, TestRun.leaves, hfinished, Bool.false_and]
    · rw [hexcess, names_lapic hl]
      simp
  | false =>
    have hunlocked := @storeImask_isLocked nrIrqs debug dev run.text hdebug hloc hk
    have hactive := @storeImask_active nrIrqs debug dev run.text hdebug hl hloc hk
    cases hkilled : run.killed with
    | true =>
      rw [main_of_killed hkilled]
      refine ⟨hunlocked, fun irq => ?_, fun irq => storeImask_excess hdebug hl hloc hk⟩
      rw [hactive, TestRun.leaves, hkilled, Bool.true_and]
    | false =>
      obtain ⟨hfree, hnone, hexcess⟩ := @setMask_noMask nrIrqs debug _ hdebug hunlocked
      rw [main_of_finished hkilled]
      refine ⟨hfree, fun irq => ?_, fun irq => ?_⟩
      · rw [hnone, TestRun.leaves, hkilled, Bool.false_and]
      · rw [hexcess, storeImask_excess hdebug hl hloc hk]

/-- If the lock is taken the zeros release it and do nothing else. -/
theorem setMask_noMask_locked (hk : dev.isLocked = false) :
    setMask nrIrqs debug { dev with isLocked := true } NOMASK = dev := by
  have hzeros : startsWith (maskText NOMASK) ['0', '0', '0'] = true := by decide
  unfold setMask storeImask
  simp [isLapic_noMask, isLoc_noMask, hzeros]
  rw [← hk]

/-- A run that stores no mask leaves the device as it is. -/
theorem main_idle (hk : dev.isLocked = false) (h : run.stores = false)
    (hlock : isLoc run.text = true → run.killed = false) :
    run.main nrIrqs debug dev = dev := by
  cases hloc : isLoc run.text with
  | true =>
    have hl : isLapic run.text = false := by
      obtain ⟨rest, hrest⟩ := List.isPrefixOf_iff_prefix.mp hloc
      rw [← hrest]
      rfl
    have hfirst : (storeImask nrIrqs debug dev run.text).1 = { dev with isLocked := true } := by
      unfold storeImask
      simp [hl, hloc]
    rw [main_of_finished (hlock hloc), hfirst, setMask_noMask_locked hk]
  | false =>
    have hboth : isLapic run.text = true ∧ run.killed = true := by
      simpa [TestRun.stores, hloc] using h
    rw [main_of_killed hboth.2, storeImask_lapic hboth.1]

end Run

/-! ## Every sequence of runs -/

section Runs

variable {nrIrqs debug : Nat} {dev : Device} {runs : List TestRun}

/-- From any device whose lock is free and whose lines are disabled at least once where
their bits are set. -/
theorem testRuns_excess (hdebug : debug ≤ 2) (hk : dev.isLocked = false)
    (hlock : ∀ run ∈ runs, isLoc run.text = true → run.killed = false)
    (hpos : ∀ irq < nrIrqs, 0 ≤ excess nrIrqs dev irq) :
    Balanced nrIrqs (testRuns nrIrqs debug runs dev) ↔
      Balanced nrIrqs dev ∧
        (∀ run ∈ (runs.filter TestRun.stores).head?,
          Apart nrIrqs (activeBit nrIrqs dev.imaskA) (names nrIrqs run.text)) ∧
        (runs.filter TestRun.stores).IsChain fun run next =>
          Apart nrIrqs (run.leaves nrIrqs) (names nrIrqs next.text) := by
  induction runs generalizing dev with
  | nil => simp [testRuns]
  | cons run runs ih =>
    have hrest : ∀ run ∈ runs, isLoc run.text = true → run.killed = false :=
      fun run h => hlock run (List.mem_cons_of_mem _ h)
    have hcons : testRuns nrIrqs debug (run :: runs) dev =
        testRuns nrIrqs debug runs (run.main nrIrqs debug dev) := rfl
    rw [hcons]
    cases hstores : run.stores with
    | false =>
      have hfilter : (run :: runs).filter TestRun.stores = runs.filter TestRun.stores :=
        List.filter_cons_of_neg (by rw [hstores]; exact Bool.false_ne_true)
      rw [main_idle hk hstores (hlock run List.mem_cons_self), hfilter]
      exact ih hk hrest hpos
    | true =>
      have hmasks : Masks nrIrqs run dev (run.main nrIrqs debug dev) :=
        main_masks hdebug hk hstores
      have hpos' : ∀ irq < nrIrqs, 0 ≤ excess nrIrqs (run.main nrIrqs debug dev) irq := by
        intro irq hirq
        have h := hpos irq hirq
        rw [hmasks.excess]
        split <;> omega
      have hstep : Balanced nrIrqs (run.main nrIrqs debug dev) ↔
          Balanced nrIrqs dev ∧
            Apart nrIrqs (activeBit nrIrqs dev.imaskA) (names nrIrqs run.text) := by
        rw [balanced_iff_excess, balanced_iff_excess, Apart, ← forall₂_and]
        refine forall_congr' fun irq => forall_congr' fun hirq => ?_
        have h := hpos irq hirq
        rw [hmasks.excess]
        split
        · rename_i hboth
          have hne : ¬ excess nrIrqs dev irq + 1 = 0 := by omega
          exact iff_of_false hne fun hand => hand.2 hboth
        · rename_i hboth
          rw [add_zero]
          exact (and_iff_left hboth).symm
      have hactive : activeBit nrIrqs (run.main nrIrqs debug dev).imaskA =
          run.leaves nrIrqs := funext hmasks.active
      rw [ih hmasks.unlocked hrest hpos', hstep, hactive, List.filter_cons_of_pos hstores,
        List.isChain_cons, List.head?_cons, and_assoc]
      refine and_congr_right fun _ => and_congr_left fun _ => ?_
      simp

/-- The counts agree with the bits after the runs just when no run masks a line that a
killed one before it has left masked. -/
theorem test_runs_balanced_iff (hdebug : debug ≤ 2)
    (hlock : ∀ run ∈ runs, isLoc run.text = true → run.killed = false) :
    Balanced nrIrqs (testRuns nrIrqs debug runs (Device.fresh nrIrqs)) ↔
      (runs.filter TestRun.stores).IsChain fun run next =>
        Apart nrIrqs (run.leaves nrIrqs) (names nrIrqs next.text) := by
  have hfresh := balanced_iff_excess.mp (fresh_balanced nrIrqs)
  have hnone : ∀ q, Apart nrIrqs (activeBit nrIrqs (Device.fresh nrIrqs).imaskA) q := by
    intro q irq _
    simp [Device.fresh, activeBit]
  rw [testRuns_excess hdebug rfl hlock fun irq hirq => le_of_eq (hfresh irq hirq).symm]
  exact ⟨fun h => h.2.2, fun h => ⟨fresh_balanced nrIrqs, fun _ _ => hnone _, h⟩⟩

end Runs

/-- A run on line 0 that is killed, and one on line 1 that finishes. -/
theorem test_runs_balanced_iff_otherLine :
    Balanced 16 (testRuns 16 0 [⟨['1'], true⟩, ⟨['2'], false⟩] (Device.fresh 16)) :=
  (test_runs_balanced_iff (by decide) (by decide)).mpr (by decide)

/-- If both are on line 0 the second one leaves it disabled. -/
example : depth (testRuns 16 0 [⟨['1'], true⟩, ⟨['1'], false⟩] (Device.fresh 16)).calls 0 = 1 := by
  decide

end Acq200.Irq
