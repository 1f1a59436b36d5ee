import Acq200.Lib.Run
import Mathlib.Data.List.Induction
import Mathlib.Data.List.Infix
import Mathlib.Logic.Function.Basic

/-!
# The table of devices

`acq200_device_create` puts every new device into `devices[]`, and three
lookups search the table, each by another field of the device.
`acq200_remove` frees the device and leaves its pointer in the table.

`registry_follows_iff` is the result for every sequence of probes and
removals with at most `MAXDEV` cards present: the table holds the devices of
the cards that are present, and the lookups read no freed device, exactly
when no card that is present is removed.

A device is named by the number of its allocation, so a freed device is not
mistaken for a later one at the same address.  A probe whose allocations
fail stops in `BUG` and is not a call of the sequence.
-/

namespace Acq200.Probe

open Acq200.Lib

/-! ## The table -/

def MAXDEV : Nat := 16

/-- The fields of `struct Acq200Device` that the lookups compare.  `pciDev`
stands for the card, and 0 in the other two is the value before
`acq200_device_init` has set them. -/
structure Device where
  pciDev : Nat
  classDev : Nat
  major : Nat
  deriving Repr, DecidableEq

/-- The heap and the entries `devices[0]` to `devices[idx - 1]`. -/
structure Registry where
  heap : Nat → Option Device
  next : Nat
  devices : List Nat

def Registry.empty : Registry where
  heap := fun _ => none
  next := 0
  devices := []

/-! ## The lookups -/

/-- Why a lookup stops. -/
inductive LookupFault
  /-- It read a device that has been freed. -/
  | usesFreed
  /-- It reached `assert(0)`. -/
  | assertFired
  deriving Repr, DecidableEq

/-- The loop of the three lookups over the entries that are left. -/
def lookupBy (heap : Nat → Option Device) (test : Device → Bool) :
    List Nat → Except LookupFault (Option Nat)
  | [] => .ok none
  | e :: es =>
    match heap e with
    | none => .error .usesFreed
    | some d => if test d then .ok (some e) else lookupBy heap test es

/-- `acq200_lookupDevice`. -/
def lookupDevice (s : Registry) (pciDev : Nat) :
    Except LookupFault (Option Nat) :=
  lookupBy s.heap (fun d => d.pciDev = pciDev) s.devices

/-- `acq200_lookupDeviceFromClass`. -/
def lookupDeviceFromClass (s : Registry) (classDev : Nat) :
    Except LookupFault (Option Nat) :=
  lookupBy s.heap (fun d => d.classDev = classDev) s.devices

/-- `acq200_lookup_device`, by the major of an inode.  It does not return
without a device. -/
def lookupDeviceOfInode (s : Registry) (major : Nat) :
    Except LookupFault (Option Nat) :=
  match lookupBy s.heap (fun d => d.major = major) s.devices with
  | .ok none => .error .assertFired
  | r => r

/-! ## Probe and remove -/

/-- What `acq200_device_init` has set when it returns. -/
structure InitResult where
  major : Nat
  classDev : Nat
  rc : Int
  deriving Repr, DecidableEq

/-- A call that the PCI core makes. -/
inductive Call
  | probe (pciDev : Nat) (init : InitResult)
  | remove (pciDev : Nat)
  deriving Repr, DecidableEq

/-- `acq200_device_create`, as far as the table goes.  The answer is `none`
when `assert(idx < MAXDEV)` fires. -/
def deviceCreate (s : Registry) (pciDev : Nat) : Option Registry :=
  if s.devices.length < MAXDEV then
    some
      { heap := Function.update s.heap s.next (some ⟨pciDev, 0, 0⟩)
        next := s.next + 1
        devices := s.devices ++ [s.next] }
  else none

/-- `acq200_device_init` on the device that was created last. -/
def deviceInit (s : Registry) (e : Nat) (init : InitResult) : Registry :=
  { s with
    heap := Function.update s.heap e
      ((s.heap e).map fun d =>
        { d with major := init.major, classDev := init.classDev }) }

/-- `acq200_probe`.  Whatever `acq200_device_init` answers, the table is as
`acq200_device_create` leaves it. -/
def probe (s : Registry) (pciDev : Nat) (init : InitResult) : Option Registry :=
  (deviceCreate s pciDev).map fun s' => deviceInit s' s.next init

/-- `acq200_device_free`. -/
def deviceFree (s : Registry) (e : Nat) : Registry :=
  { s with heap := Function.update s.heap e none }

/-- `acq200_remove`. -/
def remove (s : Registry) (pciDev : Nat) : Option Registry :=
  match lookupDevice s pciDev with
  | .error _ => none
  | .ok none => some s
  | .ok (some e) => some (deviceFree s e)

/-- One call.  The answer is `none` when an assertion fires or freed memory
is read. -/
def step : Call → Registry → Option Registry
  | .probe pciDev init, s => probe s pciDev init
  | .remove pciDev, s => remove s pciDev

/-! ## What the table is for -/

/-- The cards that are present after the calls.  A card is present from its probe to its
removal, whatever `acq200_device_init` has answered: a probe that fails has put a device
into the table too, and a card that is probed twice without a removal counts twice. -/
def present (calls : List Call) : List Nat :=
  calls.foldl
    (fun cards call =>
      match call with
      | .probe pciDev _ => cards ++ [pciDev]
      | .remove pciDev => cards.erase pciDev)
    []

/-- At no time are more than `MAXDEV` cards present. -/
def FitsTable (calls : List Call) : Prop :=
  ∀ p, p <+: calls → (present p).length ≤ MAXDEV

instance (calls : List Call) : Decidable (FitsTable calls) :=
  decidable_of_iff (∀ p ∈ calls.inits, (present p).length ≤ MAXDEV)
    (by simp [FitsTable])

/-- The table holds one device that has not been freed for every card that
is present, and nothing else. -/
def Exact (s : Registry) (cards : List Nat) : Prop :=
  List.Perm (s.devices.map fun e => (s.heap e).map Device.pciDev)
    (cards.map some)

/-- A lookup reads no freed device and returns none. -/
def SafeLookup (s : Registry) (r : Except LookupFault (Option Nat)) : Prop :=
  r ≠ .error .usesFreed ∧ ∀ e, r = .ok (some e) → (s.heap e).isSome

/-- All three lookups are safe, whatever they look for. -/
def LookupsSafe (s : Registry) : Prop :=
  ∀ key, SafeLookup s (lookupDevice s key) ∧
    SafeLookup s (lookupDeviceFromClass s key) ∧
    SafeLookup s (lookupDeviceOfInode s key)

/-- After each call the assertion has not fired, the table is exact and the
lookups are safe. -/
def Follows (calls : List Call) : Prop :=
  ∀ p, p <+: calls → ∃ s, runFrom step p Registry.empty = some s ∧
    Exact s (present p) ∧ LookupsSafe s

/-- No card is removed while it is present. -/
def NoneRemoved (calls : List Call) : Prop :=
  ∀ p pciDev, p ++ [.remove pciDev] <+: calls → pciDev ∉ present p

/-! ## The lookups on a live table -/

section Lookup

variable {heap : Nat → Option Device} {test : Device → Bool} {es : List Nat}

theorem lookupBy_safe (h : ∀ e ∈ es, (heap e).isSome) :
    lookupBy heap test es ≠ .error .usesFreed ∧
      ∀ e, lookupBy heap test es = .ok (some e) → (heap e).isSome := by
  induction es with
  | nil => simp [lookupBy]
  | cons e es ih =>
    obtain ⟨d, hd⟩ := Option.isSome_iff_exists.mp (h e List.mem_cons_self)
    have hes := ih fun f hf => h f (List.mem_cons_of_mem e hf)
    unfold lookupBy
    simp only [hd]
    by_cases ht : test d = true
    · simp [ht, hd]
    · simpa [ht] using hes

/-- The lookup comes back empty when no entry passes the test. -/
theorem lookupBy_none (h : ∀ e ∈ es, ∃ d, heap e = some d ∧ test d = false) :
    lookupBy heap test es = .ok none := by
  induction es with
  | nil => rfl
  | cons e es ih =>
    obtain ⟨d, hd, ht⟩ := h e List.mem_cons_self
    unfold lookupBy
    simp only [hd, ht]
    exact ih fun f hf => h f (List.mem_cons_of_mem e hf)

/-- The lookup finds an entry when the table is live and one passes. -/
theorem lookupBy_some (h : ∀ e ∈ es, (heap e).isSome)
    (ht : ∃ e ∈ es, ∃ d, heap e = some d ∧ test d = true) :
    ∃ e ∈ es, lookupBy heap test es = .ok (some e) := by
  induction es with
  | nil => simp at ht
  | cons e es ih =>
    obtain ⟨d, hd⟩ := Option.isSome_iff_exists.mp (h e List.mem_cons_self)
    unfold lookupBy
    simp only [hd]
    by_cases hp : test d = true
    · exact ⟨e, List.mem_cons_self, by simp [hp]⟩
    · have htail : ∃ f ∈ es, ∃ d, heap f = some d ∧ test d = true := by
        obtain ⟨f, hf, d', hd', ht'⟩ := ht
        rcases List.mem_cons.mp hf with rfl | hf'
        · rw [hd] at hd'
          exact absurd (Option.some.inj hd' ▸ ht') hp
        · exact ⟨f, hf', d', hd', ht'⟩
      obtain ⟨f, hf, hfound⟩ :=
        ih (fun g hg => h g (List.mem_cons_of_mem e hg)) htail
      exact ⟨f, List.mem_cons_of_mem e hf, by simpa [hp] using hfound⟩

end Lookup

section Table

variable {s s' : Registry} {cards : List Nat} {pciDev : Nat}

theorem Exact.live (h : Exact s cards) : ∀ e ∈ s.devices, (s.heap e).isSome := by
  intro e he
  have hmem : (s.heap e).map Device.pciDev ∈ cards.map some :=
    h.mem_iff.mp (List.mem_map.mpr ⟨e, he, rfl⟩)
  obtain ⟨c, -, hc⟩ := List.mem_map.mp hmem
  cases hd : s.heap e with
  | none => simp [hd] at hc
  | some d => rfl

/-- An exact table is safe to search. -/
theorem Exact.lookupsSafe (h : Exact s cards) : LookupsSafe s := by
  intro key
  refine ⟨lookupBy_safe h.live, lookupBy_safe h.live, ?_⟩
  have hsafe : SafeLookup s
      (lookupBy s.heap (fun d => d.major = key) s.devices) :=
    lookupBy_safe h.live
  unfold lookupDeviceOfInode
  cases hr : lookupBy s.heap (fun d => d.major = key) s.devices with
  | error f => rwa [hr] at hsafe
  | ok o =>
    cases o with
    | none => simp [SafeLookup]
    | some e => rwa [hr] at hsafe

theorem Exact.length (h : Exact s cards) : s.devices.length = cards.length := by
  simpa using h.length_eq

/-- The cards of the devices in an exact table are those present. -/
theorem Exact.mem_cards (h : Exact s cards) {e : Nat} {d : Device}
    (he : e ∈ s.devices) (hd : s.heap e = some d) : d.pciDev ∈ cards := by
  have hmem : (s.heap e).map Device.pciDev ∈ cards.map some :=
    h.mem_iff.mp (List.mem_map.mpr ⟨e, he, rfl⟩)
  simpa [hd] using hmem

/-! ## One call -/

/-- The entries were allocated before. -/
def Registry.Bounded (s : Registry) : Prop := ∀ e ∈ s.devices, e < s.next

theorem step_bounded {call : Call} (hb : s.Bounded)
    (h : step call s = some s') : s'.Bounded := by
  cases call with
  | probe c init =>
    simp only [step, probe, deviceCreate] at h
    split at h
    · obtain rfl := Option.some.inj h
      intro e he
      rcases List.mem_append.mp he with he' | he'
      · exact Nat.lt_succ_of_lt (hb e he')
      · rw [List.mem_singleton.mp he']
        exact Nat.lt_succ_self s.next
    · cases h
  | remove c =>
    simp only [step, remove] at h
    split at h
    · cases h
    · obtain rfl := Option.some.inj h
      exact hb
    · obtain rfl := Option.some.inj h
      exact hb

/-- A probe with room in the table adds its device. -/
theorem probe_exact (hb : s.Bounded) (hex : Exact s cards)
    (hroom : cards.length < MAXDEV) (init : InitResult) :
    ∃ s', step (.probe pciDev init) s = some s' ∧
      Exact s' (cards ++ [pciDev]) := by
  have hlen : s.devices.length < MAXDEV := by
    rw [hex.length]
    exact hroom
  have hold : ∀ e ∈ s.devices, e ≠ s.next := fun e he => Nat.ne_of_lt (hb e he)
  refine ⟨_, by simp only [step, probe, deviceCreate, if_pos hlen]; rfl, ?_⟩
  unfold Exact deviceInit
  simp only [List.map_append, List.map_cons, List.map_nil,
    Function.update_self, Function.update_idem, Option.map_some]
  refine List.Perm.append ?_ (List.Perm.refl _)
  rw [List.map_congr_left (g := fun e => (s.heap e).map Device.pciDev)]
  · exact hex
  · intro e he
    rw [Function.update_of_ne (hold e he)]

/-- Removing a card that is not present changes nothing. -/
theorem remove_absent (hex : Exact s cards) (hc : pciDev ∉ cards) :
    step (.remove pciDev) s = some s := by
  have hnone : lookupDevice s pciDev = .ok none := by
    refine lookupBy_none fun e he => ?_
    obtain ⟨d, hd⟩ := Option.isSome_iff_exists.mp (hex.live e he)
    have hne : d.pciDev ≠ pciDev := by
      intro heq
      exact hc (heq ▸ hex.mem_cards he hd)
    exact ⟨d, hd, by simp [hne]⟩
  simp only [step, remove, hnone]

/-- Removing a card that is present leaves a freed device in the table, so
that the table is exact for no set of cards. -/
theorem remove_present (hex : Exact s cards) (hc : pciDev ∈ cards) :
    ∃ s', step (.remove pciDev) s = some s' ∧ ∀ cards', ¬ Exact s' cards' := by
  have hmem : some pciDev ∈ s.devices.map fun e => (s.heap e).map Device.pciDev :=
    hex.mem_iff.mpr (List.mem_map.mpr ⟨pciDev, hc, rfl⟩)
  obtain ⟨e, he, hpci⟩ := List.mem_map.mp hmem
  obtain ⟨d, hd, hdc⟩ := Option.map_eq_some_iff.mp hpci
  obtain ⟨f, hf, hlook⟩ : ∃ f ∈ s.devices, lookupDevice s pciDev = .ok (some f) :=
    lookupBy_some hex.live ⟨e, he, d, hd, by simp [hdc]⟩
  refine ⟨deviceFree s f, by simp only [step, remove, hlook], ?_⟩
  intro cards' hex'
  have hlive := hex'.live f hf
  simp [deviceFree] at hlive

end Table

/-! ## Every sequence of calls -/

theorem present_probe (p : List Call) (pciDev : Nat) (init : InitResult) :
    present (p ++ [.probe pciDev init]) = present p ++ [pciDev] := by
  simp [present]

theorem present_remove (p : List Call) (pciDev : Nat) :
    present (p ++ [.remove pciDev]) = (present p).erase pciDev := by
  simp [present]

theorem runFrom_snoc (p : List Call) (call : Call) (s : Registry) :
    runFrom step (p ++ [call]) s = (runFrom step p s).bind (step call) := by
  rw [runFrom_append]
  congr 1
  funext t
  simp [runFrom]

/-- The run lemma: while no card that is present is removed, the table is
exact. -/
theorem exact_of_noneRemoved {calls : List Call} (hfit : FitsTable calls)
    (hnone : NoneRemoved calls) {p : List Call} (hp : p <+: calls) :
    ∃ s, runFrom step p Registry.empty = some s ∧ s.Bounded ∧
      Exact s (present p) := by
  induction p using List.reverseRecOn with
  | nil =>
    refine ⟨Registry.empty, rfl, ?_, List.Perm.refl _⟩
    simp [Registry.Bounded, Registry.empty]
  | append_singleton p call ih =>
    obtain ⟨s, hrun, hb, hex⟩ := ih ((List.prefix_append p [call]).trans hp)
    have hnext : ∃ s', step call s = some s' ∧
        Exact s' (present (p ++ [call])) := by
      cases call with
      | probe c init =>
        have hlen := hfit _ hp
        rw [present_probe, List.length_append, List.length_singleton] at hlen
        rw [present_probe]
        exact probe_exact hb hex (by omega) init
      | remove c =>
        have habs := hnone p c hp
        rw [present_remove, List.erase_of_not_mem habs]
        exact ⟨s, remove_absent hex habs, hex⟩
    obtain ⟨s', hstep, hex'⟩ := hnext
    refine ⟨s', ?_, step_bounded hb hstep, hex'⟩
    rw [runFrom_snoc, hrun, Option.bind_some, hstep]

/-- For every sequence of probes and removals with at most `MAXDEV` cards
present, the table follows the cards exactly when no card is removed while
it is present. -/
theorem registry_follows_iff (calls : List Call) (hfit : FitsTable calls) :
    Follows calls ↔ NoneRemoved calls := by
  constructor
  · intro hfol p c hp hc
    obtain ⟨s, hrun, hex, -⟩ := hfol p ((List.prefix_append p _).trans hp)
    obtain ⟨s', hstep, hbad⟩ := remove_present hex hc
    obtain ⟨t, hrun', hex', -⟩ := hfol _ hp
    rw [runFrom_snoc, hrun, Option.bind_some, hstep] at hrun'
    rw [← Option.some.inj hrun'] at hex'
    exact hbad _ hex'
  · intro hnone p hp
    obtain ⟨s, hrun, -, hex⟩ := exact_of_noneRemoved hfit hnone hp
    exact ⟨s, hrun, hex, hex.lookupsSafe⟩

/-- Two cards that stay. -/
theorem registry_follows_iff_two :
    Follows [.probe 1 ⟨253, 1, 0⟩, .probe 2 ⟨252, 2, 0⟩] := by
  refine (registry_follows_iff _ (by decide)).mpr fun p c hp => ?_
  have hmem : Call.remove c ∈ _ := hp.subset (List.mem_append_right p
    List.mem_cons_self)
  simp at hmem

/-- Of two cards the first is unplugged.  Its device is freed and stays the
first entry of the table, where the lookup of the other card reads it. -/
theorem unplugged_card_stays :
    FitsTable [.probe 1 ⟨253, 1, 0⟩, .probe 2 ⟨252, 2, 0⟩, .remove 1] ∧
    ¬ Follows [.probe 1 ⟨253, 1, 0⟩, .probe 2 ⟨252, 2, 0⟩, .remove 1] := by
  refine ⟨by decide, fun h => ?_⟩
  obtain ⟨s, hrun, -, hsafe⟩ := h _ (List.prefix_refl _)
  have hs := (hsafe 2).1.1
  rw [← Option.some.inj hrun] at hs
  exact hs rfl

end Acq200.Probe
