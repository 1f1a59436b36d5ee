import Mathlib.Logic.Function.Basic

/-!
# The pools of `acq200_bigbuf_alloc.c`

A device has two pools, one of return command handlers and one of
mappings of its DMA buffer.  Items are known by their index here, so the
search of `_free` for the item is a bounds test.

`_alloc` scans round the pool from its cursor and sleeps each time it
comes back to the cursor and finds that entry reserved.  No lock protects
the scan.  `scan` is one stretch of it between two sleeps, which a kernel
without preemption runs in one go.
-/

namespace Acq200.Rch

/-- `struct Pool`, with the `reserved` flags of its entries. -/
structure Pool where
  maxEntries : Nat
  reserved : Nat → Bool
  cursor : Nat

/-- How a stretch of the scan ends. -/
inductive Scan where
  | found (ibuf : Nat)
  /-- Entry `ibuf` is the cursor and is reserved, so `_alloc` sleeps. -/
  | sleep (ibuf : Nat)
  deriving DecidableEq

namespace Pool

variable {p : Pool}

/-- `INCR`. -/
def incr (p : Pool) (ibuf : Nat) : Nat :=
  if ibuf ≥ p.maxEntries - 1 then 0 else ibuf + 1

/-- The `for` loop of `_alloc` from entry `ibuf` to its next end or sleep.
The answer `none` is a loop that is still running. -/
def scan (p : Pool) : Nat → Nat → Option Scan
  | 0, _ => none
  | fuel + 1, ibuf =>
    if p.reserved ibuf then
      if ibuf = p.cursor then some (.sleep ibuf) else scan p fuel (p.incr ibuf)
    else some (.found ibuf)

/-- The stretch that `_alloc` runs first, or after a sleep at `asleep`.  A
stretch visits each entry at most once before it comes to the cursor. -/
def stretch (p : Pool) (asleep : Option Nat) : Option Scan :=
  p.scan p.maxEntries (p.incr (asleep.getD p.cursor))

/-- The last statements of `_alloc`. -/
def take (p : Pool) (ibuf : Nat) : Pool :=
  { p with cursor := ibuf, reserved := Function.update p.reserved ibuf true }

/-- `_free`.  An item that is not in the pool is only reported. -/
def free (p : Pool) (ibuf : Nat) : Pool :=
  if ibuf < p.maxEntries then
    { p with reserved := Function.update p.reserved ibuf false }
  else p

@[simp] theorem take_reserved (p : Pool) (ibuf : Nat) :
    (p.take ibuf).reserved = Function.update p.reserved ibuf true := rfl

@[simp] theorem take_maxEntries (p : Pool) (ibuf : Nat) :
    (p.take ibuf).maxEntries = p.maxEntries := rfl

@[simp] theorem free_maxEntries (p : Pool) (ibuf : Nat) :
    (p.free ibuf).maxEntries = p.maxEntries := by
  rw [free]
  split <;> rfl

theorem free_reserved_self (p : Pool) {ibuf : Nat} (h : ibuf < p.maxEntries) :
    (p.free ibuf).reserved ibuf = false := by
  rw [free, if_pos h]
  exact Function.update_self ibuf false p.reserved

theorem free_reserved_of_ne (p : Pool) {ibuf other : Nat} (h : other ≠ ibuf) :
    (p.free ibuf).reserved other = p.reserved other := by
  rw [free]
  split
  · exact Function.update_of_ne h _ _
  · rfl

/-- A free only ever clears a flag. -/
theorem reserved_of_free {ibuf other : Nat}
    (h : (p.free ibuf).reserved other = true) : p.reserved other = true := by
  by_cases heq : other = ibuf
  · rw [heq] at h ⊢
    by_cases hlt : ibuf < p.maxEntries
    · rw [free_reserved_self p hlt] at h
      cases h
    · rw [free, if_neg hlt] at h
      exact h
  · rw [free_reserved_of_ne p heq] at h
    exact h

/-- An entry that is freed again leaves the flags as they were. -/
theorem take_free_reserved {ibuf : Nat}
    (h : p.reserved ibuf = false ∧ ibuf < p.maxEntries) :
    ((p.take ibuf).free ibuf).reserved = p.reserved := by
  funext other
  by_cases heq : other = ibuf
  · rw [heq, h.1]
    exact free_reserved_self _ h.2
  · rw [free_reserved_of_ne _ heq, take_reserved, Function.update_of_ne heq]

theorem take_free_cursor {ibuf : Nat} (h : ibuf < p.maxEntries) :
    ((p.take ibuf).free ibuf).cursor < ((p.take ibuf).free ibuf).maxEntries := by
  have hfree : ((p.take ibuf).free ibuf).cursor = ibuf := by
    rw [free]
    split <;> rfl
  rw [hfree, free_maxEntries]
  exact h

theorem incr_lt (hpos : 0 < p.maxEntries) (ibuf : Nat) :
    p.incr ibuf < p.maxEntries := by
  rw [incr]
  split <;> omega

/-- A scan that ends with an entry found it unreserved and in the pool. -/
theorem scan_found (fuel : Nat) :
    ∀ {start ibuf : Nat}, start < p.maxEntries →
      p.scan fuel start = some (.found ibuf) →
      p.reserved ibuf = false ∧ ibuf < p.maxEntries := by
  induction fuel with
  | zero =>
    intro start ibuf _ h
    cases h
  | succ fuel ih =>
    intro start ibuf hlt h
    rw [scan] at h
    split at h
    · split at h
      · cases h
      · exact ih (incr_lt (by omega) start) h
    · rename_i hfree
      cases h
      exact ⟨by simpa using hfree, hlt⟩

theorem stretch_found {asleep : Option Nat} {ibuf : Nat}
    (h : p.stretch asleep = some (.found ibuf)) :
    p.reserved ibuf = false ∧ ibuf < p.maxEntries := by
  by_cases hpos : 0 < p.maxEntries
  · exact scan_found p.maxEntries (incr_lt hpos _) h
  · have hzero : p.maxEntries = 0 := by omega
    rw [stretch, hzero] at h
    cases h

/-- How many entries the scan still has to visit after `ibuf` before it is
at the cursor. -/
def ahead (p : Pool) (ibuf : Nat) : Nat :=
  if ibuf ≤ p.cursor then p.cursor - ibuf else p.cursor + p.maxEntries - ibuf

theorem ahead_inj {a b : Nat}
    (ha : a < p.maxEntries) (hb : b < p.maxEntries) (h : p.ahead a = p.ahead b) :
    a = b := by
  simp only [ahead] at h
  split at h <;> split at h <;> omega

/-- `incr` brings the scan one entry closer to the cursor. -/
theorem ahead_incr {ibuf : Nat} (hcursor : p.cursor < p.maxEntries)
    (hlt : ibuf < p.maxEntries) (hne : ibuf ≠ p.cursor) :
    p.ahead (p.incr ibuf) + 1 = p.ahead ibuf := by
  simp only [ahead, incr]
  split <;> split <;> split <;> omega

theorem ahead_lt (hcursor : p.cursor < p.maxEntries) (ibuf : Nat) :
    p.ahead ibuf < p.maxEntries := by
  simp only [ahead]
  split <;> omega

theorem ahead_incr_cursor (hcursor : p.cursor < p.maxEntries) :
    p.ahead (p.incr p.cursor) + 1 = p.maxEntries := by
  simp only [ahead, incr]
  split <;> split <;> omega

/-- A scan finds an entry if one on its way to the cursor is free. -/
theorem scan_finds (hcursor : p.cursor < p.maxEntries) (fuel : Nat) :
    ∀ {start free : Nat}, start < p.maxEntries → p.ahead start < fuel →
      free < p.maxEntries → p.reserved free = false →
      p.ahead free ≤ p.ahead start → ∃ ibuf, p.scan fuel start = some (.found ibuf) := by
  induction fuel with
  | zero =>
    intro start free _ hfuel
    exact absurd hfuel (Nat.not_lt_zero _)
  | succ fuel ih =>
    intro start free hstart hfuel hfree hres hahead
    rw [scan]
    split
    · rename_i hstartRes
      have hne : free ≠ start := by
        rintro rfl
        rw [hres] at hstartRes
        cases hstartRes
      split
      · rename_i hat
        have hzero : p.ahead start = 0 := by
          rw [ahead, hat, if_pos (Nat.le_refl _), Nat.sub_self]
        exact absurd (ahead_inj hfree hstart (by omega)) hne
      · rename_i hat
        have hnext := ahead_incr hcursor hstart hat
        have hbefore : p.ahead free < p.ahead start :=
          Nat.lt_of_le_of_ne hahead fun heq =>
            hne (ahead_inj hfree hstart heq)
        exact ih (incr_lt (by omega) start) (by omega) hfree hres (by omega)
    · exact ⟨start, rfl⟩

/-- The first stretch goes round the whole pool. -/
theorem stretch_finds (hcursor : p.cursor < p.maxEntries) {free : Nat}
    (hfree : free < p.maxEntries) (hres : p.reserved free = false) :
    ∃ ibuf, p.stretch none = some (.found ibuf) := by
  have hstart := ahead_incr_cursor hcursor
  have hahead := ahead_lt hcursor free
  rw [stretch, Option.getD_none]
  exact scan_finds hcursor p.maxEntries (incr_lt (by omega) _) (by omega) hfree hres
    (by omega)

end Pool

end Acq200.Rch
