import Acq200.Lib.PutBackQueue
import Acq200.Lib.Window
import Acq200.StreamBuf.Ring

/-!
# The stream ring is a bounded queue with one-step put-back

`Rep` relates the ring to the abstract queue of `Lib.PutBackQueue`.  The
slots from `iputback` on hold the item that may come back and then the
queue, `iget` stands after the item that is out, and `iput` stands after
the queue.  Fullness is judged against `iputback` and emptiness against
`iget`, and `Rep` is what makes both tests right: the item that is out
keeps its slot, so the ring holds at most `nbuf - 1` items with it.

`Count` is the law of the two put counters.  The counter `nwrapped` is a
32-bit `int`, so the law is modular: `nwrapped` counts the wraps modulo
`2 ^ 32`.

`ringRun` runs a list of operations on a ring that `genericIntBufInit` has
just set up, and `specRun` runs the same operations on the abstract queue.
`ring_simulates` is the simulation, and `ring_refines_queue` reads off it
everything that a user of the ring relies on.
-/

namespace Acq200.StreamBuf

open Acq200.Lib

/-! ## The representation relation -/

/-- The ring `buf` of `2 ^ k` slots represents the queue `q`. -/
structure Rep (k : Nat) (buf : GenericIntBuf) (q : PutBackQueue UInt32) :
    Prop where
  mask : buf.bufferMask = 2 ^ k - 1
  iputback_lt : buf.iputback < 2 ^ k
  iget_eq : buf.iget = (buf.iputback + q.out.length) % 2 ^ k
  iput_eq : buf.iput = (buf.iputback + q.held.length) % 2 ^ k
  room : q.held.length < 2 ^ k
  slots : window (2 ^ k) buf.buffers buf.iputback q.held.length = q.held

theorem rep_init {k : Nat} (buf : GenericIntBuf) :
    Rep k (genericIntBufInit buf (2 ^ k)) PutBackQueue.empty where
  mask := rfl
  iputback_lt := Nat.two_pow_pos k
  iget_eq := (Nat.zero_mod _).symm
  iput_eq := (Nat.zero_mod _).symm
  room := Nat.two_pow_pos k
  slots := rfl

section Step

variable {k : Nat} {buf : GenericIntBuf} {q : PutBackQueue UInt32}

theorem Rep.inc (h : Rep k buf q) (ii : Nat) :
    genericIntBufInc buf ii = (ii + 1) % 2 ^ k :=
  genericIntBufInc_eq h.mask ii

theorem Rep.inc_iput (h : Rep k buf q) :
    genericIntBufInc buf buf.iput
      = (buf.iputback + (q.held.length + 1)) % 2 ^ k := by
  rw [h.inc, h.iput_eq, Nat.mod_add_mod, Nat.add_assoc]

/-- The ring is full when the item that may come back and the queue fill
all slots but one. -/
theorem Rep.isFull_iff (h : Rep k buf q) :
    genericIntBufIsFull buf = true ↔ q.held.length + 1 = 2 ^ k := by
  have hroom := h.room
  rw [genericIntBufIsFull, beq_iff_eq, h.inc_iput]
  constructor
  · intro heq
    by_contra hne
    refine add_mod_ne (a := buf.iputback) (i := 0) (j := q.held.length + 1)
      (n := 2 ^ k) (by omega) (by omega) ?_
    rw [heq, Nat.add_zero, Nat.mod_eq_of_lt h.iputback_lt]
  · intro heq
    rw [heq, Nat.add_mod_right, Nat.mod_eq_of_lt h.iputback_lt]

/-- The ring is empty when the queue is. -/
theorem Rep.isEmpty_iff (h : Rep k buf q) :
    genericIntBufIsEmpty buf = true ↔ q.queue = [] := by
  have hroom := h.room
  have hlen : q.held.length = q.out.length + q.queue.length := by
    rw [PutBackQueue.held, List.length_append]
  rw [genericIntBufIsEmpty, beq_iff_eq, h.iget_eq, h.iput_eq]
  constructor
  · intro heq
    by_contra hne
    have hpos : 0 < q.queue.length := List.length_pos_iff.mpr hne
    exact add_mod_ne (a := buf.iputback) (i := q.out.length)
      (j := q.held.length) (n := 2 ^ k) (by omega) (by omega) heq
  · intro hnil
    rw [hlen, hnil, List.length_nil, Nat.add_zero]

theorem Rep.not_full (h : Rep k buf q) (hfull : genericIntBufIsFull buf = false) :
    q.held.length + 1 < 2 ^ k := by
  have hne : q.held.length + 1 ≠ 2 ^ k := by
    intro heq
    rw [h.isFull_iff.mpr heq] at hfull
    cases hfull
  have hroom := h.room
  omega

/-- The diagnostics of the ring do not matter to the queue. -/
theorem Rep.congr {buf' : GenericIntBuf} (h : Rep k buf q)
    (hmask : buf'.bufferMask = buf.bufferMask) (hput : buf'.iput = buf.iput)
    (hget : buf'.iget = buf.iget) (hback : buf'.iputback = buf.iputback)
    (hslots : buf'.buffers = buf.buffers) : Rep k buf' q where
  mask := hmask.trans h.mask
  iputback_lt := hback ▸ h.iputback_lt
  iget_eq := by rw [hget, hback, h.iget_eq]
  iput_eq := by rw [hput, hback, h.iput_eq]
  room := h.room
  slots := by rw [hslots, hback, h.slots]

/-- The slot at `iput` is free, so a write to it is not seen. -/
theorem Rep.write (h : Rep k buf q) (data : UInt32) :
    Rep k { buf with buffers := Function.update buf.buffers buf.iput data } q where
  mask := h.mask
  iputback_lt := h.iputback_lt
  iget_eq := h.iget_eq
  iput_eq := h.iput_eq
  room := h.room
  slots := by
    have hroom := h.room
    show window (2 ^ k) (Function.update buf.buffers buf.iput data)
      buf.iputback q.held.length = q.held
    rw [window_update fun i hi => by
      rw [h.iput_eq]; exact add_mod_ne hi (by omega), h.slots]

/-- The store to `iput` publishes the slot that it leaves. -/
theorem Rep.commit (h : Rep k buf q) (hfull : genericIntBufIsFull buf = false)
    {data : UInt32} (hslot : buf.buffers buf.iput = data) :
    Rep k { buf with iput := genericIntBufInc buf buf.iput } (q.put data) where
  mask := h.mask
  iputback_lt := h.iputback_lt
  iget_eq := h.iget_eq
  iput_eq := by
    rw [PutBackQueue.held_put, List.length_append]
    exact h.inc_iput
  room := by
    rw [PutBackQueue.held_put, List.length_append]
    exact h.not_full hfull
  slots := by
    rw [PutBackQueue.held_put, List.length_append, List.length_singleton]
    show window (2 ^ k) buf.buffers buf.iputback (q.held.length + 1)
      = q.held ++ [data]
    rw [window_succ, h.slots, ← h.iput_eq, hslot]

theorem genericIntBufPut_of_not_full (hfull : genericIntBufIsFull buf = false)
    (data : UInt32) :
    genericIntBufPut buf data
      = (advancePut { buf with
          buffers := Function.update buf.buffers buf.iput data }, 0) := by
  rw [genericIntBufPut, if_neg (by rw [hfull]; exact Bool.false_ne_true)]

theorem genericIntBufPut_of_full (hfull : genericIntBufIsFull buf = true)
    (data : UInt32) : genericIntBufPut buf data = (buf, -1) := by
  rw [genericIntBufPut, if_pos hfull]

/-- A put that is not refused appends to the queue. -/
theorem Rep.put (h : Rep k buf q) (hfull : genericIntBufIsFull buf = false)
    (data : UInt32) :
    Rep k (genericIntBufPut buf data).1 (q.put data) := by
  have hcommit := (h.write data).commit hfull
    (Function.update_self buf.iput data buf.buffers)
  rw [genericIntBufPut_of_not_full hfull]
  exact hcommit.congr (advancePut_bufferMask _) rfl (advancePut_iget _)
    (advancePut_iputback _) (advancePut_buffers _)

/-- The slot at `iget` holds the head of the queue. -/
theorem Rep.slot_iget (h : Rep k buf q) {x : UInt32} {rest : List UInt32}
    (hq : q.queue = x :: rest) : buf.buffers buf.iget = x := by
  have hheld : q.held = q.out ++ x :: rest := by rw [PutBackQueue.held, hq]
  have hlen : q.out.length < q.held.length := by
    rw [hheld, List.length_append, List.length_cons]
    omega
  have hget : q.held[q.out.length]? = some x := by
    rw [hheld, List.getElem?_append_right (Nat.le_refl _), Nat.sub_self]
    rfl
  rw [← h.slots, window, List.getElem?_map,
    List.getElem?_range (by exact hlen)] at hget
  rw [h.iget_eq]
  exact Option.some.inj hget

/-- A get of a queue that is not empty hands out its head. -/
theorem Rep.get (h : Rep k buf q) {x : UInt32} {rest : List UInt32}
    (hq : q.queue = x :: rest) :
    genericIntBufGet buf
        = ({ buf with iputback := buf.iget,
                      iget := genericIntBufInc buf buf.iget }, x) ∧
      Rep k (genericIntBufGet buf).1 q.get.1 := by
  have hempty : genericIntBufIsEmpty buf ≠ true := by
    rw [Ne, h.isEmpty_iff, hq]
    exact List.cons_ne_nil x rest
  have hget : genericIntBufGet buf
      = ({ buf with iputback := buf.iget,
                    iget := genericIntBufInc buf buf.iget }, x) := by
    rw [genericIntBufGet, if_neg hempty, h.slot_iget hq]
  refine ⟨hget, ?_⟩
  have hheld : q.held = q.out ++ x :: rest := by rw [PutBackQueue.held, hq]
  have hlen : q.held.length = q.out.length + (rest.length + 1) := by
    rw [hheld, List.length_append, List.length_cons]
  have higet : buf.iget < 2 ^ k := by
    rw [h.iget_eq]
    exact Nat.mod_lt _ (Nat.two_pow_pos k)
  have hroom := h.room
  rw [hget, PutBackQueue.get_cons hq]
  refine ⟨h.mask, higet, h.inc buf.iget, ?_, ?_, ?_⟩
  · show buf.iput = (buf.iget + (rest.length + 1)) % 2 ^ k
    rw [h.iput_eq, h.iget_eq, Nat.mod_add_mod, hlen, Nat.add_assoc]
  · show rest.length + 1 < 2 ^ k
    omega
  · -- The window from `iget` on is the window from `iputback` on, less the
    -- item that was out.
    show window (2 ^ k) buf.buffers buf.iget (rest.length + 1) = x :: rest
    have hslots := h.slots
    rw [hlen] at hslots
    have hout : q.out.length = 0 ∨ q.out.length = 1 := by
      have := q.length_out_le
      omega
    rw [h.iget_eq, window_mod]
    rcases hout with h0 | h1
    · rw [h0, Nat.zero_add] at hslots
      rw [h0, Nat.add_zero, hslots, hheld, List.length_eq_zero_iff.mp h0,
        List.nil_append]
    · rw [h1, Nat.add_comm 1, window_cons, hheld] at hslots
      obtain ⟨y, hy⟩ := List.length_eq_one_iff.mp h1
      rw [hy, List.singleton_append, List.cons.injEq] at hslots
      rw [h1]
      exact hslots.2

theorem Rep.get_empty (h : Rep k buf q) (hq : q.queue = []) :
    genericIntBufGet buf = (buf, STREAM_MFA_INVALID) := by
  rw [genericIntBufGet, if_pos (h.isEmpty_iff.mpr hq)]

theorem Rep.putBack (h : Rep k buf q) :
    Rep k (genericIntBufPutBack buf) q.putBack where
  mask := h.mask
  iputback_lt := h.iputback_lt
  iget_eq := (Nat.mod_eq_of_lt h.iputback_lt).symm
  iput_eq := h.iput_eq
  room := h.room
  slots := h.slots

/-! ## The number of entries -/

/-- The counting loop walks from `iget` to `iput`, one slot a test. -/
theorem numEntriesLoop_eq (h : Rep k buf q) (todo : Nat) :
    ∀ (fuel start entries : Nat), todo < fuel → todo < 2 ^ k →
      (start + todo) % 2 ^ k = buf.iput →
      numEntriesLoop buf fuel (start % 2 ^ k) entries
        = some (entries + todo) := by
  induction todo with
  | zero =>
    intro fuel start entries hfuel _ hput
    obtain ⟨fuel, rfl⟩ : ∃ f, fuel = f + 1 := ⟨fuel - 1, by omega⟩
    rw [Nat.add_zero] at hput
    rw [numEntriesLoop, if_neg (not_not_intro hput), Nat.add_zero]
  | succ todo ih =>
    intro fuel start entries hfuel hlt hput
    obtain ⟨fuel, rfl⟩ : ∃ f, fuel = f + 1 := ⟨fuel - 1, by omega⟩
    have hne : start % 2 ^ k ≠ buf.iput := by
      rw [← hput]
      exact add_mod_ne (a := start) (i := 0) (by omega) (by omega)
    rw [numEntriesLoop, if_pos hne, h.inc, Nat.mod_add_mod,
      ih fuel (start + 1) (entries + 1) (by omega) (by omega)
        (by rw [← hput]; congr 1; omega)]
    congr 1
    omega

/-- The loop ends after at most `nbuf` tests with the queue length. -/
theorem Rep.numEntries (h : Rep k buf q) {fuel : Nat} (hfuel : 2 ^ k ≤ fuel) :
    genericIntBufNumEntries buf fuel = some q.queue.length := by
  have hroom := h.room
  have hlen : q.held.length = q.out.length + q.queue.length := by
    rw [PutBackQueue.held, List.length_append]
  have hloop := numEntriesLoop_eq h q.queue.length fuel
    (buf.iputback + q.out.length) 0 (by omega) (by omega)
    (by rw [h.iput_eq, hlen, Nat.add_assoc])
  rw [← h.iget_eq, Nat.zero_add] at hloop
  exact hloop

/-! ## The put counters -/

/-- After `n` accepted puts, `iput` is `n` modulo the size and `nwrapped`
counts the wraps in 32 bits. -/
structure Count (k : Nat) (buf : GenericIntBuf) (n : Nat) : Prop where
  iput_eq : buf.iput = n % 2 ^ k
  nwrapped_eq : buf.nwrapped = BitVec.ofNat 32 (n / 2 ^ k)

theorem count_init (k : Nat) : Count k (genericIntBufInit zeroed (2 ^ k)) 0 where
  iput_eq := (Nat.zero_mod _).symm
  nwrapped_eq := by
    rw [Nat.zero_div]
    rfl

/-- An accepted put moves `iput` on, and counts a wrap exactly when `iput`
falls back to slot 0. -/
theorem Count.put {n : Nat} (hk : 1 ≤ k) (hmask : buf.bufferMask = 2 ^ k - 1)
    (h : Count k buf n) (hfull : genericIntBufIsFull buf = false)
    (data : UInt32) : Count k (genericIntBufPut buf data).1 (n + 1) := by
  have hinc : genericIntBufInc { buf with
      buffers := Function.update buf.buffers buf.iput data } buf.iput
        = (n % 2 ^ k + 1) % 2 ^ k := by
    rw [genericIntBufInc_eq (k := k) (by exact hmask), h.iput_eq]
  have htwo : 2 ≤ 2 ^ k := by
    calc 2 = 2 ^ 1 := rfl
      _ ≤ 2 ^ k := Nat.pow_le_pow_right (by decide) hk
  have hlt : n % 2 ^ k < 2 ^ k := Nat.mod_lt _ (by omega)
  rw [genericIntBufPut_of_not_full hfull]
  constructor
  · rw [advancePut_iput, hinc, Nat.mod_add_mod]
  · rw [advancePut_nwrapped, hinc, h.iput_eq]
    have hdiv : (n + 1) / 2 ^ k
        = n / 2 ^ k + if 2 ^ k ∣ n + 1 then 1 else 0 := Nat.succ_div
    by_cases hlast : n % 2 ^ k + 1 = 2 ^ k
    · have hdvd : 2 ^ k ∣ n + 1 := by
        refine Nat.dvd_of_mod_eq_zero ?_
        rw [← Nat.mod_add_mod, hlast, Nat.mod_self]
      rw [if_pos (by rw [hlast, Nat.mod_self]; omega), hdiv, if_pos hdvd,
        h.nwrapped_eq, BitVec.ofNat_add]
      rfl
    · have hdvd : ¬ 2 ^ k ∣ n + 1 := by
        intro hd
        have hzero := Nat.mod_eq_zero_of_dvd hd
        rw [← Nat.mod_add_mod, Nat.mod_eq_of_lt (by omega)] at hzero
        omega
      rw [if_neg (by rw [Nat.mod_eq_of_lt (by omega)]; omega), hdiv,
        if_neg hdvd, h.nwrapped_eq, Nat.add_zero]

end Step

/-! ## Runs -/

/-- One operation on the ring. -/
inductive Op where
  | put (data : UInt32)
  | get
  | putBack
  deriving DecidableEq

/-- What an operation answers. -/
inductive Out where
  | code (rc : Int)
  | word (data : UInt32)
  | done
  deriving DecidableEq

def ringStep (buf : GenericIntBuf) : Op → GenericIntBuf × Out
  | .put data => ((genericIntBufPut buf data).1, .code (genericIntBufPut buf data).2)
  | .get => ((genericIntBufGet buf).1, .word (genericIntBufGet buf).2)
  | .putBack => (genericIntBufPutBack buf, .done)

/-- The queue takes a put as long as one slot of the ring stays free. -/
def specStep (k : Nat) (q : PutBackQueue UInt32) :
    Op → PutBackQueue UInt32 × Out
  | .put data =>
    if q.held.length + 1 = 2 ^ k then (q, .code (-1))
    else (q.put data, .code 0)
  | .get => (q.get.1, .word (q.get.2.getD STREAM_MFA_INVALID))
  | .putBack => (q.putBack, .done)

/-- Run the operations, and keep each one with its answer. -/
def runOps {σ : Type} (step : σ → Op → σ × Out) (s : σ) :
    List Op → σ × List (Op × Out)
  | [] => (s, [])
  | op :: ops =>
    ((runOps step (step s op).1 ops).1,
      (op, (step s op).2) :: (runOps step (step s op).1 ops).2)

/-- The data of the puts that were answered with `0`, in order. -/
def acceptedPuts (log : List (Op × Out)) : List UInt32 :=
  log.filterMap fun
    | (.put data, .code rc) => if rc = 0 then some data else none
    | _ => none

/-- The run of the operations on a ring of `2 ^ k` slots that
`genericIntBufInit` has just set up. -/
def ringRun (k : Nat) (ops : List Op) : GenericIntBuf × List (Op × Out) :=
  runOps ringStep (genericIntBufInit zeroed (2 ^ k)) ops

/-- The same run on the abstract queue. -/
def specRun (k : Nat) (ops : List Op) :
    PutBackQueue UInt32 × List (Op × Out) :=
  runOps (specStep k) PutBackQueue.empty ops

/-- One operation: the ring follows the queue, and answers as it does. -/
theorem Rep.step {k : Nat} {buf : GenericIntBuf} {q : PutBackQueue UInt32}
    (h : Rep k buf q) (op : Op) :
    Rep k (ringStep buf op).1 (specStep k q op).1 ∧
      (ringStep buf op).2 = (specStep k q op).2 := by
  cases op with
  | put data =>
    by_cases hfull : genericIntBufIsFull buf = true
    · rw [specStep, if_pos (h.isFull_iff.mp hfull), ringStep,
        genericIntBufPut_of_full hfull]
      exact ⟨h, rfl⟩
    · have hne : ¬ q.held.length + 1 = 2 ^ k := fun he =>
        hfull (h.isFull_iff.mpr he)
      rw [specStep, if_neg hne, ringStep]
      rw [Bool.not_eq_true] at hfull
      refine ⟨h.put hfull data, ?_⟩
      rw [genericIntBufPut_of_not_full hfull]
  | get =>
    cases hq : q.queue with
    | nil =>
      rw [specStep, ringStep, h.get_empty hq, PutBackQueue.get_nil hq]
      exact ⟨h, rfl⟩
    | cons x rest =>
      obtain ⟨hget, hrep⟩ := h.get hq
      refine ⟨hrep, ?_⟩
      rw [specStep, ringStep, hget, PutBackQueue.get_cons hq]
      rfl
  | putBack => exact ⟨h.putBack, rfl⟩

/-- A whole run: the ring and the queue stay related and answer alike. -/
theorem ring_simulates {k : Nat} (ops : List Op) :
    ∀ {buf : GenericIntBuf} {q : PutBackQueue UInt32}, Rep k buf q →
      Rep k (runOps ringStep buf ops).1 (runOps (specStep k) q ops).1 ∧
        (runOps ringStep buf ops).2 = (runOps (specStep k) q ops).2 := by
  induction ops with
  | nil =>
    intro buf q h
    exact ⟨h, rfl⟩
  | cons op ops ih =>
    intro buf q h
    obtain ⟨hrep, hout⟩ := h.step op
    obtain ⟨hrest, hlog⟩ := ih hrep
    refine ⟨hrest, ?_⟩
    simp only [runOps, hout, hlog]

/-- The counters of a whole run count the accepted puts. -/
theorem count_run {k : Nat} (hk : 1 ≤ k) (ops : List Op) :
    ∀ {buf : GenericIntBuf} {q : PutBackQueue UInt32} {n : Nat},
      Rep k buf q → Count k buf n →
      Count k (runOps ringStep buf ops).1
        (n + (acceptedPuts (runOps ringStep buf ops).2).length) := by
  induction ops with
  | nil =>
    intro buf q n _ h
    exact h
  | cons op ops ih =>
    intro buf q n hrep h
    have hrest := fun m => ih (n := m) (hrep.step op).1
    cases op with
    | put data =>
      by_cases hfull : genericIntBufIsFull buf = true
      · have hput := genericIntBufPut_of_full hfull data
        have := hrest n (by rw [ringStep, hput]; exact h)
        simpa [runOps, ringStep, hput, acceptedPuts] using this
      · rw [Bool.not_eq_true] at hfull
        have hcount := h.put hk hrep.mask hfull data
        have hcode : (genericIntBufPut buf data).2 = 0 := by
          rw [genericIntBufPut_of_not_full hfull]
        have := hrest (n + 1) hcount
        rw [Nat.add_assoc, Nat.add_comm 1] at this
        simpa [runOps, ringStep, hcode, acceptedPuts] using this
    | get =>
      have hcount : Count k (genericIntBufGet buf).1 n := by
        rw [genericIntBufGet]
        split
        · exact h
        · exact ⟨h.iput_eq, h.nwrapped_eq⟩
      simpa [runOps, ringStep, acceptedPuts] using hrest n hcount
    | putBack =>
      simpa [runOps, ringStep, acceptedPuts] using
        hrest n ⟨h.iput_eq, h.nwrapped_eq⟩

/-- The accepted puts of a run are what the abstract queue was given. -/
theorem contents_run {k : Nat} (ops : List Op) :
    ∀ (q : PutBackQueue UInt32),
      (runOps (specStep k) q ops).1.contents
        = q.contents ++ acceptedPuts (runOps (specStep k) q ops).2 := by
  induction ops with
  | nil =>
    intro q
    exact (List.append_nil _).symm
  | cons op ops ih =>
    intro q
    rw [runOps, ih]
    cases op with
    | put data =>
      by_cases hfull : q.held.length + 1 = 2 ^ k
      · simp [specStep, hfull, acceptedPuts]
      · simp [specStep, hfull, acceptedPuts, PutBackQueue.contents_put]
    | get => simp [specStep, acceptedPuts, PutBackQueue.contents_get]
    | putBack => simp [specStep, acceptedPuts, PutBackQueue.contents_putBack]

theorem wf_run {k : Nat} (ops : List Op) :
    ∀ {q : PutBackQueue UInt32}, q.Wf → (runOps (specStep k) q ops).1.Wf := by
  induction ops with
  | nil =>
    intro q h
    exact h
  | cons op ops ih =>
    intro q h
    refine ih ?_
    cases op with
    | put data =>
      rw [specStep]
      split
      · exact h
      · exact h.put data
    | get => exact h.get
    | putBack => exact h.putBack

/-- Nothing is ever out, and nothing was ever got, before the first get. -/
theorem last_run_of_no_get {k : Nat} (ops : List Op) (hops : Op.get ∉ ops) :
    ∀ {q : PutBackQueue UInt32}, q.last = none →
      (runOps (specStep k) q ops).1.last = none := by
  induction ops with
  | nil =>
    intro q h
    exact h
  | cons op ops ih =>
    intro q h
    rw [List.mem_cons, not_or] at hops
    refine ih hops.2 ?_
    cases op with
    | put data =>
      rw [specStep]
      split
      · exact h
      · exact h
    | get => exact absurd rfl hops.1
    | putBack => exact h

/-- The puts that a run accepts are puts of the run. -/
theorem mem_ops_of_mem_acceptedPuts {σ : Type} {step : σ → Op → σ × Out}
    (ops : List Op) {data : UInt32} :
    ∀ {s : σ}, data ∈ acceptedPuts (runOps step s ops).2 →
      Op.put data ∈ ops := by
  induction ops with
  | nil =>
    intro s h
    cases h
  | cons op ops ih =>
    intro s h
    rw [runOps, acceptedPuts, List.mem_filterMap] at h
    obtain ⟨entry, hentry, hdata⟩ := h
    rcases List.mem_cons.mp hentry with rfl | hrest
    · cases op with
      | put d =>
        cases hout : (step s (Op.put d)).2 with
        | code rc =>
          rw [hout] at hdata
          by_cases hrc : rc = 0
          · simp only [hrc, if_true, Option.some.injEq] at hdata
            rw [hdata]
            exact List.mem_cons_self
          · simp only [hrc, if_false] at hdata
            cases hdata
        | word d => rw [hout] at hdata; cases hdata
        | done => rw [hout] at hdata; cases hdata
      | get => cases hdata
      | putBack => cases hdata
    · refine List.mem_cons_of_mem op (ih (s := (step s op).1) ?_)
      rw [acceptedPuts, List.mem_filterMap]
      exact ⟨entry, hrest, hdata⟩

/-! ## What a user of the ring relies on -/

/-- The ring of `2 ^ k` slots after `ops` is a bounded queue with one-step
put-back.  `buf` and `log` are the ring and its answers, `q` is the
abstract queue after the same operations. -/
structure IsQueue (k : Nat) (ops : List Op) (buf : GenericIntBuf)
    (log : List (Op × Out)) (q : PutBackQueue UInt32) : Prop where
  /-- Every operation was answered as the queue answers it. -/
  answers : log = (specRun k ops).2
  /-- The reader took the accepted puts in order; the rest is queued. -/
  order : acceptedPuts log = q.taken ++ q.out ++ q.queue
  get_head : ∀ x rest, q.queue = x :: rest → (genericIntBufGet buf).2 = x
  get_invalid_iff : (genericIntBufGet buf).2 = STREAM_MFA_INVALID ↔ q.queue = []
  /-- A put-back makes the next get return the last-got item again. -/
  putBack_get : ∀ x, q.last = some x →
    (genericIntBufGet (genericIntBufPutBack buf)).2 = x
  putBack_putBack : genericIntBufPutBack (genericIntBufPutBack buf)
    = genericIntBufPutBack buf
  putBack_first : Op.get ∉ ops → genericIntBufPutBack buf = buf
  /-- The slot of the last-got item still holds it, also after a put. -/
  last_slot : ∀ x, q.last = some x → buf.buffers buf.iputback = x ∧
    ∀ data, (genericIntBufPut buf data).1.buffers buf.iputback = x
  put_refuses : ∀ data, (genericIntBufPut buf data).2 ≠ 0 →
    (genericIntBufPut buf data).1 = buf ∧ 2 ^ k - 2 ≤ q.queue.length
  numEntries : ∀ fuel, 2 ^ k ≤ fuel →
    genericIntBufNumEntries buf fuel = some q.queue.length

/-- The slot at `iputback` holds the item that was got last. -/
theorem Rep.slot_iputback {k : Nat} {buf : GenericIntBuf}
    {q : PutBackQueue UInt32} (h : Rep k buf q) (hwf : q.Wf) {x : UInt32}
    (hx : q.last = some x) : buf.buffers buf.iputback = x := by
  have hhead : q.held.head? = some x := PutBackQueue.head_putBack hwf hx
  obtain ⟨rest, hrest⟩ := List.head?_eq_some_iff.mp hhead
  have hslots := h.slots
  rw [hrest, List.length_cons, window_cons, List.cons.injEq,
    Nat.mod_eq_of_lt h.iputback_lt] at hslots
  exact hslots.1

theorem isQueue_ringRun {k : Nat} (ops : List Op)
    (hdata : ∀ data, Op.put data ∈ ops → data ≠ STREAM_MFA_INVALID) :
    IsQueue k ops (ringRun k ops).1 (ringRun k ops).2 (specRun k ops).1 := by
  obtain ⟨hrep, hlog⟩ : Rep k (ringRun k ops).1 (specRun k ops).1 ∧
      (ringRun k ops).2 = (specRun k ops).2 :=
    ring_simulates ops (rep_init zeroed)
  have hwf : (specRun k ops).1.Wf := wf_run ops PutBackQueue.wf_empty
  have horder : acceptedPuts (ringRun k ops).2
      = (specRun k ops).1.taken ++ (specRun k ops).1.out
        ++ (specRun k ops).1.queue := by
    rw [hlog, List.append_assoc]
    exact (contents_run ops PutBackQueue.empty).symm
  have hhead : ∀ x rest, (specRun k ops).1.queue = x :: rest →
      (genericIntBufGet (ringRun k ops).1).2 = x := by
    intro x rest hq
    obtain ⟨hget, _⟩ := hrep.get hq
    exact congrArg Prod.snd hget
  refine ⟨hlog, horder, hhead, ?_, ?_, rfl, ?_, ?_, ?_, ?_⟩
  · constructor
    · intro hinv
      cases hq : (specRun k ops).1.queue with
      | nil => rfl
      | cons x rest =>
        have hmem : x ∈ acceptedPuts (ringRun k ops).2 := by
          rw [horder, hq]
          exact List.mem_append_right _ List.mem_cons_self
        rw [hhead x rest hq] at hinv
        exact absurd hinv (hdata x (mem_ops_of_mem_acceptedPuts ops hmem))
    · intro hq
      exact congrArg Prod.snd (hrep.get_empty hq)
  · intro x hx
    obtain ⟨rest, hq⟩ :=
      List.head?_eq_some_iff.mp (PutBackQueue.head_putBack hwf hx)
    exact congrArg Prod.snd (hrep.putBack.get hq).1
  · intro hget
    have hlast : (specRun k ops).1.last = none :=
      last_run_of_no_get ops hget rfl
    have hout : (specRun k ops).1.out = [] := by
      rw [PutBackQueue.out, hlast]
      split <;> rfl
    have higet := hrep.iget_eq
    rw [hout, List.length_nil, Nat.add_zero,
      Nat.mod_eq_of_lt hrep.iputback_lt] at higet
    exact congrArg (fun ii => { (ringRun k ops).1 with iget := ii }) higet.symm
  · intro x hx
    refine ⟨hrep.slot_iputback hwf hx, fun data => ?_⟩
    have hnext := (hrep.step (.put data)).1
    have hlast : (specStep k (specRun k ops).1 (.put data)).1.last = some x := by
      rw [specStep]
      split
      · exact hx
      · exact hx
    have hwf' : (specStep k (specRun k ops).1 (.put data)).1.Wf := by
      rw [specStep]
      split
      · exact hwf
      · exact hwf.put data
    have hback : (genericIntBufPut (ringRun k ops).1 data).1.iputback
        = (ringRun k ops).1.iputback := by
      rw [genericIntBufPut]
      split
      · rfl
      · exact advancePut_iputback _
    rw [← hback]
    exact hnext.slot_iputback hwf' hlast
  · intro data hrc
    by_cases hfull : genericIntBufIsFull (ringRun k ops).1 = true
    · refine ⟨by rw [genericIntBufPut_of_full hfull], ?_⟩
      have hheld := hrep.isFull_iff.mp hfull
      have hout := (specRun k ops).1.length_out_le
      rw [PutBackQueue.held, List.length_append] at hheld
      omega
    · rw [genericIntBufPut, if_neg hfull] at hrc
      exact absurd rfl hrc
  · intro fuel hfuel
    exact hrep.numEntries hfuel

theorem count_ringRun {k : Nat} (hk : 1 ≤ k) (ops : List Op) :
    Count k (ringRun k ops).1 (acceptedPuts (ringRun k ops).2).length := by
  have h := count_run hk ops (rep_init zeroed) (count_init k)
  rw [Nat.zero_add] at h
  exact h

/-- The two put counters, read as one number, are the number of accepted
puts modulo `2 ^ (32 + k)`. -/
theorem Count.modEq {k n : Nat} {buf : GenericIntBuf} (h : Count k buf n) :
    buf.nwrapped.toInt * 2 ^ k + buf.iput ≡ n [ZMOD 2 ^ (32 + k)] := by
  have hwrap : buf.nwrapped.toInt ≡ (n / 2 ^ k : Nat) [ZMOD 2 ^ 32] := by
    rw [h.nwrapped_eq, BitVec.toInt_ofNat']
    exact Int.bmod_emod
  have hsplit : (n : Int) = (n / 2 ^ k : Nat) * 2 ^ k + (n % 2 ^ k : Nat) := by
    exact_mod_cast (Nat.div_add_mod' n (2 ^ k)).symm
  rw [hsplit, h.iput_eq, pow_add]
  exact (hwrap.mul_right' (c := 2 ^ k)).add_right _

/-- As long as `nwrapped` has not overflowed, the two put counters are the
number of accepted puts. -/
theorem Count.eq_of_lt {k n : Nat} {buf : GenericIntBuf} (h : Count k buf n)
    (hn : n < 2 ^ (31 + k)) : buf.nwrapped.toInt * 2 ^ k + buf.iput = n := by
  have hdiv : n / 2 ^ k < 2 ^ 31 := by
    rw [Nat.div_lt_iff_lt_mul (Nat.two_pow_pos k), ← pow_add]
    exact hn
  have hwrap : buf.nwrapped.toInt = (n / 2 ^ k : Nat) := by
    rw [h.nwrapped_eq, BitVec.toInt_ofNat']
    generalize n / 2 ^ k = wraps at hdiv
    exact Int.bmod_eq_of_le (by omega) (by omega)
  rw [hwrap, h.iput_eq]
  exact_mod_cast Nat.div_add_mod' n (2 ^ k)

/-- From then on they cannot reach it. -/
theorem Count.lt_iff_eq {k n : Nat} {buf : GenericIntBuf} (h : Count k buf n) :
    n < 2 ^ (31 + k) ↔ buf.nwrapped.toInt * 2 ^ k + buf.iput = n := by
  refine ⟨h.eq_of_lt, fun heq => ?_⟩
  have hbound := BitVec.toInt_lt (x := buf.nwrapped)
  have hwrap : buf.nwrapped.toInt + 1 ≤ 2 ^ 31 := by omega
  have hput : (buf.iput : Int) < 2 ^ k := by
    rw [h.iput_eq]
    exact_mod_cast Nat.mod_lt n (Nat.two_pow_pos k)
  have hlt : (n : Int) < 2 ^ 31 * 2 ^ k := by
    calc (n : Int) = buf.nwrapped.toInt * 2 ^ k + buf.iput := heq.symm
      _ < buf.nwrapped.toInt * 2 ^ k + 2 ^ k := by omega
      _ = (buf.nwrapped.toInt + 1) * 2 ^ k := (add_one_mul _ _).symm
      _ ≤ 2 ^ 31 * 2 ^ k :=
        Int.mul_le_mul_of_nonneg_right hwrap (Int.le_of_lt (Int.pow_pos (by decide)))
  rw [pow_add]
  exact_mod_cast hlt

/-- The stream ring refines the bounded queue with one-step put-back, and
its put counters count the accepted puts exactly as far as a 32-bit `nwrapped`
goes. -/
theorem ring_refines_queue (k : Nat) (hk : 2 ≤ k) (ops : List Op)
    (hdata : ∀ data, Op.put data ∈ ops → data ≠ STREAM_MFA_INVALID) :
    IsQueue k ops (ringRun k ops).1 (ringRun k ops).2 (specRun k ops).1 ∧
      (ringRun k ops).1.nwrapped.toInt * 2 ^ k + (ringRun k ops).1.iput
        ≡ (acceptedPuts (ringRun k ops).2).length [ZMOD 2 ^ (32 + k)] ∧
      ((acceptedPuts (ringRun k ops).2).length < 2 ^ (31 + k) ↔
        (ringRun k ops).1.nwrapped.toInt * 2 ^ k + (ringRun k ops).1.iput
          = (acceptedPuts (ringRun k ops).2).length) := by
  have hcount := count_ringRun (k := k) (by omega) ops
  exact ⟨isQueue_ringRun ops hdata, hcount.modEq, hcount.lt_iff_eq⟩

/-- The smallest ring, with one item put, got, put back and got again. -/
theorem ring_refines_queue_four :
    IsQueue 2 [.put 5, .get, .putBack, .get]
        (ringRun 2 [.put 5, .get, .putBack, .get]).1
        (ringRun 2 [.put 5, .get, .putBack, .get]).2
        (specRun 2 [.put 5, .get, .putBack, .get]).1 ∧
      (ringRun 2 [.put 5, .get, .putBack, .get]).1.nwrapped.toInt * 2 ^ 2
        + (ringRun 2 [.put 5, .get, .putBack, .get]).1.iput = 1 := by
  have h := ring_refines_queue 2 (by decide) [.put 5, .get, .putBack, .get]
    (by
      intro data hmem
      have : data = 5 := by simpa using hmem
      rw [this]
      decide)
  exact ⟨h.1, h.2.2.mp (by decide)⟩

/-! ## The overflow of `nwrapped` -/

/-- `n` puts, each followed by a get. -/
def alternate (n : Nat) : List Op := (List.replicate n [Op.put 1, Op.get]).flatten

/-- A ring that is emptied after each put takes every put. -/
theorem acceptedPuts_alternate {k : Nat} (hk : 2 ≤ k) (n : Nat) :
    ∀ {q : PutBackQueue UInt32}, q.queue = [] →
      (acceptedPuts (runOps (specStep k) q (alternate n)).2).length = n := by
  have hfour : 4 ≤ 2 ^ k := by
    calc 4 = 2 ^ 2 := rfl
      _ ≤ 2 ^ k := Nat.pow_le_pow_right (by decide) hk
  induction n with
  | zero =>
    intro q _
    rfl
  | succ n ih =>
    intro q hq
    have hops : alternate (n + 1) = .put 1 :: .get :: alternate n := rfl
    have hroom : ¬ q.held.length + 1 = 2 ^ k := by
      have hout := q.length_out_le
      rw [PutBackQueue.held, hq, List.append_nil]
      omega
    have hput : specStep k q (.put 1) = (q.put 1, .code 0) := by
      rw [specStep, if_neg hroom]
    have hnext : (specStep k (q.put 1) .get).1.queue = [] := by
      have hone : (q.put 1).queue = [1] := by simp [PutBackQueue.put, hq]
      rw [specStep, PutBackQueue.get_cons hone]
    rw [hops]
    simp only [runOps, hput]
    have hrest := ih hnext
    simpa [acceptedPuts, specStep] using hrest

/-- `2 ^ 33` puts wrap a ring of four slots `2 ^ 31` times.  The counter
`nwrapped` is then the least `int`, so the two put counters do not count
the accepted puts any more. -/
theorem nwrapped_overflows :
    (∀ data, Op.put data ∈ alternate (2 ^ 33) → data ≠ STREAM_MFA_INVALID) ∧
      (ringRun 2 (alternate (2 ^ 33))).1.nwrapped.toInt * 2 ^ 2
          + (ringRun 2 (alternate (2 ^ 33))).1.iput
        ≠ (acceptedPuts (ringRun 2 (alternate (2 ^ 33))).2).length := by
  refine ⟨?_, ?_⟩
  · intro data hmem
    rw [alternate, List.mem_flatten] at hmem
    obtain ⟨ops, hops, hin⟩ := hmem
    rw [(List.mem_replicate.mp hops).2] at hin
    have : data = 1 := by simpa using hin
    rw [this]
    decide
  · have hcount := count_ringRun (k := 2) (by decide) (alternate (2 ^ 33))
    have hlen : (acceptedPuts (ringRun 2 (alternate (2 ^ 33))).2).length
        = 2 ^ 33 := by
      rw [ringRun, (ring_simulates (alternate (2 ^ 33)) (rep_init zeroed)).2]
      exact acceptedPuts_alternate (by decide) (2 ^ 33) rfl
    rw [hlen]
    intro heq
    have hlt := BitVec.toInt_lt (x := (ringRun 2 (alternate (2 ^ 33))).1.nwrapped)
    have hput : (ringRun 2 (alternate (2 ^ 33))).1.iput < 2 ^ 2 := by
      rw [hcount.iput_eq]
      exact Nat.mod_lt _ (by decide)
    omega

end Acq200.StreamBuf
