import Mathlib.Data.List.Basic

/-!
# A queue whose reader may return the last item it took

`PutBackQueue α` is a first-in first-out queue together with the item that
its reader took last.  That item is either out with the reader or, after a
put-back, at the head of the queue again.  The field `taken` is the
history of the reader: every item that was taken before the last one.

`contents` is everything that was ever put, and `contents_put` with its two
companions says that only a put changes it.  A run therefore hands
the items out in the order in which they were put, with none lost and
none twice.
-/

namespace Acq200.Lib

/-- A queue, the item taken last, and whether that item is back. -/
structure PutBackQueue (α : Type) where
  /-- The items taken before the last one, in order. -/
  taken : List α
  /-- The item taken last. -/
  last : Option α
  /-- The item taken last is at the head of the queue again. -/
  isBack : Bool
  queue : List α

namespace PutBackQueue

variable {α : Type}

def empty : PutBackQueue α := ⟨[], none, true, []⟩

/-- The item that is out with the reader, as a list of at most one item. -/
def out (q : PutBackQueue α) : List α :=
  if q.isBack then [] else q.last.toList

/-- What a bounded store has to keep: the item that may come back, and the
queue. -/
def held (q : PutBackQueue α) : List α := q.out ++ q.queue

/-- Everything that was ever put, in order. -/
def contents (q : PutBackQueue α) : List α := q.taken ++ q.held

def put (q : PutBackQueue α) (x : α) : PutBackQueue α :=
  { q with queue := q.queue ++ [x] }

/-- Take the head of the queue.  An empty queue stays as it is. -/
def get (q : PutBackQueue α) : PutBackQueue α × Option α :=
  match q.queue with
  | [] => (q, none)
  | x :: rest => (⟨q.taken ++ q.out, some x, false, rest⟩, some x)

/-- Return the item taken last, unless it is back already. -/
def putBack (q : PutBackQueue α) : PutBackQueue α :=
  { q with isBack := true, queue := q.held }

/-- An item that is back is at the head of the queue. -/
def Wf (q : PutBackQueue α) : Prop :=
  q.isBack = true → ∀ x, q.last = some x → q.queue.head? = some x

@[simp] theorem held_put (q : PutBackQueue α) (x : α) :
    (q.put x).held = q.held ++ [x] :=
  (List.append_assoc q.out q.queue [x]).symm

theorem get_nil {q : PutBackQueue α} (h : q.queue = []) : q.get = (q, none) := by
  rw [get, h]

theorem get_cons {q : PutBackQueue α} {x : α} {rest : List α}
    (h : q.queue = x :: rest) :
    q.get = (⟨q.taken ++ q.out, some x, false, rest⟩, some x) := by
  rw [get, h]

/-- The reader has at most one item out. -/
theorem length_out_le (q : PutBackQueue α) : q.out.length ≤ 1 := by
  rw [out]
  split
  · exact Nat.zero_le 1
  · cases q.last <;> simp

theorem wf_empty : (empty : PutBackQueue α).Wf := by
  intro _ x h
  cases h

theorem Wf.put {q : PutBackQueue α} (h : q.Wf) (x : α) : (q.put x).Wf := by
  intro hback y hy
  have hhead : q.queue.head? = some y := h hback y hy
  simp [PutBackQueue.put, List.head?_append, hhead]

theorem Wf.get {q : PutBackQueue α} (h : q.Wf) : q.get.1.Wf := by
  cases hq : q.queue with
  | nil =>
    rw [get_nil hq]
    exact h
  | cons x rest =>
    rw [get_cons hq]
    intro hback
    cases hback

theorem Wf.putBack {q : PutBackQueue α} (h : q.Wf) : q.putBack.Wf := by
  intro _ x hx
  have hlast : q.last = some x := hx
  show (q.out ++ q.queue).head? = some x
  cases hback : q.isBack with
  | true => simp [out, hback, h hback x hlast]
  | false => simp [out, hback, hlast]

/-- Only a put changes what was ever put. -/
theorem contents_put (q : PutBackQueue α) (x : α) :
    (q.put x).contents = q.contents ++ [x] := by
  simp only [contents, held_put]
  simp [put]

theorem contents_get (q : PutBackQueue α) : q.get.1.contents = q.contents := by
  cases hq : q.queue with
  | nil => rw [get_nil hq]
  | cons x rest =>
    rw [get_cons hq]
    simp [contents, held, out, hq]

theorem contents_putBack (q : PutBackQueue α) :
    q.putBack.contents = q.contents := rfl

/-- The item taken last leads the queue after a put-back. -/
theorem head_putBack {q : PutBackQueue α} (h : q.Wf) {x : α}
    (hx : q.last = some x) : q.putBack.queue.head? = some x :=
  h.putBack rfl x hx

end PutBackQueue

end Acq200.Lib
