import Mathlib.Data.List.Basic
import Mathlib.Data.Int.ModEq

/-!
# The stream ring of `streambuf.h`

`GenericIntBuf` is the ring that carries message frame addresses from the
interrupt handler to the bottom half.  The three indices are `int` in the
source and stay in `[0, nbuf)`, so they are natural numbers here, and
`genericIntBufInc` is the same `(ii + 1) & buffer_mask`.  The diagnostic
counter `nwrapped` is a 32-bit `int` that nothing ever resets, so it is a
`BitVec 32`.  The fields `hitide` and `qpresent` are left out: no function
reads or writes them.

The backing array `buffers` is a function from slot numbers.  A slot that
was never written holds whatever the allocation put there.
-/

namespace Acq200.StreamBuf

/-- `struct GenericIntBuf`. -/
structure GenericIntBuf where
  bufferMask : Nat
  iput : Nat
  iget : Nat
  /-- The previous get index. -/
  iputback : Nat
  iswrapped : Nat
  nwrapped : BitVec 32
  buffers : Nat → UInt32

/-- `NSTREAMBUF`, the size of the ring in `struct StreamBuf`. -/
def NSTREAMBUF : Nat := 2 ^ 7

/-- `STREAM_MFA_INVALID`. -/
def STREAM_MFA_INVALID : UInt32 := 0xFFFFFFFF

/-- The ring inside a device that `acq200_device_create` has just cleared
with `memset`. -/
def zeroed : GenericIntBuf :=
  { bufferMask := 0, iput := 0, iget := 0, iputback := 0, iswrapped := 0,
    nwrapped := 0, buffers := fun _ => 0 }

def genericIntBufInit (buf : GenericIntBuf) (nbuf : Nat) : GenericIntBuf :=
  { buf with iput := 0, iget := 0, iputback := 0, bufferMask := nbuf - 1 }

def genericIntBufInc (buf : GenericIntBuf) (ii : Nat) : Nat :=
  (ii + 1) &&& buf.bufferMask

def genericIntBufIsFull (buf : GenericIntBuf) : Bool :=
  genericIntBufInc buf buf.iput == buf.iputback

def genericIntBufIsEmpty (buf : GenericIntBuf) : Bool :=
  buf.iget == buf.iput

/-- The last two assignments of a successful put: the wrap diagnostics and
the new put index. -/
def advancePut (buf : GenericIntBuf) : GenericIntBuf :=
  let iput := genericIntBufInc buf buf.iput
  let buf :=
    if iput < buf.iput then
      { buf with iswrapped := 1, nwrapped := buf.nwrapped + 1 }
    else buf
  { buf with iput := iput }

/-- Put one word.  The answer is `0`, or `-1` when the ring is full. -/
def genericIntBufPut (buf : GenericIntBuf) (data : UInt32) :
    GenericIntBuf × Int :=
  if genericIntBufIsFull buf then (buf, -1)
  else
    (advancePut { buf with buffers := Function.update buf.buffers buf.iput data },
      0)

/-- Get one word, or `STREAM_MFA_INVALID` when the ring is empty. -/
def genericIntBufGet (buf : GenericIntBuf) : GenericIntBuf × UInt32 :=
  if genericIntBufIsEmpty buf then (buf, STREAM_MFA_INVALID)
  else
    ({ buf with iputback := buf.iget, iget := genericIntBufInc buf buf.iget },
      buf.buffers buf.iget)

/-- Put the word of the last get back on the queue. -/
def genericIntBufPutBack (buf : GenericIntBuf) : GenericIntBuf :=
  { buf with iget := buf.iputback }

/-- The loop of `genericIntBufNumEntries`.  The loop of the source has no
bound, so the answer `none` is a loop that is still running. -/
def numEntriesLoop (buf : GenericIntBuf) : Nat → Nat → Nat → Option Nat
  | 0, _, _ => none
  | fuel + 1, iget, entries =>
    if iget ≠ buf.iput then
      numEntriesLoop buf fuel (genericIntBufInc buf iget) (entries + 1)
    else some entries

/-- `genericIntBufNumEntries`, with a bound on the number of loop tests. -/
def genericIntBufNumEntries (buf : GenericIntBuf) (fuel : Nat) : Option Nat :=
  numEntriesLoop buf fuel buf.iget 0

/-! ## The stream buffer of a device -/

/-- `streamBufInit`, called once by `acq200_device_create`. -/
def streamBufInit (streamBuf : GenericIntBuf) : GenericIntBuf :=
  genericIntBufInit streamBuf NSTREAMBUF

def streamPut (streamBuf : GenericIntBuf) (data : UInt32) :
    GenericIntBuf × Int :=
  genericIntBufPut streamBuf data

def streamGet (streamBuf : GenericIntBuf) : GenericIntBuf × UInt32 :=
  genericIntBufGet streamBuf

/-! ## What each field is after each operation -/

@[simp] theorem advancePut_bufferMask (buf : GenericIntBuf) :
    (advancePut buf).bufferMask = buf.bufferMask := by
  simp only [advancePut]
  split <;> rfl

@[simp] theorem advancePut_iput (buf : GenericIntBuf) :
    (advancePut buf).iput = genericIntBufInc buf buf.iput := rfl

@[simp] theorem advancePut_iget (buf : GenericIntBuf) :
    (advancePut buf).iget = buf.iget := by
  simp only [advancePut]
  split <;> rfl

@[simp] theorem advancePut_iputback (buf : GenericIntBuf) :
    (advancePut buf).iputback = buf.iputback := by
  simp only [advancePut]
  split <;> rfl

@[simp] theorem advancePut_buffers (buf : GenericIntBuf) :
    (advancePut buf).buffers = buf.buffers := by
  simp only [advancePut]
  split <;> rfl

theorem advancePut_nwrapped (buf : GenericIntBuf) :
    (advancePut buf).nwrapped
      = if genericIntBufInc buf buf.iput < buf.iput then buf.nwrapped + 1
        else buf.nwrapped := by
  simp only [advancePut]
  split <;> rfl

/-- With a power of two as the buffer size, the masked increment is the
increment modulo the size. -/
theorem genericIntBufInc_eq {buf : GenericIntBuf} {k : Nat}
    (hmask : buf.bufferMask = 2 ^ k - 1) (ii : Nat) :
    genericIntBufInc buf ii = (ii + 1) % 2 ^ k := by
  rw [genericIntBufInc, hmask, Nat.and_two_pow_sub_one_eq_mod]

end Acq200.StreamBuf
