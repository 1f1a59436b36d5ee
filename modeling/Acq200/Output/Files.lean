import Mathlib.Algebra.BigOperators.Group.List.Basic
import Mathlib.Data.Int.ModEq
import Acq200.Lib.Run

/-!
# The output files of `htstream`

With `ACQ200_WRITEFILE` set, `htstream` hands each buffer to `fileWork`.  It
appends the buffer to the file that is open, or first goes on to the next
file when the buffer does not fit.  This module has `fileOpen` and `fileWork`
with the fields of `G_file` that they use.

A file is known by the index that is printed into its name.  It is opened
with `O_TRUNC`, so each open begins a new file, and the files of a run are
kept in the order in which they were opened.
-/

namespace Acq200.Output

open Acq200.Lib

/-! ## Data -/

/-- The widths of `int`, `long` and pointers. -/
inductive Target where
  | ilp32
  | lp64
  deriving DecidableEq

/-- A call `fileWork(index, len)`, with what the buffer holds. -/
structure Block (α : Type) where
  pbuf : α
  len : Nat
  len_lt : len < 2147483648

/-- A full DMA buffer, of `BUFLEN` bytes. -/
def fourMb : Block Unit := ⟨(), 0x400000, by decide⟩

structure OutFile (α : Type) where
  ifile : BitVec 32
  written : List (Block α)

/-- The length of the file, which is also the position of its `fd`. -/
def OutFile.size {α : Type} (file : OutFile α) : Nat := (file.written.map Block.len).sum

def OutFile.write {α : Type} (file : OutFile α) (block : Block α) : OutFile α :=
  { file with written := file.written ++ [block] }

/-- `struct FILE_INFO`.  `current` is the file of `fd`, if it is not -1, and
`closed` are the files before it.  `exited` says that `exit` was called. -/
structure FileInfo (α : Type) where
  maxfile : BitVec 32
  nfiles : BitVec 32
  oneshot : Bool
  ifile : BitVec 32
  closed : List (OutFile α)
  current : Option (OutFile α)
  exited : Bool

variable {α : Type}

/-- `G_file` after the environment has been read. -/
def FileInfo.start (maxfile nfiles : BitVec 32) (oneshot : Bool) : FileInfo α :=
  ⟨maxfile, nfiles, oneshot, 0, [], none, false⟩

/-- Every file of the run, in the order of the opens. -/
def FileInfo.files (g : FileInfo α) : List (OutFile α) := g.closed ++ g.current.toList

/-! ## fileOpen and fileWork -/

/-- `lseek(fd, 0, SEEK_CUR)` with an `off_t` of `w` bits. -/
def lseekCur (w position : Nat) : BitVec w :=
  if position < 2 ^ (w - 1) then BitVec.ofNat w position else -1

/-- `fp + len < G_file.maxfile`.  The sum is a `long`.  A `long` of 32 bits is
converted to `unsigned long` for the comparison, a `long` of 64 bits is not. -/
def fits (target : Target) (position len : Nat) (maxfile : BitVec 32) : Bool :=
  match target with
  | .ilp32 => (lseekCur 32 position + BitVec.ofNat 32 len).ult maxfile
  | .lp64 => (lseekCur 64 position + BitVec.ofNat 64 len).slt (maxfile.setWidth 64)

/-- The part of `fileOpen` that opens the next file. -/
def FileInfo.openNext (g : FileInfo α) : FileInfo α :=
  let opened := { g with current := some ⟨g.ifile, []⟩, ifile := g.ifile + 1 }
  if g.nfiles.ult (g.ifile + 1) then
    if g.oneshot then { opened with exited := true } else { opened with ifile := 0 }
  else opened

def fileOpen (target : Target) (g : FileInfo α) (len : Nat) : FileInfo α :=
  match g.current with
  | some file =>
    if fits target file.size len g.maxfile then g
    else { g with closed := g.closed ++ [file], current := none }.openNext
  | none => g.openNext

/-- `fileWork`, with opens and writes that succeed. -/
def fileWork (target : Target) (g : FileInfo α) (block : Block α) : FileInfo α :=
  let g := fileOpen target g block.len
  if g.exited then g else { g with current := g.current.map (·.write block) }

/-- One buffer, as long as the program runs. -/
def step (target : Target) (block : Block α) (g : FileInfo α) : Option (FileInfo α) :=
  if g.exited then none else some (fileWork target g block)

/-! ## What a buffer does -/

/-- The file that is open takes `len` more bytes. -/
def FileInfo.keeps (target : Target) (g : FileInfo α) (len : Nat) : Bool :=
  match g.current with
  | some file => fits target file.size len g.maxfile
  | none => false

/-- The next open takes the index past `nfiles`. -/
def FileInfo.atLast (g : FileInfo α) : Bool := g.nfiles.ult (g.ifile + 1)

/-- The buffer goes into the file that is open. -/
def FileInfo.append (g : FileInfo α) (block : Block α) : FileInfo α :=
  { g with current := g.current.map (·.write block) }

/-- The buffer goes into the next file. -/
def FileInfo.advance (g : FileInfo α) (block : Block α) : FileInfo α :=
  { g with
    closed := g.files
    current := some ⟨g.ifile, [block]⟩
    ifile := if g.atLast then 0 else g.ifile + 1 }

/-- The program ends with the next file open and empty. -/
def FileInfo.stop (g : FileInfo α) : FileInfo α :=
  { g with
    closed := g.files
    current := some ⟨g.ifile, []⟩
    ifile := g.ifile + 1
    exited := true }

variable {target : Target} {g g' : FileInfo α} {block : Block α}

theorem openNext_eq (g : FileInfo α) (h : g.exited = false) :
    (if g.openNext.exited then g.openNext
      else { g.openNext with current := g.openNext.current.map (·.write block) }) =
      if g.atLast = true ∧ g.oneshot = true
      then { g with current := some ⟨g.ifile, []⟩, ifile := g.ifile + 1, exited := true }
      else { g with
        current := some ⟨g.ifile, [block]⟩, ifile := if g.atLast then 0 else g.ifile + 1 } := by
  unfold FileInfo.openNext FileInfo.atLast
  cases hlast : g.nfiles.ult (g.ifile + 1) with
  | true =>
    cases hshot : g.oneshot with
    | true => simp
    | false => simp [h, OutFile.write]
  | false => simp [h, OutFile.write]

/-- What a buffer does. -/
theorem fileWork_eq (h : g.exited = false) :
    fileWork target g block =
      if g.keeps target block.len then g.append block
      else if g.atLast = true ∧ g.oneshot = true then g.stop
      else g.advance block := by
  unfold fileWork fileOpen FileInfo.keeps
  cases hcurrent : g.current with
  | none =>
    have hfiles : g.files = g.closed := by
      unfold FileInfo.files
      rw [hcurrent]
      exact List.append_nil _
    simp only [Bool.false_eq_true, if_false]
    rw [openNext_eq g h]
    unfold FileInfo.stop FileInfo.advance
    rw [hfiles]
  | some file =>
    have hfiles : g.files = g.closed ++ [file] := by
      unfold FileInfo.files
      rw [hcurrent]
      rfl
    by_cases hfits : fits target file.size block.len g.maxfile = true
    · simp only [hfits, if_true, h, Bool.false_eq_true, if_false]
      unfold FileInfo.append
      rw [h]
    · simp only [hfits, Bool.false_eq_true, if_false]
      rw [openNext_eq { g with closed := g.closed ++ [file], current := none } h]
      unfold FileInfo.stop FileInfo.advance
      rw [hfiles]
      rfl

/-- Either the buffer goes into the file that is open, or it goes into the next
one, or the program ends. -/
theorem step_cases (h : step target block g = some g') :
    g.exited = false ∧
      (g.keeps target block.len = true ∧ g' = g.append block ∨
        g.keeps target block.len = false ∧
          (g.atLast = true ∧ g.oneshot = true ∧ g' = g.stop ∨
            ¬ (g.atLast = true ∧ g.oneshot = true) ∧ g' = g.advance block)) := by
  unfold step at h
  cases hexited : g.exited with
  | true =>
    rw [hexited] at h
    cases h
  | false =>
    rw [hexited, if_neg Bool.false_ne_true, fileWork_eq hexited] at h
    refine ⟨rfl, ?_⟩
    cases hkeeps : g.keeps target block.len with
    | true =>
      rw [hkeeps, if_pos rfl] at h
      exact Or.inl ⟨rfl, (Option.some.inj h).symm⟩
    | false =>
      rw [hkeeps, if_neg Bool.false_ne_true] at h
      refine Or.inr ⟨rfl, ?_⟩
      by_cases hstop : g.atLast = true ∧ g.oneshot = true
      · rw [if_pos hstop] at h
        exact Or.inl ⟨hstop.1, hstop.2, (Option.some.inj h).symm⟩
      · rw [if_neg hstop] at h
        exact Or.inr ⟨hstop, (Option.some.inj h).symm⟩

theorem keeps_current (h : g.keeps target block.len = true) :
    ∃ file, g.current = some file ∧ fits target file.size block.len g.maxfile = true := by
  unfold FileInfo.keeps at h
  split at h
  · rename_i file hcurrent
    exact ⟨file, hcurrent, h⟩
  · cases h

theorem append_files {file : OutFile α} (h : g.current = some file) :
    (g.append block).files = g.closed ++ [file.write block] := by
  unfold FileInfo.files FileInfo.append
  rw [h]
  rfl

theorem advance_files : (g.advance block).files = g.files ++ [⟨g.ifile, [block]⟩] := rfl

theorem stop_files : g.stop.files = g.files ++ [⟨g.ifile, []⟩] := rfl

theorem files_of_current {file : OutFile α} (h : g.current = some file) :
    g.files = g.closed ++ [file] := by
  unfold FileInfo.files
  rw [h]
  rfl

theorem step_config (h : step target block g = some g') :
    g'.nfiles = g.nfiles ∧ g'.maxfile = g.maxfile ∧ g'.oneshot = g.oneshot := by
  obtain ⟨-, ⟨-, rfl⟩ | ⟨-, ⟨-, -, rfl⟩ | ⟨-, rfl⟩⟩⟩ := step_cases h
  · exact ⟨rfl, rfl, rfl⟩
  · exact ⟨rfl, rfl, rfl⟩
  · exact ⟨rfl, rfl, rfl⟩

/-- A file stays, and is only ever written to at its end. -/
theorem step_grows (h : step target block g = some g') :
    ∀ file ∈ g.files, ∃ more, { file with written := file.written ++ more } ∈ g'.files := by
  intro file hfile
  have hsame : ∀ files : List (OutFile α), file ∈ files →
      { file with written := file.written ++ [] } ∈ files := by
    intro files hmem
    rw [List.append_nil]
    exact hmem
  obtain ⟨-, ⟨hkeeps, rfl⟩ | ⟨-, ⟨-, -, rfl⟩ | ⟨-, rfl⟩⟩⟩ := step_cases h
  · obtain ⟨last, hcurrent, -⟩ := keeps_current hkeeps
    rw [files_of_current hcurrent] at hfile
    rw [append_files hcurrent]
    cases List.mem_append.mp hfile with
    | inl hclosed => exact ⟨[], hsame _ (List.mem_append_left _ hclosed)⟩
    | inr hlast =>
      rw [List.mem_singleton.mp hlast]
      exact ⟨[block], List.mem_append_right _ List.mem_cons_self⟩
  · exact ⟨[], hsame _ (List.mem_append_left _ hfile)⟩
  · exact ⟨[], hsame _ (List.mem_append_left _ hfile)⟩

end Acq200.Output
