import Mathlib.Data.List.Induction
import Acq200.Output.Files

/-!
# How long an output file gets

`ACQ200_MAXFILE` is the maximum length of a file.  `fileOpen` takes the position
from `lseek` and goes on to the next file when the buffer would take the file to
the limit.  A file may be longer only if its first buffer is.

On a target with an `off_t` of 32 bits `lseek` answers -1 once the position is
`2 ^ 31` or more, and then a buffer seems to end at its own length less one.
`size_limit_iff` says for every run that no file gets too long exactly as long
as no buffer is handed over that crosses the limit from such a position.  So the
limit holds for every `maxfile` up to `2 ^ 31`, which is the default.
-/

namespace Acq200.Output

open Acq200.Lib

variable {α : Type}

/-- The length of the first buffer of the file. -/
def OutFile.first (file : OutFile α) : Nat := (file.written.head?.map Block.len).getD 0

/-- The file is no longer than it may be. -/
def OutFile.Within (maxfile : BitVec 32) (file : OutFile α) : Prop :=
  file.size ≤ max maxfile.toNat file.first

instance (maxfile : BitVec 32) (file : OutFile α) : Decidable (file.Within maxfile) :=
  inferInstanceAs (Decidable (file.size ≤ max maxfile.toNat file.first))

/-- The position of the file that is open. -/
def FileInfo.position (g : FileInfo α) : Nat := (g.current.map OutFile.size).getD 0

/-- The position has an `off_t`, or the buffer is empty, or it ends within the
limit. -/
def InSight (block : Block α) (g : FileInfo α) : Prop :=
  g.position < 2147483648 ∨ block.len = 0 ∨ g.position + block.len ≤ g.maxfile.toNat

instance (block : Block α) (g : FileInfo α) : Decidable (InSight block g) :=
  inferInstanceAs (Decidable (g.position < 2147483648 ∨ block.len = 0 ∨
    g.position + block.len ≤ g.maxfile.toNat))

/-! ## The test -/

theorem fits_small {position len : Nat} (maxfile : BitVec 32)
    (hposition : position < 2147483648) (hlen : len < 2147483648) :
    fits .ilp32 position len maxfile = true ↔ position + len < maxfile.toNat := by
  unfold fits lseekCur BitVec.ult
  simp only [Nat.reduceSub, Nat.reducePow, hposition, if_true, decide_eq_true_eq]
  rw [BitVec.toNat_add, BitVec.toNat_ofNat, BitVec.toNat_ofNat]
  omega

/-- From a position that has no `off_t` any buffer fits that is no longer than
the limit. -/
theorem fits_large {position len : Nat} (maxfile : BitVec 32)
    (hposition : 2147483648 ≤ position) (hlen : len < 2147483648) :
    fits .ilp32 position len maxfile = true ↔ 0 < len ∧ len ≤ maxfile.toNat := by
  have hlarge : ¬ position < 2147483648 := Nat.not_lt.mpr hposition
  have hminus : (-1 : BitVec 32).toNat = 4294967295 := rfl
  have hlt := maxfile.isLt
  unfold fits lseekCur BitVec.ult
  simp only [Nat.reduceSub, Nat.reducePow, hlarge, if_false, decide_eq_true_eq]
  rw [BitVec.toNat_add, BitVec.toNat_ofNat, hminus]
  omega

/-! ## Files -/

theorem size_write (file : OutFile α) (block : Block α) :
    (file.write block).size = file.size + block.len := by
  unfold OutFile.size OutFile.write
  simp

theorem first_append {file : OutFile α} (hsize : 0 < file.size) (more : List (Block α)) :
    OutFile.first { file with written := file.written ++ more } = file.first := by
  unfold OutFile.first
  cases hwritten : file.written with
  | nil =>
    unfold OutFile.size at hsize
    rw [hwritten] at hsize
    exact absurd hsize (Nat.lt_irrefl 0)
  | cons block rest => rfl

theorem size_append (file : OutFile α) (more : List (Block α)) :
    file.size ≤ OutFile.size { file with written := file.written ++ more } := by
  unfold OutFile.size
  simp

/-- A file that is too long stays too long. -/
theorem not_within_append {maxfile : BitVec 32} {file : OutFile α}
    (h : ¬ file.Within maxfile) (more : List (Block α)) :
    ¬ OutFile.Within maxfile { file with written := file.written ++ more } := by
  unfold OutFile.Within at h ⊢
  have hsize := size_append file more
  rw [first_append (by omega) more]
  omega

theorem within_fresh (maxfile ifile : BitVec 32) (block : Block α) :
    OutFile.Within maxfile ⟨ifile, [block]⟩ :=
  Nat.le_max_right _ _

theorem within_empty (maxfile ifile : BitVec 32) :
    OutFile.Within maxfile (⟨ifile, []⟩ : OutFile α) :=
  Nat.zero_le _

theorem first_lt (file : OutFile α) : file.first < 2147483648 := by
  unfold OutFile.first
  cases file.written with
  | nil => exact Nat.succ_pos _
  | cons block rest => exact block.len_lt

/-! ## Steps -/

/-- No file is too long. -/
def Limited (g : FileInfo α) : Prop := ∀ file ∈ g.files, file.Within g.maxfile

/-- Some file is too long. -/
def Overgrown (g : FileInfo α) : Prop := ∃ file ∈ g.files, ¬ file.Within g.maxfile

section Steps

variable {g g' : FileInfo α} {block : Block α}

theorem position_of_current {file : OutFile α} (h : g.current = some file) :
    g.position = file.size := by
  unfold FileInfo.position
  rw [h]
  rfl

theorem Overgrown.step {target : Target} (h : Overgrown g)
    (hstep : step target block g = some g') : Overgrown g' := by
  obtain ⟨file, hfile, hlong⟩ := h
  obtain ⟨more, hmore⟩ := step_grows hstep file hfile
  refine ⟨_, hmore, ?_⟩
  rw [(step_config hstep).2.1]
  exact not_within_append hlong more

theorem Limited.step (h : Limited g) (hok : InSight block g)
    (hstep : step .ilp32 block g = some g') : Limited g' := by
  have hmaxfile := (step_config hstep).2.1
  have hlen := block.len_lt
  unfold Limited
  rw [hmaxfile]
  obtain ⟨-, ⟨hkeeps, rfl⟩ | ⟨-, ⟨-, -, rfl⟩ | ⟨-, rfl⟩⟩⟩ := step_cases hstep
  · obtain ⟨last, hcurrent, hfits⟩ := keeps_current hkeeps
    have hfiles := files_of_current hcurrent
    have hposition := position_of_current hcurrent
    unfold Limited at h
    rw [hfiles, List.forall_mem_append] at h
    rw [append_files hcurrent, List.forall_mem_append]
    refine ⟨h.1, List.forall_mem_singleton.mpr ?_⟩
    unfold OutFile.Within
    rw [size_write]
    have hend : last.size + block.len ≤ g.maxfile.toNat := by
      unfold InSight at hok
      rw [hposition] at hok
      by_cases hsmall : last.size < 2147483648
      · exact Nat.le_of_lt ((fits_small g.maxfile hsmall hlen).mp hfits)
      · have hpos := ((fits_large g.maxfile (Nat.not_lt.mp hsmall) hlen).mp hfits).1
        omega
    omega
  · rw [stop_files, List.forall_mem_append]
    exact ⟨h, List.forall_mem_singleton.mpr (within_empty g.maxfile g.ifile)⟩
  · rw [advance_files, List.forall_mem_append]
    exact ⟨h, List.forall_mem_singleton.mpr (within_fresh g.maxfile g.ifile block)⟩

/-- A buffer that crosses the limit from a position without an `off_t` goes into
the file that is open. -/
theorem overgrown_of_break (h : Limited g) (hbreak : ¬ InSight block g)
    (hstep : step .ilp32 block g = some g') : Overgrown g' := by
  have hlen := block.len_lt
  unfold InSight at hbreak
  cases hcurrent : g.current with
  | none =>
    have hposition : g.position = 0 := by
      unfold FileInfo.position
      rw [hcurrent]
      rfl
    omega
  | some last =>
    rw [position_of_current hcurrent] at hbreak
    have hmem : last ∈ g.files := by
      rw [files_of_current hcurrent]
      exact List.mem_append_right _ List.mem_cons_self
    have hwithin : last.size ≤ max g.maxfile.toNat last.first := h last hmem
    have hfirst := first_lt last
    have hkeeps : g.keeps .ilp32 block.len = true := by
      unfold FileInfo.keeps
      rw [hcurrent]
      exact (fits_large g.maxfile (by omega) hlen).mpr ⟨by omega, by omega⟩
    obtain ⟨-, ⟨-, rfl⟩ | ⟨hnot, -⟩⟩ := step_cases hstep
    · refine ⟨last.write block, ?_, ?_⟩
      · rw [append_files hcurrent]
        exact List.mem_append_right _ List.mem_cons_self
      · have hsame : (last.write block).first = last.first :=
          first_append (by omega) [block]
        show ¬ (last.write block).size ≤ max g.maxfile.toNat (last.write block).first
        rw [size_write, hsame]
        omega
    · rw [hkeeps] at hnot
      cases hnot

end Steps

/-! ## Every run -/

/-- No file of a run grows beyond the limit and its first buffer exactly when no
buffer crosses the limit from a position that has no `off_t`. -/
theorem size_limit_iff (maxfile nfiles : BitVec 32) (oneshot : Bool)
    (blocks : List (Block α)) (s : FileInfo α)
    (hrun : runFrom (step .ilp32) blocks (.start maxfile nfiles oneshot) = some s) :
    (∀ file ∈ s.files, file.size ≤ max maxfile.toNat file.first) ↔
      RunMeets (step .ilp32) InSight blocks (.start maxfile nfiles oneshot) := by
  have hmaxfile : s.maxfile = maxfile :=
    runFrom_inv₂ (fun _ _ _ h hstep => (step_config hstep).2.1.trans h) rfl hrun
  have hstart : Limited (FileInfo.start maxfile nfiles oneshot : FileInfo α) :=
    fun file hfile => absurd hfile List.not_mem_nil
  rcases runMeets_or_trapped (fun _ _ _ h hok hs => h.step hok hs)
      (fun _ _ _ h hbreak hs => overgrown_of_break h hbreak hs)
      (fun _ _ _ h hs => h.step hs) hstart hrun with ⟨hmeets, hend⟩ | ⟨hbroken, hend⟩
  · refine iff_of_true ?_ hmeets
    rw [← hmaxfile]
    exact hend
  · refine iff_of_false (fun hle => ?_) hbroken
    obtain ⟨file, hfile, hlong⟩ := hend
    rw [hmaxfile] at hlong
    exact hlong (hle file hfile)

/-- Below a limit of `2 ^ 31` the position always has an `off_t`. -/
theorem position_lt_step {g g' : FileInfo α} {block : Block α}
    (h : g.maxfile.toNat ≤ 2147483648 ∧ g.position < 2147483648)
    (hstep : step .ilp32 block g = some g') :
    g'.maxfile.toNat ≤ 2147483648 ∧ g'.position < 2147483648 := by
  obtain ⟨hmaxfile, hposition⟩ := h
  refine ⟨(step_config hstep).2.1 ▸ hmaxfile, ?_⟩
  obtain ⟨-, ⟨hkeeps, rfl⟩ | ⟨-, ⟨-, -, rfl⟩ | ⟨-, rfl⟩⟩⟩ := step_cases hstep
  · obtain ⟨last, hcurrent, hfits⟩ := keeps_current hkeeps
    have hnext : (g.append block).current = some (last.write block) := by
      unfold FileInfo.append
      rw [hcurrent]
      rfl
    rw [position_of_current hcurrent] at hposition
    rw [position_of_current hnext, size_write]
    have hend := (fits_small g.maxfile hposition block.len_lt).mp hfits
    omega
  · exact Nat.succ_pos _
  · show block.len + 0 < 2147483648
    exact block.len_lt

/-- Up to the default limit every run is within it. -/
theorem inSight_of_le {maxfile nfiles : BitVec 32} {oneshot : Bool}
    (hdefault : maxfile.toNat ≤ 2147483648) (blocks : List (Block α)) :
    RunMeets (step .ilp32) InSight blocks (.start maxfile nfiles oneshot) := by
  have hall : RunMeets (step .ilp32) (fun _ _ => True) blocks
      (.start maxfile nfiles oneshot) := runMeets_of_forall (fun _ _ _ => trivial) _
  exact runMeets_of_inv (fun _ _ _ h _ hstep => position_lt_step h hstep)
    (fun _ _ h _ => Or.inl h.2) ⟨hdefault, Nat.succ_pos _⟩ hall

/-- Two buffers with a limit of 6 MB go into two files. -/
theorem two_buffers_within :
    (OutFile.mk 0#32 [fourMb]).Within 0x600000#32
      ∧ (OutFile.mk 1#32 [fourMb]).Within 0x600000#32 := by
  have hall : ∀ file ∈ [OutFile.mk 0#32 [fourMb], OutFile.mk 1#32 [fourMb]],
      file.size ≤ max (0x600000#32).toNat file.first := by
    refine (size_limit_iff 0x600000#32 10000#32 false [fourMb, fourMb] _ rfl).mpr ?_
    decide
  exact ⟨hall _ List.mem_cons_self, hall _ (List.mem_cons_of_mem _ List.mem_cons_self)⟩

section Overgrown

/-- `k` full buffers in the first file, with a limit of 2 GB and one byte. -/
def fullBuffers (k : Nat) : FileInfo Unit :=
  ⟨0x80000001#32, 10000#32, false, 1, [], some ⟨0, List.replicate k fourMb⟩, false⟩

theorem fullBuffers_size (k : Nat) :
    OutFile.size ⟨0, List.replicate k fourMb⟩ = k * 0x400000 := by
  unfold OutFile.size
  rw [List.map_replicate, List.sum_replicate_nat]
  rfl

/-- After no more than 512 full buffers there is room for another one. -/
theorem fits_full {k : Nat} (hk : k ≤ 512) :
    fits .ilp32 (k * 4194304) 4194304 0x80000001#32 = true := by
  have hlen : 4194304 < 2147483648 := by decide
  by_cases hsmall : k * 4194304 < 2147483648
  · have hless : k ≤ 511 := by omega
    apply (fits_small 0x80000001#32 hsmall hlen).mpr
    show k * 4194304 + 4194304 < 2147483649
    clear hsmall
    omega
  · have hlarge : 2147483648 ≤ k * 4194304 := by omega
    apply (fits_large 0x80000001#32 hlarge hlen).mpr
    rw [show (0x80000001#32).toNat = 2147483649 from rfl]
    omega

/-- The file takes every one of the first 513 buffers. -/
theorem fullBuffers_run {k : Nat} (hk : k ≤ 512) :
    runFrom (step .ilp32) (List.replicate (k + 1) fourMb)
      (.start 0x80000001#32 10000#32 false) = some (fullBuffers (k + 1)) := by
  induction k with
  | zero => rfl
  | succ k ih =>
    have hkeeps : (fullBuffers (k + 1)).keeps .ilp32 fourMb.len = true := by
      show fits .ilp32 (OutFile.size ⟨0, List.replicate (k + 1) fourMb⟩) fourMb.len
        0x80000001#32 = true
      rw [fullBuffers_size]
      exact fits_full hk
    have happend : (fullBuffers (k + 1)).append fourMb = fullBuffers (k + 1 + 1) := by
      unfold fullBuffers
      rw [List.replicate_succ' (n := k + 1)]
      rfl
    have hstep : step .ilp32 fourMb (fullBuffers (k + 1)) = some (fullBuffers (k + 1 + 1)) := by
      unfold step
      rw [show (fullBuffers (k + 1)).exited = false from rfl, if_neg Bool.false_ne_true,
        fileWork_eq rfl, hkeeps, if_pos rfl, happend]
    rw [List.replicate_succ', runFrom_append, ih (by omega), Option.bind_some, runFrom, hstep]
    rfl

/-- With a limit of 2 GB and one byte the 513th buffer of 4 MB still goes into the
first file, which is then longer by 4 MB less one byte than it may be. -/
theorem grows_past_limit :
    ∃ s, runFrom (step .ilp32) (List.replicate 513 fourMb)
        (.start 0x80000001#32 10000#32 false) = some s ∧
      ¬ ∀ file ∈ s.files, file.size ≤ max (0x80000001#32).toNat file.first := by
  refine ⟨fullBuffers 513, fullBuffers_run (Nat.le_refl 512), fun h => ?_⟩
  have hle := h ⟨0, List.replicate 513 fourMb⟩ List.mem_cons_self
  rw [fullBuffers_size] at hle
  exact absurd hle (by decide)

end Overgrown

end Acq200.Output
