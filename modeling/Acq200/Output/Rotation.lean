import Mathlib.Data.List.Induction
import Acq200.Output.Files

/-!
# How many files are written before the first one is reopened

`ACQ200_NFILES` is the number of files to create.  `Rotation` says what that
means: the files are numbered round and round from 0 to `n - 1`, or, with
`ACQ200_ONESHOT`, the program stops at the first buffer that does not fit into
the last of the `n` files.

`fileOpen` counts the index up after the open and compares it with `>`, so it
opens one file more.  `rotates_iff` says for every run that `htstream` does what
`Rotation` does exactly as long as it has no file to open with all `n` in use.
-/

namespace Acq200.Output

open Acq200.Lib

variable {α : Type}

/-! ## The rotation -/

/-- The files of a rotation in the order of the opens.  The buffers go into the
last one. -/
structure Rotation (α : Type) where
  files : List (OutFile α)
  exited : Bool

namespace Rotation

variable {fits : Nat → Nat → Bool} {n : Nat} {oneshot : Bool} {r : Rotation α}
  {block : Block α} {blocks : List (Block α)}

def start : Rotation α := ⟨[], false⟩

/-- The next of the `n` files, with the buffer in it. -/
def next (n : Nat) (r : Rotation α) (block : Block α) : Rotation α :=
  { r with files := r.files ++ [⟨BitVec.ofNat 32 (r.files.length % n), [block]⟩] }

/-- A buffer goes into the file that is open if it fits, and else into the next
of the `n` files.  A oneshot rotation has no file after the last one. -/
def hand (fits : Nat → Nat → Bool) (n : Nat) (oneshot : Bool) (r : Rotation α)
    (block : Block α) : Rotation α :=
  if r.exited then r
  else
    match r.files.getLast? with
    | none => r.next n block
    | some file =>
      if fits file.size block.len then
        { r with files := r.files.dropLast ++ [file.write block] }
      else if oneshot ∧ r.files.length = n then { r with exited := true }
      else r.next n block

theorem hand_append {file : OutFile α} (hexited : r.exited = false)
    (hlast : r.files.getLast? = some file) (hfits : fits file.size block.len = true) :
    r.hand fits n oneshot block = ⟨r.files.dropLast ++ [file.write block], false⟩ := by
  unfold hand
  rw [hexited, if_neg Bool.false_ne_true, hlast]
  simp only [hfits, if_true]

theorem hand_next (hexited : r.exited = false)
    (hfits : ∀ file, r.files.getLast? = some file → fits file.size block.len = false)
    (hroom : r.files.length ≠ n) : r.hand fits n oneshot block = r.next n block := by
  unfold hand
  rw [hexited, if_neg Bool.false_ne_true]
  split
  · rfl
  · rename_i file hlast
    rw [if_neg (by rw [hfits file hlast]; exact Bool.false_ne_true),
      if_neg (fun hfull => hroom hfull.2)]

/-- The rotation after the buffers were handed to it one after another. -/
def run (fits : Nat → Nat → Bool) (n : Nat) (oneshot : Bool) (blocks : List (Block α)) :
    Rotation α :=
  blocks.foldl (hand fits n oneshot) start

/-- What a rotation is for.  The `k`-th file has index `k % n`, a oneshot
rotation has no more than `n` files, and the files hold the buffers in order, up
to the one that did not fit when the rotation ended. -/
structure Meets (fits : Nat → Nat → Bool) (n : Nat) (oneshot : Bool)
    (blocks : List (Block α)) (r : Rotation α) : Prop where
  indices : r.files.map (fun file => file.ifile.toNat) =
    (List.range r.files.length).map (· % n)
  oneshot_le : oneshot = true → r.files.length ≤ n
  written : r.exited = false → r.files.flatMap OutFile.written = blocks
  exits : r.exited = true → oneshot = true ∧ r.files.length = n ∧
    ∃ earlier block later file, blocks = earlier ++ block :: later ∧
      r.files.flatMap OutFile.written = earlier ∧
      r.files.getLast? = some file ∧ fits file.size block.len = false

theorem meets_start : Meets fits n oneshot [] (start : Rotation α) where
  indices := rfl
  oneshot_le := fun _ => Nat.zero_le n
  written := fun _ => rfl
  exits := fun h => absurd h Bool.false_ne_true

theorem Meets.next (h : Meets fits n oneshot blocks r) (hpos : 0 < n) (hn : n ≤ 2 ^ 32)
    (hexited : r.exited = false) (hroom : oneshot = true → r.files.length ≠ n) :
    Meets fits n oneshot (blocks ++ [block]) (r.next n block) := by
  have hindex : (BitVec.ofNat 32 (r.files.length % n)).toNat = r.files.length % n := by
    have hlt := Nat.mod_lt r.files.length hpos
    rw [BitVec.toNat_ofNat, Nat.mod_eq_of_lt (by omega)]
  constructor
  · show (r.files ++ [_]).map _ = (List.range (r.files ++ [_]).length).map _
    rw [List.map_append, h.indices, List.length_append, List.length_singleton,
      List.range_succ, List.map_append, List.map_singleton, List.map_singleton, hindex]
  · intro hshot
    have hle := h.oneshot_le hshot
    have hne := hroom hshot
    show (r.files ++ [_]).length ≤ n
    rw [List.length_append, List.length_singleton]
    omega
  · intro _
    show (r.files ++ [_]).flatMap _ = _
    rw [List.flatMap_append, h.written hexited, List.flatMap_singleton]
  · intro hx
    rw [show (r.next n block).exited = r.exited from rfl, hexited] at hx
    exact absurd hx Bool.false_ne_true

theorem Meets.append {before : List (OutFile α)} {file : OutFile α}
    (h : Meets fits n oneshot blocks r) (hexited : r.exited = false)
    (hfiles : r.files = before ++ [file]) :
    Meets fits n oneshot (blocks ++ [block])
      ⟨before ++ [file.write block], false⟩ := by
  have hlength : (before ++ [file.write block]).length = r.files.length := by
    rw [hfiles, List.length_append, List.length_append]
    rfl
  constructor
  · show (before ++ [file.write block]).map _ = (List.range (before ++ [_]).length).map _
    rw [hlength, ← h.indices, hfiles, List.map_append, List.map_append]
    rfl
  · intro hshot
    exact Nat.le_trans (Nat.le_of_eq hlength) (h.oneshot_le hshot)
  · intro _
    have hwritten := h.written hexited
    rw [hfiles, List.flatMap_append, List.flatMap_singleton] at hwritten
    show (before ++ [file.write block]).flatMap _ = _
    rw [List.flatMap_append, List.flatMap_singleton, ← hwritten, List.append_assoc]
    rfl
  · intro hx
    exact absurd hx Bool.false_ne_true

/-- One buffer. -/
theorem Meets.hand (h : Meets fits n oneshot blocks r) (hpos : 0 < n) (hn : n ≤ 2 ^ 32) :
    Meets fits n oneshot (blocks ++ [block]) (r.hand fits n oneshot block) := by
  unfold Rotation.hand
  cases hexited : r.exited with
  | true =>
    rw [if_pos rfl]
    obtain ⟨hshot, hlength, earlier, last, later, file, hblocks, hrest⟩ := h.exits hexited
    refine ⟨h.indices, h.oneshot_le, fun hx => ?_, fun _ => ?_⟩
    · rw [hexited] at hx
      cases hx
    · refine ⟨hshot, hlength, earlier, last, later ++ [block], file, ?_, hrest⟩
      rw [hblocks, List.append_assoc, List.cons_append]
  | false =>
    rw [if_neg Bool.false_ne_true]
    split
    · rename_i hnone
      have hempty : r.files = [] := List.getLast?_eq_none_iff.mp hnone
      refine h.next hpos hn hexited (fun _ => ?_)
      rw [hempty, List.length_nil]
      omega
    · rename_i file hlast
      obtain ⟨before, hfiles⟩ := List.getLast?_eq_some_iff.mp hlast
      split
      · rw [hfiles, List.dropLast_concat]
        exact h.append hexited hfiles
      · rename_i hfits
        split
        · rename_i hstop
          refine ⟨h.indices, h.oneshot_le, fun hx => Bool.noConfusion hx, fun _ => ?_⟩
          refine ⟨hstop.1, hstop.2, blocks, block, [], file, rfl, h.written hexited, hlast, ?_⟩
          exact (Bool.not_eq_true _).mp hfits
        · rename_i hgo
          exact h.next hpos hn hexited (fun hshot hlength => hgo ⟨hshot, hlength⟩)

theorem run_meets (hpos : 0 < n) (hn : n ≤ 2 ^ 32) (blocks : List (Block α)) :
    Meets fits n oneshot blocks (run fits n oneshot blocks) := by
  induction blocks using List.reverseRecOn with
  | nil => exact meets_start
  | append_singleton blocks block ih =>
    unfold run
    rw [List.foldl_append]
    exact ih.hand hpos hn

/-- Every index of a rotation is below the number of files. -/
theorem Meets.index_lt (h : Meets fits n oneshot blocks r) (hpos : 0 < n) :
    ∀ file ∈ r.files, file.ifile.toNat < n := by
  intro file hfile
  have hmem : file.ifile.toNat ∈ (List.range r.files.length).map (· % n) := by
    rw [← h.indices]
    exact List.mem_map_of_mem hfile
  obtain ⟨k, -, hk⟩ := List.mem_map.mp hmem
  rw [← hk]
  exact Nat.mod_lt k hpos

end Rotation

/-! ## htstream -/

/-- The step opens no file with all `nfiles` in use. -/
def InCycle (target : Target) (block : Block α) (g : FileInfo α) : Prop :=
  g.keeps target block.len = false → g.ifile ≠ g.nfiles

instance (target : Target) (block : Block α) (g : FileInfo α) :
    Decidable (InCycle target block g) :=
  inferInstanceAs (Decidable (g.keeps target block.len = false → g.ifile ≠ g.nfiles))

/-- The index is the number of files that were opened, and these are those of
the rotation. -/
structure FirstCycle (g : FileInfo α) (r : Rotation α) : Prop where
  files : g.files = r.files
  running : g.exited = false
  rotating : r.exited = false
  unopened : g.current = none → g.closed = []
  ifile : g.ifile.toNat = g.files.length
  ifile_le : g.ifile.toNat ≤ g.nfiles.toNat

/-- A file with the index `nfiles` has been opened. -/
def OneTooMany (g : FileInfo α) : Prop := ∃ file ∈ g.files, file.ifile = g.nfiles

section Steps

variable {target : Target} {g g' : FileInfo α} {r : Rotation α} {block : Block α}

theorem OneTooMany.step (h : OneTooMany g) (hstep : step target block g = some g') :
    OneTooMany g' := by
  obtain ⟨file, hfile, hindex⟩ := h
  obtain ⟨more, hmore⟩ := step_grows hstep file hfile
  exact ⟨_, hmore, hindex.trans (step_config hstep).1.symm⟩

theorem FirstCycle.getLast (h : FirstCycle g r) : r.files.getLast? = g.current := by
  rw [← h.files]
  cases hcurrent : g.current with
  | some file => rw [files_of_current hcurrent, List.getLast?_concat]
  | none =>
    unfold FileInfo.files
    rw [h.unopened hcurrent, hcurrent]
    rfl

theorem FirstCycle.append {file : OutFile α} (h : FirstCycle g r)
    (hcurrent : g.current = some file) :
    FirstCycle (g.append block) ⟨r.files.dropLast ++ [file.write block], false⟩ := by
  have hfiles := files_of_current hcurrent
  constructor
  · show _ = r.files.dropLast ++ [file.write block]
    rw [append_files hcurrent, ← h.files, hfiles, List.dropLast_concat]
  · exact h.running
  · rfl
  · intro hnone
    unfold FileInfo.append at hnone
    rw [hcurrent] at hnone
    cases hnone
  · show g.ifile.toNat = (g.append block).files.length
    rw [append_files hcurrent, h.ifile, hfiles, List.length_append, List.length_append]
    rfl
  · exact h.ifile_le

theorem FirstCycle.advance (h : FirstCycle g r) (hlt : g.ifile.toNat < g.nfiles.toNat)
    (block : Block α) :
    g.atLast = false ∧ FirstCycle (g.advance block) (r.next g.nfiles.toNat block) := by
  have hsucc : (g.ifile + 1).toNat = g.ifile.toNat + 1 := by
    have hnfiles := g.nfiles.isLt
    rw [BitVec.toNat_add, show (1 : BitVec 32).toNat = 1 from rfl,
      Nat.mod_eq_of_lt (by omega)]
  have hroom : g.atLast = false := by
    unfold FileInfo.atLast BitVec.ult
    rw [hsucc]
    exact decide_eq_false (by omega)
  have hifile : (g.advance block).ifile = g.ifile + 1 := by
    unfold FileInfo.advance
    rw [hroom]
    rfl
  have hindex : BitVec.ofNat 32 (r.files.length % g.nfiles.toNat) = g.ifile := by
    rw [← h.files, ← h.ifile, Nat.mod_eq_of_lt hlt, BitVec.ofNat_toNat, BitVec.setWidth_eq]
  refine ⟨hroom, ?_, h.running, h.rotating, fun hnone => absurd hnone (Option.some_ne_none _),
    ?_, ?_⟩
  · show (g.advance block).files = r.files ++ [_]
    rw [advance_files, h.files, hindex]
  · rw [hifile, hsucc, advance_files, List.length_append, h.ifile]
    rfl
  · rw [hifile, hsucc]
    exact hlt

/-- Before the end of the first cycle a buffer does what it does in a
rotation. -/
theorem FirstCycle.step (h : FirstCycle g r) (hok : InCycle target block g)
    (hstep : step target block g = some g') :
    FirstCycle g' (r.hand (fun position len => fits target position len g.maxfile)
      g.nfiles.toNat g.oneshot block) := by
  have hlast := h.getLast
  obtain ⟨-, ⟨hkeeps, rfl⟩ | ⟨hkeeps, hnext⟩⟩ := step_cases hstep
  · obtain ⟨file, hcurrent, hfits⟩ := keeps_current hkeeps
    rw [Rotation.hand_append h.rotating (hlast.trans hcurrent) hfits]
    exact h.append hcurrent
  · have hlt : g.ifile.toNat < g.nfiles.toNat := by
      have hne : g.ifile.toNat ≠ g.nfiles.toNat :=
        fun heq => hok hkeeps (BitVec.eq_of_toNat_eq heq)
      have hle := h.ifile_le
      omega
    obtain ⟨hroom, hfirst⟩ := h.advance hlt block
    rw [Rotation.hand_next h.rotating]
    · rcases hnext with ⟨hatLast, -⟩ | ⟨-, rfl⟩
      · rw [hroom] at hatLast
        cases hatLast
      · exact hfirst
    · intro file hfile
      unfold FileInfo.keeps at hkeeps
      rw [← hlast, hfile] at hkeeps
      exact hkeeps
    · rw [← h.files, ← h.ifile]
      omega

/-- With all `nfiles` in use the next open is one too many. -/
theorem oneTooMany_of_break (hbreak : ¬ InCycle target block g)
    (hstep : step target block g = some g') : OneTooMany g' := by
  obtain ⟨hkeeps, hifile⟩ := Classical.not_imp.mp hbreak
  have hlast : g.ifile = g.nfiles := Classical.not_not.mp hifile
  obtain ⟨-, ⟨hkept, -⟩ | ⟨-, ⟨-, -, rfl⟩ | ⟨-, rfl⟩⟩⟩ := step_cases hstep
  · rw [hkeeps] at hkept
    cases hkept
  · exact ⟨_, List.mem_append_right _ List.mem_cons_self, hlast⟩
  · exact ⟨_, List.mem_append_right _ List.mem_cons_self, hlast⟩

end Steps

/-! ## Every run -/

/-- The files of the run are those of the rotation, and the program ends when
it does. -/
structure Rotates (g : FileInfo α) (r : Rotation α) : Prop where
  files : g.files = r.files
  exited : g.exited = r.exited

theorem FirstCycle.rotates {g : FileInfo α} {r : Rotation α} (h : FirstCycle g r) :
    Rotates g r := ⟨h.files, h.running.trans h.rotating.symm⟩

/-- The run lemma. -/
theorem FirstCycle.run {target : Target} {g s : FileInfo α} {r : Rotation α}
    {blocks : List (Block α)} (h : FirstCycle g r)
    (hrun : runFrom (Output.step target) blocks g = some s) :
    RunMeets (Output.step target) (InCycle target) blocks g ∧
        FirstCycle s (blocks.foldl (Rotation.hand
          (fun position len => fits target position len g.maxfile) g.nfiles.toNat
          g.oneshot) r) ∨
      ¬ RunMeets (Output.step target) (InCycle target) blocks g ∧ OneTooMany s := by
  induction blocks generalizing g r with
  | nil =>
    obtain rfl : g = s := Option.some.inj hrun
    exact Or.inl ⟨trivial, h⟩
  | cons block blocks ih =>
    obtain ⟨g', hstep, hrest⟩ := runFrom_cons.mp hrun
    by_cases hok : InCycle target block g
    · obtain ⟨hnfiles, hmaxfile, honeshot⟩ := step_config hstep
      have hfirst := h.step hok hstep
      rw [List.foldl_cons]
      rw [← hnfiles, ← hmaxfile, ← honeshot] at hfirst ⊢
      rcases ih hfirst hrest with ⟨hmeets, hend⟩ | ⟨hbroken, hend⟩
      · refine Or.inl ⟨⟨hok, fun g₁ hg₁ => ?_⟩, hend⟩
        cases hstep.symm.trans hg₁
        exact hmeets
      · exact Or.inr ⟨fun hmeets => hbroken (hmeets.2 g' hstep), hend⟩
    · refine Or.inr ⟨fun hmeets => hok hmeets.1, ?_⟩
      exact runFrom_inv₂ (fun _ _ _ htoo hs => htoo.step hs)
        (oneTooMany_of_break hok hstep) hrest

theorem firstCycle_start (maxfile nfiles : BitVec 32) (oneshot : Bool) :
    FirstCycle (FileInfo.start maxfile nfiles oneshot : FileInfo α) Rotation.start where
  files := rfl
  running := rfl
  rotating := rfl
  unopened := fun _ => rfl
  ifile := rfl
  ifile_le := Nat.zero_le _

/-- The rotation through `n` files, and when `htstream` does it. -/
theorem rotates_iff (target : Target) (maxfile nfiles : BitVec 32) (oneshot : Bool)
    (hpos : 0 < nfiles.toNat) (blocks : List (Block α)) (s : FileInfo α)
    (hrun : runFrom (step target) blocks (.start maxfile nfiles oneshot) = some s) :
    let fits := fun position len => fits target position len maxfile
    let r := Rotation.run fits nfiles.toNat oneshot blocks
    r.Meets fits nfiles.toNat oneshot blocks ∧
      (Rotates s r ↔
        RunMeets (step target) (InCycle target) blocks (.start maxfile nfiles oneshot)) := by
  intro fits r
  have hmeets : r.Meets fits nfiles.toNat oneshot blocks :=
    Rotation.run_meets hpos (Nat.le_of_lt nfiles.isLt) blocks
  refine ⟨hmeets, ?_⟩
  rcases (firstCycle_start maxfile nfiles oneshot).run hrun with ⟨hok, hend⟩ | ⟨hbroken, hmany⟩
  · exact iff_of_true hend.rotates hok
  · refine iff_of_false (fun hrot => ?_) hbroken
    have hnfiles : s.nfiles = nfiles :=
      runFrom_inv₂ (fun _ _ _ h hstep => (step_config hstep).1.trans h) rfl hrun
    obtain ⟨file, hfile, hindex⟩ := hmany
    have hlt := hmeets.index_lt hpos file (hrot.files ▸ hfile)
    rw [hindex, hnfiles] at hlt
    exact Nat.lt_irrefl _ hlt

/-- Two files of 4 MB out of 3. -/
theorem two_of_three_files :
    Rotates ⟨0x400000#32, 3#32, false, 2#32, [⟨0#32, [fourMb]⟩], some ⟨1#32, [fourMb]⟩, false⟩
      (Rotation.run (fun position len => fits .ilp32 position len 0x400000#32) 3 false
        [fourMb, fourMb]) := by
  refine (rotates_iff .ilp32 0x400000#32 3#32 false (by decide) [fourMb, fourMb] _ rfl).2.mpr ?_
  decide

/-- With one file to write, the second buffer goes to a second file. -/
theorem second_of_one_file :
    ∃ s, runFrom (step .ilp32) [fourMb, fourMb] (.start 0x400000#32 1#32 false) = some s ∧
      s.files.map OutFile.ifile = [0#32, 1#32] ∧
      ¬ Rotates s (Rotation.run (fun position len => fits .ilp32 position len 0x400000#32) 1
        false [fourMb, fourMb]) := by
  refine ⟨_, rfl, rfl, fun h => ?_⟩
  have hindices := congrArg (List.map OutFile.ifile) h.files
  exact absurd hindices (by decide)

end Acq200.Output
