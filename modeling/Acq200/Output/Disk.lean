import Mathlib.Data.List.Nodup
import Acq200.Output.Files

/-!
# What is on the disk

An open with an index that was used before begins that file anew, so a long
run of `htstream` leaves only some of the data on the disk.  `fileOpen` goes
round the indices from 0 to `nfiles`, which are `nfiles + 1` files.

`disk_holds_newest` proves for every run that the files on the disk are the
last `nfiles + 1` that were opened, each under an index of its own.  Read in
the order of the opens they are the end of the data, with nothing missing in
between.
-/

namespace Acq200.Output

open Acq200.Lib

variable {α : Type}

/-! ## The disk -/

/-- What the file of each index holds, if there is one. -/
abbrev Disk (α : Type) := BitVec 32 → Option (List (Block α))

def Disk.empty : Disk α := fun _ => none

/-- `open` with `O_CREAT|O_TRUNC`. -/
def Disk.create (disk : Disk α) (ifile : BitVec 32) : Disk α :=
  fun j => if j = ifile then some [] else disk j

/-- `write` at the end of a file. -/
def Disk.write (disk : Disk α) (ifile : BitVec 32) (block : Block α) : Disk α :=
  fun j => if j = ifile then (disk j).map (· ++ [block]) else disk j

/-- The `open` in `fileOpen`. -/
def diskOpen (target : Target) (g : FileInfo α) (len : Nat) (disk : Disk α) : Disk α :=
  match g.current with
  | some file =>
    if fits target file.size len g.maxfile then disk else disk.create g.ifile
  | none => disk.create g.ifile

/-- The `open` and the `write` in `fileWork`. -/
def diskWork (target : Target) (g : FileInfo α) (block : Block α) (disk : Disk α) : Disk α :=
  let disk := diskOpen target g block.len disk
  let g := fileOpen target g block.len
  if g.exited then disk
  else
    match g.current with
    | some file => disk.write file.ifile block
    | none => disk

/-- The program with its disk. -/
structure Recording (α : Type) where
  info : FileInfo α
  disk : Disk α

/-- One buffer, as long as the program runs. -/
def Recording.step (target : Target) (block : Block α) (r : Recording α) :
    Option (Recording α) :=
  (Output.step target block r.info).map fun info => ⟨info, diskWork target r.info block r.disk⟩

/-- Before the first buffer. -/
def Recording.start (maxfile nfiles : BitVec 32) (oneshot : Bool) : Recording α :=
  ⟨.start maxfile nfiles oneshot, .empty⟩

/-- The number of indices in use. -/
def FileInfo.period (g : FileInfo α) : Nat := g.nfiles.toNat + 1

/-- The files that were opened last, one for each index. -/
def FileInfo.newest (g : FileInfo α) : List (OutFile α) :=
  g.files.drop (g.files.length - g.period)

/-- The buffers that were written.  The one at which the program ended was
not. -/
def FileInfo.accepted (g : FileInfo α) (blocks : List (Block α)) : List (Block α) :=
  if g.exited then blocks.dropLast else blocks

/-- The disk holds the newest files, and these hold the end of the data. -/
structure HoldsNewest (blocks : List (Block α)) (r : Recording α) : Prop where
  disk : ∀ ifile, r.disk ifile
    = (r.info.newest.find? fun file => file.ifile == ifile).map OutFile.written
  nodup : (r.info.newest.map OutFile.ifile).Nodup
  data : r.info.newest.flatMap OutFile.written <:+ r.info.accepted blocks

/-! ## One buffer -/

section Work

variable {target : Target} {g g' : FileInfo α} {block : Block α} {disk : Disk α}

/-- The disk has the last file of each index. -/
def Shows (files : List (OutFile α)) (disk : Disk α) : Prop :=
  ∀ ifile, disk ifile
    = (files.reverse.find? fun file => file.ifile == ifile).map OutFile.written

theorem shows_concat (files : List (OutFile α)) (file : OutFile α) (disk : Disk α) :
    Shows (files ++ [file]) disk ↔ ∀ ifile, disk ifile =
      if ifile = file.ifile then some file.written
      else (files.reverse.find? fun file => file.ifile == ifile).map OutFile.written := by
  refine forall_congr' fun ifile => ?_
  rw [List.reverse_append, List.reverse_singleton, List.singleton_append, List.find?_cons]
  by_cases h : ifile = file.ifile
  · rw [if_pos h, beq_iff_eq.mpr h.symm]
    rfl
  · rw [if_neg h, beq_eq_false_iff_ne.mpr (Ne.symm h)]

theorem openNext_current (g : FileInfo α) : g.openNext.current = some ⟨g.ifile, []⟩ := by
  unfold FileInfo.openNext
  split
  · split <;> rfl
  · rfl

theorem openNext_exited (h : g.exited = false) :
    g.openNext.exited = (g.atLast && g.oneshot) := by
  unfold FileInfo.openNext FileInfo.atLast
  cases g.nfiles.ult (g.ifile + 1) with
  | true =>
    cases hshot : g.oneshot with
    | true => rfl
    | false => exact h
  | false => exact h

/-- The buffer goes into the file that is open. -/
theorem diskWork_keeps {file : OutFile α} (h : g.exited = false) (hcurrent : g.current = some file)
    (hfits : fits target file.size block.len g.maxfile = true) :
    diskWork target g block disk = disk.write file.ifile block := by
  have hopen : fileOpen target g block.len = g := by
    unfold fileOpen
    rw [hcurrent]
    exact if_pos hfits
  have hdisk : diskOpen target g block.len disk = disk := by
    unfold diskOpen
    rw [hcurrent]
    exact if_pos hfits
  unfold diskWork
  rw [hopen, hdisk]
  dsimp only
  rw [h, hcurrent]
  rfl

/-- The buffer goes into the next file, if the program goes on. -/
theorem diskWork_next (h : g.exited = false) (hkeeps : g.keeps target block.len = false) :
    diskWork target g block disk =
      if g.atLast && g.oneshot then disk.create g.ifile
      else (disk.create g.ifile).write g.ifile block := by
  have hopen : ∃ g₀ : FileInfo α, fileOpen target g block.len = g₀.openNext ∧
      g₀.exited = false ∧ g₀.ifile = g.ifile ∧ g₀.atLast = g.atLast ∧ g₀.oneshot = g.oneshot := by
    unfold fileOpen
    unfold FileInfo.keeps at hkeeps
    cases hcurrent : g.current with
    | none => exact ⟨g, rfl, h, rfl, rfl, rfl⟩
    | some file =>
      rw [hcurrent] at hkeeps
      exact ⟨_, if_neg (Bool.not_eq_true _ ▸ hkeeps), h, rfl, rfl, rfl⟩
  have hdisk : diskOpen target g block.len disk = disk.create g.ifile := by
    unfold diskOpen
    unfold FileInfo.keeps at hkeeps
    cases hcurrent : g.current with
    | none => rfl
    | some file =>
      rw [hcurrent] at hkeeps
      exact if_neg (Bool.not_eq_true _ ▸ hkeeps)
  obtain ⟨g₀, hg₀, hrunning, hifile, hlast, hshot⟩ := hopen
  unfold diskWork
  rw [hg₀, hdisk]
  dsimp only
  rw [openNext_exited hrunning, openNext_current, hlast, hshot, hifile]

theorem Shows.create {files : List (OutFile α)} (h : Shows files disk) (ifile : BitVec 32) :
    Shows (files ++ [⟨ifile, []⟩]) (disk.create ifile) := by
  refine (shows_concat _ _ _).mpr fun j => ?_
  rw [Disk.create, h j]

theorem Shows.write {files : List (OutFile α)} {file : OutFile α}
    (h : Shows (files ++ [file]) disk) (block : Block α) :
    Shows (files ++ [file.write block]) (disk.write file.ifile block) := by
  refine (shows_concat _ _ _).mpr fun j => ?_
  rw [Disk.write, (shows_concat _ _ _).mp h j]
  by_cases hj : j = file.ifile
  · rw [if_pos hj, if_pos hj]
    exact (if_pos hj).symm
  · rw [if_neg hj, if_neg hj]
    exact (if_neg hj).symm

theorem Shows.work (h : Shows g.files disk) (hstep : step target block g = some g') :
    Shows g'.files (diskWork target g block disk) := by
  obtain ⟨hrunning, ⟨hkeeps, rfl⟩ | ⟨hkeeps, ⟨hlast, hshot, rfl⟩ | ⟨hgo, rfl⟩⟩⟩ :=
    step_cases hstep
  · obtain ⟨file, hcurrent, hfits⟩ := keeps_current hkeeps
    rw [diskWork_keeps hrunning hcurrent hfits, append_files hcurrent]
    rw [files_of_current hcurrent] at h
    exact h.write block
  · rw [diskWork_next hrunning hkeeps, if_pos (Bool.and_eq_true_iff.mpr ⟨hlast, hshot⟩), stop_files]
    exact h.create g.ifile
  · rw [diskWork_next hrunning hkeeps, if_neg (fun hstop => hgo (Bool.and_eq_true_iff.mp hstop)),
      advance_files]
    exact (h.create g.ifile).write block

end Work

/-! ## Going round -/

section Rounds

/-- Two numbers less than `n` apart differ modulo `n`. -/
theorem eq_of_mod_eq {n a b : Nat} (hle : a ≤ b) (hlt : b < a + n) (h : a % n = b % n) :
    a = b := by
  have hdvd : n ∣ b - a := (Nat.modEq_iff_dvd' hle).mp h
  have hzero := Nat.eq_zero_of_dvd_of_lt hdvd (by omega)
  omega

/-- Every number below `total` has the same remainder as one of the last `n`. -/
theorem exists_last_round {n k total : Nat} (hn : 0 < n) (hk : k < total) :
    ∃ i, total - n ≤ i ∧ i < total ∧ i % n = k % n := by
  have hdiv := Nat.div_add_mod (total - 1 - k) n
  have hmod := Nat.mod_lt (total - 1 - k) hn
  refine ⟨k + n * ((total - 1 - k) / n), by omega, by omega, ?_⟩
  exact Nat.add_mul_mod_self_left k n _

/-- In a list with one element for each key the search may begin at either
end. -/
theorem find?_reverse {κ : Type} [BEq κ] [LawfulBEq κ] {key : α → κ} {xs : List α}
    (h : (xs.map key).Nodup) (j : κ) :
    xs.reverse.find? (fun x => key x == j) = xs.find? fun x => key x == j := by
  induction xs with
  | nil => rfl
  | cons x xs ih =>
    rw [List.map_cons, List.nodup_cons] at h
    rw [List.reverse_cons, List.find?_append, ih h.2, List.find?_cons]
    cases hx : key x == j with
    | false => simp [hx]
    | true =>
      have hnone : xs.find? (fun x => key x == j) = none := by
        refine List.find?_eq_none.mpr fun y hy hkey => h.1 ?_
        rw [eq_of_beq hx, ← eq_of_beq hkey]
        exact List.mem_map_of_mem hy
      simp [hx, hnone]

end Rounds

/-! ## The invariant -/

/-- The indices go round, and the files hold what was accepted. -/
structure RoundInv (blocks : List (Block α)) (r : Recording α) : Prop where
  indices : r.info.files.map (fun file => file.ifile.toNat)
    = (List.range r.info.files.length).map (· % r.info.period)
  next : r.info.exited = false → r.info.ifile.toNat = r.info.files.length % r.info.period
  written : r.info.files.flatMap OutFile.written = r.info.accepted blocks
  shown : Shows r.info.files r.disk

theorem roundInv_start (maxfile nfiles : BitVec 32) (oneshot : Bool) :
    RoundInv ([] : List (Block α)) (.start maxfile nfiles oneshot) where
  indices := rfl
  next := fun _ => (Nat.zero_mod _).symm
  written := rfl
  shown := fun _ => rfl

section Steps

variable {target : Target} {g g' : FileInfo α} {block : Block α} {blocks : List (Block α)}

/-- The index after an open. -/
theorem next_index (h : g.ifile.toNat = g.files.length % g.period) :
    (if g.atLast then 0 else g.ifile + 1 : BitVec 32).toNat
      = (g.files.length + 1) % g.period := by
  have hlt : g.ifile.toNat < g.period := h ▸ Nat.mod_lt _ (Nat.succ_pos _)
  have hnfiles := g.nfiles.isLt
  have hsucc : (g.ifile + 1).toNat = (g.ifile.toNat + 1) % 2 ^ 32 := BitVec.toNat_add _ _
  have hlast : g.atLast = decide (g.nfiles.toNat < (g.ifile.toNat + 1) % 2 ^ 32) := by
    rw [FileInfo.atLast, BitVec.ult, hsucc]
  have hround : (g.files.length + 1) % g.period = (g.ifile.toNat + 1) % g.period := by
    rw [h, Nat.mod_add_mod]
  rw [hround, hlast]
  have hperiod : g.period = g.nfiles.toNat + 1 := rfl
  by_cases hend : g.ifile.toNat + 1 = g.period
  · -- After the last index comes 0, also where the increment itself wraps round.
    rw [hend, Nat.mod_self]
    split
    · rfl
    · rename_i hwrap
      rw [decide_eq_true_eq] at hwrap
      rw [hsucc]
      omega
  · rw [Nat.mod_eq_of_lt (show g.ifile.toNat + 1 < g.period by omega)]
    split
    · rename_i hwrap
      rw [decide_eq_true_eq] at hwrap
      omega
    · rw [hsucc]
      omega

/-- A file is opened. -/
theorem indices_opened {written : List (Block α)}
    (hindices : g.files.map (fun file => file.ifile.toNat)
      = (List.range g.files.length).map (· % g.period))
    (hnext : g.ifile.toNat = g.files.length % g.period) :
    (g.files ++ [OutFile.mk g.ifile written]).map (fun file => file.ifile.toNat)
      = (List.range (g.files ++ [OutFile.mk g.ifile written]).length).map (· % g.period) := by
  rw [List.map_append, hindices, List.length_append, List.length_singleton,
    List.range_succ, List.map_append, List.map_singleton, List.map_singleton, hnext]

theorem accepted_of_running (h : g.exited = false) (blocks : List (Block α)) :
    g.accepted blocks = blocks :=
  if_neg (Bool.not_eq_true _ ▸ h)

theorem RoundInv.step {r r' : Recording α} (h : RoundInv blocks r)
    (hstep : r.step target block = some r') : RoundInv (blocks ++ [block]) r' := by
  obtain ⟨g', hwork, rfl⟩ := Option.map_eq_some_iff.mp hstep
  have hshown := h.shown.work hwork
  obtain ⟨hrunning, hcases⟩ := step_cases hwork
  have hwritten := h.written
  rw [accepted_of_running hrunning] at hwritten
  rcases hcases with ⟨hkeeps, rfl⟩ | ⟨-, ⟨-, -, rfl⟩ | ⟨-, rfl⟩⟩
  · obtain ⟨file, hcurrent, -⟩ := keeps_current hkeeps
    have hfiles := files_of_current hcurrent
    have hlength : (r.info.append block).files.length = r.info.files.length := by
      rw [append_files hcurrent, hfiles, List.length_append, List.length_append]
      rfl
    refine ⟨?_, ?_, ?_, hshown⟩
    · show (r.info.append block).files.map _ = (List.range (r.info.append block).files.length).map _
      rw [hlength, append_files hcurrent, List.map_append]
      have hindices := h.indices
      rw [hfiles, List.map_append, ← hfiles] at hindices
      exact hindices
    · intro hgoing
      show r.info.ifile.toNat = (r.info.append block).files.length % _
      rw [hlength]
      exact h.next hrunning
    · show (r.info.append block).files.flatMap _ = (r.info.append block).accepted _
      rw [accepted_of_running (show (r.info.append block).exited = false from hrunning),
        append_files hcurrent, ← hwritten, hfiles, List.flatMap_append, List.flatMap_append,
        List.append_assoc, List.flatMap_singleton, List.flatMap_singleton]
      rfl
  · refine ⟨indices_opened h.indices (h.next hrunning), ?_, ?_, hshown⟩
    · intro hgoing
      cases hgoing
    · show r.info.stop.files.flatMap _ = (blocks ++ [block]).dropLast
      rw [stop_files, List.flatMap_append, hwritten, List.dropLast_concat]
      exact List.append_nil blocks
  · refine ⟨indices_opened h.indices (h.next hrunning), ?_, ?_, hshown⟩
    · intro hgoing
      show (if r.info.atLast then 0 else r.info.ifile + 1 : BitVec 32).toNat = _
      rw [next_index (h.next hrunning), advance_files, List.length_append]
      rfl
    · show (r.info.advance block).files.flatMap _ = (r.info.advance block).accepted _
      rw [accepted_of_running (show (r.info.advance block).exited = false from hrunning),
        advance_files, List.flatMap_append, hwritten, List.flatMap_singleton]

/-- The run lemma. -/
theorem RoundInv.run {done : List (Block α)} {r r' : Recording α} (h : RoundInv done r)
    (hrun : runFrom (Recording.step target) blocks r = some r') :
    RoundInv (done ++ blocks) r' := by
  induction blocks generalizing done r with
  | nil =>
    obtain rfl := Option.some.inj hrun
    rw [List.append_nil]
    exact h
  | cons block blocks ih =>
    obtain ⟨r₁, hstep, hrest⟩ := runFrom_cons.mp hrun
    have hmore := ih (h.step hstep) hrest
    rw [List.append_assoc] at hmore
    exact hmore

end Steps

/-! ## The newest files -/

section Newest

variable {blocks : List (Block α)} {r : Recording α}

/-- The indices of the newest files are the last ones of the round. -/
theorem RoundInv.newest_indices (h : RoundInv blocks r) :
    r.info.newest.map (fun file => file.ifile.toNat)
      = (List.range' (r.info.files.length - r.info.period)
          (r.info.files.length - (r.info.files.length - r.info.period))).map
        (· % r.info.period) := by
  rw [FileInfo.newest, List.map_drop, h.indices, ← List.map_drop, List.range_eq_range',
    List.drop_range']
  simp

theorem RoundInv.nodup (h : RoundInv blocks r) :
    (r.info.newest.map OutFile.ifile).Nodup := by
  apply List.Nodup.of_map BitVec.toNat
  rw [List.map_map]
  show (r.info.newest.map fun file => file.ifile.toNat).Nodup
  rw [h.newest_indices]
  refine List.Nodup.map_on ?_ (List.nodup_range')
  intro i hi j hj hij
  rw [List.mem_range'_1] at hi hj
  rcases Nat.le_total i j with hle | hle
  · exact eq_of_mod_eq hle (by omega) hij
  · exact (eq_of_mod_eq hle (by omega) hij.symm).symm

/-- Every index that is in use is that of one of the newest files. -/
theorem RoundInv.covers (h : RoundInv blocks r) {file : OutFile α} (hfile : file ∈ r.info.files) :
    ∃ last ∈ r.info.newest, last.ifile = file.ifile := by
  have hmem : file.ifile.toNat ∈ (List.range r.info.files.length).map (· % r.info.period) := by
    rw [← h.indices]
    exact List.mem_map_of_mem hfile
  obtain ⟨k, hk, hkfile⟩ := List.mem_map.mp hmem
  obtain ⟨i, hlow, hhigh, hik⟩ :=
    exists_last_round (Nat.succ_pos r.info.nfiles.toNat) (List.mem_range.mp hk)
  have hlast : file.ifile.toNat ∈ r.info.newest.map fun file => file.ifile.toNat := by
    rw [h.newest_indices, ← hkfile]
    refine List.mem_map.mpr ⟨i, List.mem_range'_1.mpr ?_, hik⟩
    have hperiod : r.info.period = r.info.nfiles.toNat.succ := rfl
    omega
  obtain ⟨last, hnewest, hindex⟩ := List.mem_map.mp hlast
  exact ⟨last, hnewest, BitVec.eq_of_toNat_eq hindex⟩

theorem files_eq (g : FileInfo α) :
    g.files = g.files.take (g.files.length - g.period) ++ g.newest :=
  (List.take_append_drop _ _).symm

theorem RoundInv.holdsNewest (h : RoundInv blocks r) : HoldsNewest blocks r where
  nodup := h.nodup
  data := by
    rw [← h.written, files_eq r.info, List.flatMap_append]
    exact List.suffix_append _ _
  disk := by
    intro ifile
    rw [h.shown ifile, ← find?_reverse h.nodup ifile]
    refine congrArg _ ?_
    cases hfound : r.info.newest.reverse.find? fun file => file.ifile == ifile with
    | some file =>
      rw [files_eq r.info, List.reverse_append, List.find?_append, hfound]
      rfl
    | none =>
      refine List.find?_eq_none.mpr fun file hfile hindex => ?_
      obtain ⟨last, hlast, hsame⟩ := h.covers (List.mem_reverse.mp hfile)
      refine List.find?_eq_none.mp hfound last (List.mem_reverse.mpr hlast) ?_
      rw [hsame]
      exact hindex

end Newest

/-- After every run the disk holds the newest files. -/
theorem disk_holds_newest {target : Target} {maxfile nfiles : BitVec 32} {oneshot : Bool}
    {blocks : List (Block α)} {r : Recording α}
    (hrun : runFrom (Recording.step target) blocks (.start maxfile nfiles oneshot) = some r) :
    HoldsNewest blocks r :=
  ((roundInv_start maxfile nfiles oneshot).run hrun).holdsNewest

/-- Three buffers that fill a file each, with the indices 0 and 1 in use.  The
first file is gone. -/
theorem disk_holds_newest_threeBuffers :
    ∃ r, runFrom (Recording.step .ilp32) [fourMb, fourMb, fourMb]
        (.start 0x400000#32 1#32 false) = some r ∧
      r.info.files.length = 3 ∧ r.info.newest.map OutFile.ifile = [1#32, 0#32] ∧
      HoldsNewest [fourMb, fourMb, fourMb] r := by
  have hrun : runFrom (Recording.step .ilp32) [fourMb, fourMb, fourMb]
      (.start 0x400000#32 1#32 false) = some _ := rfl
  exact ⟨_, hrun, rfl, rfl, disk_holds_newest hrun⟩

end Acq200.Output
