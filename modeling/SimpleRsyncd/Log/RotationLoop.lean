import SimpleRsyncd.Log.Rotation
import SimpleRsyncd.Transition.Loop

/-!
This module determines for which settings the loop of `rotateLog` is bounded by the number of files it keeps.
Its index is a `size_t` that starts one below this number.
-/

namespace SimpleRsyncd
namespace Logger

variable (logger : Logger)

/--
`max_files_ - 1` as the machine computes it.
-/
def firstIndex : UInt64 :=
  UInt64.ofNat logger.maxFiles - 1

/--
The loop of `rotateLog`, with its index and the files. It is left by what an iteration throws.
-/
def rotationLoop : Loop (UInt64 × FileSystem) (Except Errno Unit × FileSystem) :=
  fun (i, fs) =>
    if i > 0 then
      match logger.shiftFile i.toNat fs with
      | (.error e, fs) => .leave (.error e, fs)
      -- behind the condition `i--` does not wrap around
      | (.ok (), fs) => .next (i - 1, fs)
    else
      .exit (.ok (), fs)

/--
The subtractions on `size_t` that the loop makes at an index: the ones for where it starts and for its last
index, and in an iteration the ones for the old name and for the next index.
-/
def subtractions (i : UInt64) : List (UInt64 × UInt64) :=
  (UInt64.ofNat logger.maxFiles, 1) :: if i > 0 then [(i, 1), (i, 1)] else []

variable {logger}

theorem lastIndex_eq_firstIndex (h : logger.maxFiles < 2 ^ 64) : logger.lastIndex = logger.firstIndex.toNat := by
  have hone : UInt64.toNat 1 = 1 := rfl
  rw [lastIndex, firstIndex, UInt64.toNat_sub, UInt64.toNat_ofNat', hone]
  split <;> omega

/--
What the loop does at an index.
-/
theorem rotationLoop_cases (logger : Logger) (i : UInt64) (fs : FileSystem)
    : (i.toNat = 0 ∧ logger.rotationLoop (i, fs) = .exit (.ok (), fs))
      ∨ ∃ k, i.toNat = k + 1
        ∧ ((∃ e fs', logger.shiftFile (k + 1) fs = (.error e, fs')
            ∧ logger.rotationLoop (i, fs) = .leave (.error e, fs'))
          ∨ ∃ fs', logger.shiftFile (k + 1) fs = (.ok (), fs') ∧ (i - 1).toNat = k
            ∧ logger.rotationLoop (i, fs) = .next (i - 1, fs')) := by
  have hone : UInt64.toNat 1 = 1 := rfl
  by_cases hpos : i > 0
  . obtain ⟨k, hk⟩ : ∃ k, i.toNat = k + 1 := Nat.exists_eq_succ_of_ne_zero (UInt64.lt_iff_toNat_lt.mp hpos).ne'
    have hnext : (i - 1).toNat = k := by
      rw [UInt64.toNat_sub_of_le i 1 (UInt64.le_iff_toNat_le.mpr (by omega)), hone]
      omega
    refine .inr ⟨k, hk, ?_⟩
    rw [rotationLoop, if_pos hpos, hk]
    rcases hshift : logger.shiftFile (k + 1) fs with ⟨e | _, fs'⟩
    . exact .inl ⟨e, fs', rfl, rfl⟩
    . exact .inr ⟨fs', rfl, hnext, rfl⟩
  . have hzero : ¬0 < i.toNat := fun h => hpos (UInt64.lt_iff_toNat_lt.mpr h)
    exact .inl ⟨by omega, by rw [rotationLoop, if_neg hpos]⟩

/--
Every iteration makes the index smaller.
-/
theorem decreases_rotationLoop (logger : Logger)
    : logger.rotationLoop.Decreases fun (i, _) => i.toNat := by
  constructor
  . rintro ⟨i, fs⟩ r hleave
    rcases logger.rotationLoop_cases i fs with ⟨-, hloop⟩ | ⟨k, hk, -⟩
    . simp [hloop] at hleave
    . simp [hk]
  . rintro ⟨i, fs⟩ s' hnext
    rcases logger.rotationLoop_cases i fs with ⟨-, hloop⟩ | ⟨k, hk, ⟨e, fs', -, hloop⟩ | ⟨fs', -, hless, hloop⟩⟩
    . simp [hloop] at hnext
    . simp [hloop] at hnext
    . rw [hloop] at hnext
      obtain rfl := Turn.next.inj hnext
      simp [hk, hless]

/--
The loop computes what the iterations down to 1 do to the files.
-/
theorem follows_shiftFiles (logger : Logger)
    : logger.rotationLoop.Follows fun _ (i, fs) => logger.shiftFiles i.toNat fs := by
  constructor
  . rintro ⟨i, fs⟩ r hexit
    rcases logger.rotationLoop_cases i fs with ⟨hzero, hloop⟩ | ⟨k, hk, ⟨e, fs', -, hloop⟩ | ⟨fs', -, -, hloop⟩⟩
    all_goals rw [hloop] at hexit
    . simp only [hzero, shiftFiles, Turn.exit.inj hexit]
    . contradiction
    . contradiction
  . rintro left ⟨i, fs⟩
    rcases logger.rotationLoop_cases i fs with
      ⟨hzero, hloop⟩ | ⟨k, hk, ⟨e, fs', hshift, hloop⟩ | ⟨fs', hshift, hless, hloop⟩⟩
    . simp only [hloop, hzero, shiftFiles]
    . simp only [hloop, hk, shiftFiles, hshift]
    . simp only [hloop, hk, shiftFiles, hshift, hless]

/--
Where the log and its archives are entries of one directory no rename fails, and the loop makes all of its
iterations.
-/
theorem ends_of_folder {site : Site} {name : LogName → Name} {fs : FileSystem} {files : LogName → Option Bytes}
    (hinj : Function.Injective name) (hnames : ∀ j, site.Names (logger.path j) (name j))
    (h : Folder site name fs files) (i : UInt64)
    : ∃ r, logger.rotationLoop.Ends (i, fs) i.toNat r := by
  induction hindex : i.toNat generalizing i fs files with
  | zero =>
    rcases logger.rotationLoop_cases i fs with ⟨-, hloop⟩ | ⟨k, hk, -⟩
    . exact ⟨_, .exit hloop⟩
    . omega
  | succ j ih =>
    obtain ⟨fs₁, hmoved, hfolder⟩ := shiftFile_eq logger hinj hnames h j
    rcases logger.rotationLoop_cases i fs with ⟨hzero, -⟩ | ⟨k, hk, ⟨e, fs', hshift, -⟩ | ⟨fs', hshift, hless, hloop⟩⟩
    . omega
    . obtain rfl : k = j := by omega
      simp [hmoved] at hshift
    . obtain rfl : k = j := by omega
      obtain rfl : fs₁ = fs' := (Prod.mk.inj (hmoved.symm.trans hshift)).2
      obtain ⟨r, hends⟩ := ih hfolder (i - 1) hless
      exact ⟨r, .next hloop hends⟩

end Logger

namespace LogWorld

/--
Where `rotateLog` starts its loop, `none` if it returns before.
-/
def loopStart (w : LogWorld) : Option (UInt64 × FileSystem) :=
  if w.logger.logFile.isEmpty || w.logger.logStream.isNone then none else some (w.logger.firstIndex, w.fs)

/--
If `rotateLog` comes to its loop, then there are no more iterations than files to keep, and no subtraction on
the way wraps around.
-/
def RotationBounded (w : LogWorld) : Prop :=
  ∀ start, w.loopStart = some start →
    (∃ n, w.logger.rotationLoop.Ends start n (w.logger.shiftFiles w.logger.lastIndex w.fs) ∧ n ≤ w.logger.maxFiles)
      ∧ ∀ as i fs, Transition.Run w.logger.rotationLoop.steps start as (i, fs) →
        ∀ s ∈ w.logger.subtractions i, s.2 ≤ s.1

/--
The world once `setMaxFiles` has returned.
-/
def setMaxFiles (maxFiles : UInt64) (w : LogWorld) : LogWorld :=
  (perform ({}, .setMaxFiles maxFiles.toNat) { value := w }).2.value

theorem setMaxFiles_eq (maxFiles : UInt64) (w : LogWorld)
    : setMaxFiles maxFiles w = { w with logger.maxFiles := maxFiles.toNat } := rfl

theorem path_setMaxFiles (maxFiles : UInt64) (w : LogWorld) (i : LogName)
    : (setMaxFiles maxFiles w).logger.path i = w.logger.path i := by
  cases i <;> rfl

theorem rotationBounded_of_pos {w : LogWorld} (hpos : 0 < w.logger.maxFiles) (hlt : w.logger.maxFiles < 2 ^ 64)
    : RotationBounded w := by
  rintro start hstart
  obtain ⟨-, rfl⟩ : _ ∧ (w.logger.firstIndex, w.fs) = start := by
    simpa [loopStart] using hstart
  have hlast := Logger.lastIndex_eq_firstIndex hlt
  obtain ⟨n, hends, hn⟩ := w.logger.follows_shiftFiles.ends (s := (w.logger.firstIndex, w.fs))
    w.logger.decreases_rotationLoop _ (Nat.le_refl _)
  constructor
  . refine ⟨n, by rwa [hlast], ?_⟩
    rw [Logger.lastIndex_eq hpos] at hlast
    dsimp only at hn
    omega
  . rintro as i fs - s hs
    have hone : UInt64.toNat 1 = 1 := rfl
    simp only [Logger.subtractions, List.mem_cons] at hs
    rcases hs with rfl | hs
    . rw [UInt64.le_iff_toNat_le, UInt64.toNat_ofNat', hone]
      omega
    . split at hs
      . next hi =>
        have hpos := UInt64.lt_iff_toNat_lt.mp hi
        obtain rfl : s = (i, 1) := by simpa using hs
        exact UInt64.le_iff_toNat_le.mpr hpos
      . simp at hs

/--
With a setting of 0 the index starts at the largest `size_t`.
-/
theorem not_rotationBounded_of_zero {w : LogWorld} (hzero : w.logger.maxFiles = 0) (hfile : w.logger.logFile ≠ [])
    (hstream : w.logger.logStream ≠ none)
    : ¬RotationBounded w := by
  intro h
  have hstart : w.loopStart = some (w.logger.firstIndex, w.fs) := by
    simp [loopStart, hfile, hstream]
  -- the first subtraction is 0 - 1
  have hwrap := (h _ hstart).2 [] w.logger.firstIndex w.fs .nil _ List.mem_cons_self
  rw [hzero] at hwrap
  exact absurd hwrap (by decide)

/--
A log without archives is moved through the loop for as long as the index lasts.
-/
theorem ends_firstIndex {w : LogWorld} {l : Loc} {c : Bytes} (hlog : w.fs.resolve w.logger.logFile = .ok l)
    (hdata : w.fs.data l = some c)
    (hnone : ∀ i, i ≠ .log → w.fs.lresolve (w.logger.path i) = .error .enoent)
    : ∃ r, w.logger.rotationLoop.Ends (w.logger.firstIndex, w.fs) w.logger.firstIndex.toNat r := by
  obtain ⟨es, n, helems⟩ := FileSystem.exists_name_of_resolve hlog (w.fs.kind_of_data hdata)
  have hpath := Logger.elems_path helems
  obtain ⟨site, hnames, hfolder⟩ := FileSystem.exists_folder (i := LogName.log) (fun i => (hpath i).2)
    (fun i => (hpath i).1) hlog hdata hnone
  exact Logger.ends_of_folder (component_injective helems) hnames hfolder w.logger.firstIndex

/--
The loop is bounded by every setting other than 0. With 0 it is bounded only where it is not reached.
-/
theorem rotationBounded_setMaxFiles_iff (maxFiles : UInt64) (w : LogWorld)
    : RotationBounded (setMaxFiles maxFiles w)
        ↔ maxFiles ≠ 0 ∨ w.logger.logFile = [] ∨ w.logger.logStream = none := by
  rw [setMaxFiles_eq]
  by_cases hzero : maxFiles = 0
  . subst hzero
    by_cases hopen : w.logger.logFile = [] ∨ w.logger.logStream = none
    . -- `rotateLog` returns before its loop
      refine iff_of_true ?_ (.inr hopen)
      intro start hstart
      simp only [loopStart] at hstart
      rw [if_pos (by simpa using hopen)] at hstart
      contradiction
    . rw [not_or] at hopen
      exact iff_of_false (not_rotationBounded_of_zero rfl hopen.1 hopen.2) (by simp [hopen])
  . refine iff_of_true (rotationBounded_of_pos ?_ maxFiles.toNat_lt) (.inl hzero)
    exact Nat.pos_of_ne_zero fun h => hzero (UInt64.toNat_inj.mp h)

theorem not_rotationBounded_alone
    : ¬RotationBounded (setMaxFiles 0 LogRun.alone)
      ∧ ∃ start r, (setMaxFiles 0 LogRun.alone).loopStart = some start
        ∧ (setMaxFiles 0 LogRun.alone).logger.rotationLoop.Ends start (2 ^ 64 - 1) r := by
  have hdata : LogRun.alone.fs.data [⟨_, LogRun.isName_log⟩] = some (bytes "x") := by decide
  have hnone : ∀ i, i ≠ .log → LogRun.alone.fs.lresolve ((setMaxFiles 0 LogRun.alone).logger.path i) = .error .enoent := by
    intro i hi
    rw [path_setMaxFiles]
    exact LogRun.alone_lresolve i hi
  obtain ⟨r, hends⟩ := ends_firstIndex (w := setMaxFiles 0 LogRun.alone) (by decide) hdata hnone
  refine ⟨not_rotationBounded_of_zero rfl (by decide) (by decide), _, r, rfl, ?_⟩
  have hindex : (setMaxFiles 0 LogRun.alone).logger.firstIndex.toNat = 2 ^ 64 - 1 := by decide
  rwa [hindex] at hends

end LogWorld
end SimpleRsyncd
