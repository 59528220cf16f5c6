import SimpleRsyncd.FileSystem.Folder
import SimpleRsyncd.Log.Logger
import SimpleRsyncd.Path.Sibling

/-!
This module contains the names of the archives of a log file, and what the loop of `rotateLog` does to them:
every archive is moved to the next slot, and with compression the one in the last slot in use to its other name.
-/

namespace SimpleRsyncd

/--
The names that a rotation is about.
-/
inductive LogName where
  | log
  | slot (index : Nat)
  | compressed (index : Nat)
  deriving DecidableEq

theorem LogName.slot_injective : Function.Injective slot := by
  intro k k' h
  simpa using h

section fileName

open Path

variable {p : Bytes} {es : List Elem} {n : Name}

def slotName (p : Bytes) (index : Nat) : Bytes :=
  stem p ++ bytes "." ++ Bytes.ofNat index ++ extension p

/--
The last component of the path that a name stands for.
-/
def LogName.fileName (p : Bytes) : LogName → Bytes
  | .log => filename p
  | .slot k => slotName p k
  | .compressed k => slotName p k ++ bytes ".gz"

/--
A digit makes a name of anything without a slash.
-/
theorem isName_of_isDigit {b : Bytes} {c : UInt8} (hslash : slash ∉ b) (hc : c ∈ b) (hdigit : 48 ≤ c ∧ c ≤ 57) : IsName b := by
  refine ⟨List.ne_nil_of_mem hc, hslash, ?_, ?_⟩
  all_goals
    rintro rfl
    obtain rfl : c = 46 := by simpa [dotDot, bytes] using hc
    exact absurd hdigit (by decide)

theorem slash_notMem_slotName (h : elems p = es ++ [.name n]) (k : Nat) : slash ∉ slotName p k := by
  have hfilename : slash ∉ stem p ++ extension p := by
    rw [stem_append_extension, filename_of_elems h]
    exact n.isName.2.1
  have hindex : slash ∉ Bytes.ofNat k := fun hmem => absurd (Bytes.range_of_mem_ofNat hmem) (by decide)
  have hdot : slash ∉ bytes "." := by decide
  simp only [List.mem_append, not_or] at hfilename
  simp [slotName, hfilename, hindex, hdot]

theorem isName_fileName (h : elems p = es ++ [.name n]) (i : LogName) : IsName (i.fileName p) := by
  have hslash := slash_notMem_slotName h
  have hdigit : ∀ k, ∃ c ∈ slotName p k, 48 ≤ c ∧ c ≤ 57 := by
    intro k
    obtain ⟨c, hc⟩ := List.exists_mem_of_ne_nil _ (Bytes.ofNat_ne_nil k)
    exact ⟨c, by simp [slotName, hc], Bytes.range_of_mem_ofNat hc⟩
  have hgz : slash ∉ bytes ".gz" := by decide
  cases i with
  | log =>
    rw [LogName.fileName, filename_of_elems h]
    exact n.isName
  | slot k =>
    obtain ⟨c, hc, hrange⟩ := hdigit k
    exact isName_of_isDigit (hslash k) hc hrange
  | compressed k =>
    obtain ⟨c, hc, hrange⟩ := hdigit k
    exact isName_of_isDigit (by simp [LogName.fileName, hslash k, hgz]) (List.mem_append_left _ hc) hrange

theorem slotName_injective : Function.Injective (slotName p) := by
  intro k k' h
  have hindex := List.append_cancel_left (List.append_cancel_right h)
  exact Bytes.ofNat_injective hindex

/--
No slot has the compressed name of another one: up to the extension they have the same index, and then the
other one is longer.
-/
theorem slotName_ne_compressed (k k' : Nat) : slotName p k ≠ slotName p k' ++ bytes ".gz" := by
  intro h
  simp only [slotName, List.append_assoc, List.append_cancel_left_eq] at h
  have hlength : (bytes ".gz").length = 3 := by decide
  rcases extension_cases p with hnil | ⟨after, hafter⟩
  . have hdot : (46 : UInt8) ∈ Bytes.ofNat k := by
      rw [hnil, List.nil_append, List.append_nil] at h
      rw [h]
      exact List.mem_append_right _ (by decide)
    exact absurd (Bytes.range_of_mem_ofNat hdot) (by decide)
  . rw [hafter] at h
    have hext := (Bytes.ofNat_append_inj (c := 46) (by decide) h).2
    have := congrArg List.length hext
    simp [hlength] at this

theorem filename_ne_slotName (k : Nat) (t : Bytes) : filename p ≠ slotName p k ++ t := by
  intro h
  have := congrArg List.length h
  rw [← stem_append_extension] at this
  have hdot : (bytes ".").length = 1 := by decide
  simp only [slotName, List.length_append, hdot] at this
  omega

theorem fileName_injective : Function.Injective (LogName.fileName p) := by
  intro i j h
  cases i with
  | log =>
    cases j with
    | log => rfl
    | slot k => exact absurd (h.trans (List.append_nil _).symm) (filename_ne_slotName k [])
    | compressed k => exact absurd h (filename_ne_slotName k _)
  | slot k =>
    cases j with
    | log => exact absurd (h.symm.trans (List.append_nil _).symm) (filename_ne_slotName k [])
    | slot k' => rw [slotName_injective h]
    | compressed k' => exact absurd h (slotName_ne_compressed k k')
  | compressed k =>
    cases j with
    | log => exact absurd h.symm (filename_ne_slotName k _)
    | slot k' => exact absurd h.symm (slotName_ne_compressed k' k)
    | compressed k' => rw [slotName_injective (List.append_cancel_right h)]

/--
The last component as the name of a directory entry.
-/
def LogName.component (h : elems p = es ++ [.name n]) (i : LogName) : Name :=
  ⟨i.fileName p, isName_fileName h i⟩

theorem component_injective (h : elems p = es ++ [.name n]) : Function.Injective (LogName.component h) :=
  fun _ _ heq => fileName_injective (congrArg Name.toBytes heq)

end fileName

namespace Logger

def path (logger : Logger) : LogName → Bytes
  | .log => logger.logFile
  | .slot k => logger.getLogFilename k
  | .compressed k => logger.getLogFilename k ++ bytes ".gz"

/--
Whether the loop of `rotateLog` compresses anything.
-/
def compresses (logger : Logger) : Bool :=
  logger.compressOldLogs && 2 ≤ logger.maxFiles

/--
The number of slots in use.
-/
def capacity (logger : Logger) : Nat :=
  if logger.compresses then logger.maxFiles - 1 else logger.maxFiles

/--
What is read under each name once these contents have been archived, the newest one first.
-/
def archived (logger : Logger) (old : List Bytes) (current : Bytes) : LogName → Option Bytes
  | .log => some current
  | .slot k => (old.take logger.capacity)[k]?
  | .compressed k => if logger.compresses && k + 2 = logger.maxFiles then old[logger.capacity]? else none

variable {logger : Logger} {es : List Elem} {n : Name} {site : Site} {name : LogName → Name} {fs : FileSystem}
  {files : LogName → Option Bytes} {old : List Bytes} {current : Bytes}

theorem elems_path (h : Path.elems logger.logFile = es ++ [.name n]) (i : LogName)
    : Path.elems (logger.path i) = es ++ [.name (i.component h)]
        ∧ Path.isAbsolute (logger.path i) = Path.isAbsolute logger.logFile := by
  have hne : logger.logFile ≠ [] := by
    intro hnil
    have helems : Path.elems [] = [] := by decide
    simp [hnil, helems] at h
  have hslot : ∀ k, logger.getLogFilename k = Path.sibling logger.logFile (slotName logger.logFile k) := by
    intro k
    rw [getLogFilename, if_neg (by simpa using hne)]
    rfl
  cases i with
  | log =>
    have hname : LogName.log.component h = n :=
      Name.toBytes_injective (Path.filename_of_elems h)
    rw [hname]
    exact ⟨h, rfl⟩
  | slot k =>
    rw [path, hslot]
    exact Path.elems_sibling h (LogName.component h (.slot k))
  | compressed k =>
    rw [path, hslot, ← Path.sibling_append]
    exact Path.elems_sibling h (LogName.component h (.compressed k))

section folder

variable (logger) (hinj : Function.Injective name) (hnames : ∀ i, site.Names (logger.path i) (name i))

include hinj hnames

theorem moveFile_eq (h : Folder site name fs files) {i j : LogName} (hne : i ≠ j)
    : ∃ fs', moveFile fs (logger.path i) (logger.path j) = (.ok (), fs')
        ∧ Folder site name fs' (Slots.move files i j) := by
  rw [moveFile, h.exists_eq (hnames i)]
  cases hsome : (files i).isSome with
  | false =>
    refine ⟨fs, rfl, ?_⟩
    rwa [Slots.move, if_neg (by simp [hsome])]
  | true =>
    obtain ⟨fs', hrename, hfolder⟩ := h.rename hinj (hnames i) (hnames j) hsome hne
    exact ⟨fs', by simp [renameFile, hrename], hfolder⟩

/--
Where an iteration of the loop moves the archive of the slot before.
-/
def target (logger : Logger) (i : Nat) : LogName :=
  if i = logger.lastIndex && logger.compressOldLogs then .compressed (i - 1) else .slot i

theorem shiftFile_eq (h : Folder site name fs files) (i : Nat)
    : ∃ fs', logger.shiftFile (i + 1) fs = (.ok (), fs')
        ∧ Folder site name fs' (Slots.move files (.slot i) (logger.target (i + 1))) := by
  have hexists : fs.exists (logger.getLogFilename i) = .ok (files (.slot i)).isSome := h.exists_eq (hnames (.slot i))
  rw [shiftFile, target, Nat.add_sub_cancel, hexists]
  cases hsome : (files (.slot i)).isSome with
  | false =>
    refine ⟨fs, rfl, ?_⟩
    rwa [Slots.move, if_neg (by simp [hsome])]
  | true =>
    dsimp only
    split
    . exact moveFile_eq logger hinj hnames h (i := .slot i) (j := .compressed i) (by simp)
    . obtain ⟨fs', hrename, hfolder⟩ :=
        h.rename hinj (hnames (.slot i)) (hnames (.slot (i + 1))) hsome (by simp)
      rw [path, path] at hrename
      exact ⟨fs', by rw [renameFile, hrename], hfolder⟩

/--
What the iterations of the loop from an index down to 1 do to what is read.
-/
def shifted (logger : Logger) : Nat → (LogName → Option Bytes) → LogName → Option Bytes
  | 0, files => files
  | i + 1, files => shifted logger i (Slots.move files (.slot i) (logger.target (i + 1)))

theorem shiftFiles_eq (h : Folder site name fs files) (i : Nat)
    : ∃ fs', logger.shiftFiles i fs = (.ok (), fs') ∧ Folder site name fs' (logger.shifted i files) := by
  induction i generalizing fs files with
  | zero => exact ⟨fs, rfl, h⟩
  | succ i ih =>
    obtain ⟨fs₁, hshift, hfolder⟩ := shiftFile_eq logger hinj hnames h i
    obtain ⟨fs', hrest, hfolder'⟩ := ih hfolder
    exact ⟨fs', by simp [shiftFiles, hshift, hrest], hfolder'⟩

end folder

theorem shifted_log (i : Nat) (files : LogName → Option Bytes) : logger.shifted i files .log = files .log := by
  induction i generalizing files with
  | zero => rfl
  | succ i ih =>
    have htarget : LogName.log ≠ logger.target (i + 1) := by
      rw [target]
      split <;> simp
    rw [shifted, ih, Slots.move_other (by simp) htarget]

/--
Below the last index the archives only move to the next slot.
-/
theorem shifted_eq_shift {i : Nat} (h : i < logger.lastIndex ∨ logger.compressOldLogs = false)
    (files : LogName → Option Bytes)
    : logger.shifted i files = Slots.shift .slot i files := by
  induction i generalizing files with
  | zero => rfl
  | succ i ih =>
    have htarget : logger.target (i + 1) = .slot (i + 1) := by
      rw [target]
      rcases h with hlt | hno
      . simp [Nat.ne_of_lt hlt]
      . simp [hno]
    rw [shifted, Slots.shift, htarget]
    exact ih (h.imp (fun hlt => by omega) id) _

theorem lastIndex_eq (hmax : 1 ≤ logger.maxFiles) : logger.lastIndex = logger.maxFiles - 1 :=
  if_neg (by omega)

theorem shifted_of_not_compresses (hmax : 1 ≤ logger.maxFiles) (h : logger.compresses = false)
    (files : LogName → Option Bytes)
    : logger.shifted logger.lastIndex files = Slots.shift .slot (logger.maxFiles - 1) files := by
  rw [lastIndex_eq hmax]
  by_cases hno : logger.compressOldLogs = false
  . exact shifted_eq_shift (.inr hno) files
  . have hone : logger.maxFiles - 1 = 0 := by
      simp [compresses, hno] at h
      omega
    rw [hone]
    rfl

theorem shifted_of_compresses {m : Nat} (h : logger.compresses = true) (hmax : logger.maxFiles = m + 2)
    (files : LogName → Option Bytes)
    : logger.shifted logger.lastIndex files
        = Slots.shift .slot m (Slots.move files (.slot m) (.compressed m)) := by
  have hlast : logger.lastIndex = m + 1 := by
    rw [lastIndex_eq (by omega), hmax]
    rfl
  have htarget : logger.target (m + 1) = .compressed m := by
    have hcompress : logger.compressOldLogs = true := by
      rw [compresses, Bool.and_eq_true] at h
      exact h.1
    simp [target, hlast, hcompress]
  rw [hlast, shifted, htarget, shifted_eq_shift (.inl (by omega))]

theorem exists_maxFiles (h : logger.compresses = true) : ∃ m, logger.maxFiles = m + 2 := by
  rw [compresses, Bool.and_eq_true, decide_eq_true_eq] at h
  exact ⟨logger.maxFiles - 2, by omega⟩

/--
What the slots hold after the loop, once the current log has become the first archive.
-/
theorem shifted_slot (hmax : 1 ≤ logger.maxFiles) (old : List Bytes) (current : Bytes) (k : Nat)
    : Function.update (logger.shifted logger.lastIndex (logger.archived old current)) (.slot 0) (some current) (.slot k)
        = ((current :: old).take logger.capacity)[k]? := by
  cases hcompress : logger.compresses with
  | false =>
    obtain ⟨m, hm⟩ : ∃ m, logger.maxFiles = m + 1 := ⟨logger.maxFiles - 1, by omega⟩
    have hcapacity : logger.capacity = m + 1 := by simp [capacity, hcompress, hm]
    rw [shifted_of_not_compresses hmax hcompress, hm, Nat.add_sub_cancel,
      Slots.update_shift LogName.slot_injective (old.take (m + 1)) (by simp)
        (by simp [archived, hcapacity]),
      hcapacity, List.take_succ_cons, List.take_succ_cons, List.take_take, Nat.min_eq_left (by omega)]
  | true =>
    obtain ⟨m, hm⟩ := exists_maxFiles hcompress
    have hcapacity : logger.capacity = m + 1 := by simp [capacity, hcompress, hm]
    have hcells : ∀ k, Slots.move (logger.archived old current) (.slot m) (.compressed m) (.slot k) = (old.take m)[k]? := by
      intro k
      by_cases hk : k = m
      . subst hk
        rw [Slots.move_source _ (by simp), eq_comm, List.getElem?_eq_none_iff]
        exact List.length_take_le _ _
      . rw [Slots.move_other (by simpa using hk) (by simp), archived, hcapacity, List.getElem?_take, List.getElem?_take]
        split <;> split <;> first | rfl | omega
    rw [shifted_of_compresses hcompress hm,
      Slots.update_shift LogName.slot_injective (old.take m) (by simp) hcells,
      hcapacity, List.take_succ_cons, List.take_succ_cons, List.take_take, Nat.min_self]

/--
What has the compressed names after the loop: the archive that was in the last slot in use.
-/
theorem shifted_compressed (hmax : 1 ≤ logger.maxFiles) (old : List Bytes) (current : Bytes) (k : Nat)
    : logger.shifted logger.lastIndex (logger.archived old current) (.compressed k)
        = logger.archived (current :: old) [] (.compressed k) := by
  cases hcompress : logger.compresses with
  | false =>
    rw [shifted_of_not_compresses hmax hcompress, Slots.shift_other (by simp)]
    simp [archived, hcompress]
  | true =>
    obtain ⟨m, hm⟩ := exists_maxFiles hcompress
    have hcapacity : logger.capacity = m + 1 := by simp [capacity, hcompress, hm]
    rw [shifted_of_compresses hcompress hm, Slots.shift_other (by simp)]
    by_cases hk : k = m
    . subst hk
      rw [Slots.move_target]
      simp only [archived, hcompress, hm, hcapacity, List.getElem?_cons_succ, List.getElem?_take_of_lt (Nat.lt_succ_self k)]
      cases hlast : old[k]? with
      | some c => rfl
      | none =>
        have hbeyond : old[k + 1]? = none := by
          rw [List.getElem?_eq_none_iff] at hlast ⊢
          omega
        simp [hbeyond]
    . rw [Slots.move_other (by simp) (by simpa using hk)]
      simp [archived, hm, hk]

/--
A rotation archives the current log in front of the others, and the next one starts empty.
-/
theorem archived_cons (hmax : 1 ≤ logger.maxFiles) (old : List Bytes) (current : Bytes)
    : Function.update (Slots.move (logger.shifted logger.lastIndex (logger.archived old current)) .log (.slot 0)) .log
          (some [])
        = logger.archived (current :: old) [] := by
  have hlog : logger.shifted logger.lastIndex (logger.archived old current) .log = some current := shifted_log _ _
  have hmove : Slots.move (logger.shifted logger.lastIndex (logger.archived old current)) .log (.slot 0)
      = Function.update (Function.update (logger.shifted logger.lastIndex (logger.archived old current)) (.slot 0)
          (some current)) .log none := by
    rw [Slots.move, hlog, if_pos (by rfl), Function.update_comm (by simp)]
  rw [hmove, Function.update_idem]
  funext i
  cases i with
  | log => rfl
  | slot k =>
    rw [Function.update_of_ne (by simp)]
    exact shifted_slot hmax old current k
  | compressed k =>
    rw [Function.update_of_ne (by simp), Function.update_of_ne (by simp)]
    exact shifted_compressed hmax old current k

/--
What `rotateLog` does to the files: the loop, the rename of the log and the new one in its place.
-/
theorem rotateFiles_eq (logger : Logger) (hinj : Function.Injective name)
    (hnames : ∀ i, site.Names (logger.path i) (name i)) (hmax : 1 ≤ logger.maxFiles)
    (h : Folder site name fs (logger.archived old current))
    : ∃ fs₁ fs₂ fs₃ l, logger.shiftFiles logger.lastIndex fs = (.ok (), fs₁)
        ∧ moveFile fs₁ logger.logFile (logger.getLogFilename 0) = (.ok (), fs₂)
        ∧ fs₂.openWrite logger.logFile = .ok (fs₃, l)
        ∧ Folder site name fs₃ (logger.archived (current :: old) [])
        ∧ fs₃.resolve logger.logFile = .ok l ∧ l = site.loc ++ [name .log] := by
  obtain ⟨fs₁, hshift, hfolder₁⟩ := shiftFiles_eq logger hinj hnames h logger.lastIndex
  obtain ⟨fs₂, hmove, hfolder₂⟩ := moveFile_eq logger hinj hnames hfolder₁ (i := .log) (j := .slot 0) (by simp)
  obtain ⟨fs₃, l, hopen, hfolder₃, hleads, hl⟩ :=
    hfolder₂.openWrite_of_none hinj (hnames .log) (Slots.move_source _ (by simp))
  rw [archived_cons hmax] at hfolder₃
  exact ⟨fs₁, fs₂, fs₃, l, hshift, hmove, hopen, hfolder₃, hleads, hl⟩

end Logger
end SimpleRsyncd
