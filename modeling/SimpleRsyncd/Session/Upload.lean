import SimpleRsyncd.Module.Containment
import SimpleRsyncd.Session.Lemmas
import SimpleRsyncd.Session.TempFile

/-!
This module determines when the file that `startFileUpload` opens is the one that `resolvePath` would
have found. An upload puts its path together itself and none of the checks of the module apply to it.
-/

namespace SimpleRsyncd
namespace Module

variable {m : Module} {fs fs' : FileSystem} {path fullPath : Bytes} {canOpen : Bool}

/--
The full path of a temporary file names a file below an existing directory.
-/
theorem fullPath_tempPath (h : fs.absolute (m.joinPath (tempPath path)) = .ok fullPath)
    : ∃ base ups names n, fs.kind base = some .dir ∧ fullPath = Path.fullPath base ups names n := by
  obtain ⟨s, hs⟩ := Path.append_append m.config.path path (bytes ".tmp")
  rw [joinPath, tempPath, hs] at h
  obtain ⟨ups, names, n, ⟨-, hnormal⟩ | ⟨hrelative, hnormal⟩⟩ :=
    Path.lexicallyNormal_append_suffix s (t := bytes ".tmp") (by decide) (by decide)
  . rw [hnormal, fs.absolute_of_isAbsolute (Path.isAbsolute_fullPath ..)] at h
    exact ⟨[], 0, names, n, fs.isTree.root, (Except.ok.inj h).symm⟩
  . simp only [FileSystem.absolute, hrelative, Bool.false_eq_true, ↓reduceIte] at h
    split at h
    . contradiction
    . split at h
      . next hcwd =>
        rw [Path.append_ofLoc hrelative, hnormal, Path.joined_fullPath] at h
        exact ⟨fs.cwd, ups, names, n, hcwd, (Except.ok.inj h).symm⟩
      . contradiction

theorem isFilePath_tempPath (h : fs.absolute (m.joinPath (tempPath path)) = .ok fullPath)
    : ∃ parent n, fs.IsFilePath fullPath parent n := by
  obtain ⟨base, ups, names, n, hbase, rfl⟩ := fullPath_tempPath h
  exact ⟨_, _, FileSystem.isFilePath_fullPath ups names n hbase⟩

theorem openTemp_of_fullPath {parent : List Elem} {n : Name} (hfile : fs.IsFilePath fullPath parent n)
    (hfull : fs.absolute (m.joinPath (tempPath path)) = .ok fullPath)
    : m.openTemp canOpen fs path
        =
      match fs.createParent fullPath with
      | .error e => .error e
      | .ok (fs₁, made) =>
        match canOpen, fs₁.openWrite fullPath with
        | true, .ok (fs₂, l) => .ok (fs₂, made, some l)
        | _, _ => .ok (fs₁, made, none) := by
  have hempty : fullPath.isEmpty = false := by
    rw [List.isEmpty_eq_false_iff]
    rintro rfl
    have := hfile.absolute
    simp [Path.isAbsolute] at this
  simp only [openTemp, hfull, hempty, Bool.false_eq_true, ↓reduceIte, bind, Except.bind]
  rcases fs.createParent fullPath with e | ⟨fs₁, made⟩ <;> rfl

theorem openTemp_eq_ok {made : List Loc} {opened : Option Loc}
    (h : m.openTemp canOpen fs path = .ok (fs', made, opened))
    : ∃ fullPath fs₁, fs.absolute (m.joinPath (tempPath path)) = .ok fullPath
        ∧ fs.createParent fullPath = .ok (fs₁, made)
        ∧ ∀ l, opened = some l → canOpen = true ∧ fs₁.openWrite fullPath = .ok (fs', l) := by
  cases hfull : fs.absolute (m.joinPath (tempPath path)) with
  | error => simp [openTemp, hfull, bind, Except.bind] at h
  | ok fullPath =>
    obtain ⟨parent, n, hfile⟩ := isFilePath_tempPath hfull
    rw [openTemp_of_fullPath hfile hfull] at h
    split at h
    . contradiction
    . next fs₁ made' hparent =>
      split at h
      . next hwrite =>
        simp only [Except.ok.injEq, Prod.mk.injEq] at h
        obtain ⟨rfl, rfl, rfl⟩ := h
        refine ⟨fullPath, fs₁, rfl, hparent, ?_⟩
        intro l hl
        obtain rfl := Option.some.inj hl
        exact ⟨rfl, hwrite⟩
      . simp only [Except.ok.injEq, Prod.mk.injEq] at h
        obtain ⟨rfl, rfl, rfl⟩ := h
        exact ⟨fullPath, fs₁, rfl, hparent, by simp⟩

end Module

namespace World

variable {w : World} {env : Env} {moduleName path : Bytes} {m : Module}

end World
end SimpleRsyncd
