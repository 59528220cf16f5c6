import SimpleRsyncd.FileSystem.Canonical
import SimpleRsyncd.FileSystem.Remove
import SimpleRsyncd.Module.Containment
import SimpleRsyncd.Module.FileSystemModule

/-!
This module determines what the deletions of a module remove. The path that a request leads to is written
in canonical form, so it names the root of the module exactly if the request leads to it.
-/

namespace SimpleRsyncd
namespace Module

variable {m : Module} {fs : FileSystem} {path p : Bytes} {root l : Loc}

theorem resolveSafe_eq_some_iff
    : m.resolveSafe fs path = .ok (some p) ↔ m.resolvePath fs path = .ok p ∧ p ≠ [] ∧ ¬dotDot <:+: path := by
  unfold resolveSafe
  cases hresolve : m.resolvePath fs path with
  | error => simp [bind, Except.bind]
  | ok q =>
    simp only [bind, Except.bind]
    cases q with
    | nil =>
      simp
      grind
    | cons c q =>
      have hsafe : m.isPathSafe fs path = .ok true ↔ _ := isPathSafe_eq_true_iff
      simp only [hresolve, Except.ok.injEq, exists_eq_left', ne_eq, reduceCtorEq, not_false_eq_true, and_true] at hsafe
      cases hcheck : m.isPathSafe fs path with
      | error => simp_all
      | ok safe =>
        cases safe
        . simp_all
        . simp_all
          rintro rfl
          simp

/--
A request for something that exists is resolved to the path of its location, which starts like that of the
root.
-/
theorem eq_ofLoc_of_resolvePath (hpath : path ≠ []) (hp : p ≠ []) (hroot : fs.resolve m.config.path = .ok root)
    (hresolve : m.resolvePath fs path = .ok p) (hl : fs.resolve p = .ok l)
    : p = Path.ofLoc l ∧ Path.ofLoc root <+: Path.ofLoc l := by
  obtain ⟨base, resolved, hadm, hcheck⟩ := (resolvePath_eq_ok_iff hpath hp).mp hresolve
  have hbase : fs.weaklyCanonical base = .ok (Path.ofLoc root) := by
    apply fs.weaklyCanonical_of_canonical
    rw [FileSystem.canonical, (FileSystem.resolve_absolute hadm.base).2, hroot]
    rfl
  rcases (checkCanonical_eq_iff hp).mp hcheck with ⟨b, hb, hcanonical, hpre⟩ | ⟨hthrows, rfl⟩
  . obtain rfl := Except.ok.inj (hbase.symm.trans hb)
    have habs := (FileSystem.resolve_absolute hadm.resolved).1
    have hdots := Path.dotdot_notMem_elems hadm.noDots
    obtain ⟨rfl, -⟩ := FileSystem.eq_ofLoc_of_weaklyCanonical habs hdots hcanonical hl
    exact ⟨rfl, hpre⟩
  . have hcanonical : fs.canonical resolved = .ok (Path.ofLoc l) := by
      rw [FileSystem.canonical, hl]
      rfl
    exact absurd ⟨hbase, fs.weaklyCanonical_of_canonical hcanonical⟩ (hthrows _ _)

/--
What a deletion is asked for may be deleted, and it exists.
-/
structure DeletionTarget (m : Module) (fs : FileSystem) (path p : Bytes) : Prop where
  writable : m.isReadOnly = false
  allowed : m.allowsDeletion = true
  safe : m.resolveSafe fs path = .ok (some p)
  there : fs.exists p = .ok true

theorem DeletionTarget.ne_nil (h : m.DeletionTarget fs path p) : p ≠ [] :=
  (resolveSafe_eq_some_iff.mp h.safe).2.1

theorem DeletionTarget.resolvePath (h : m.DeletionTarget fs path p) : m.resolvePath fs path = .ok p :=
  (resolveSafe_eq_some_iff.mp h.safe).1

/--
The checks in front of a deletion, once they are passed.
-/
theorem deletionTarget_of_some
    (htarget : (if (m.isReadOnly || !m.allowsDeletion) = true then
        .ok none
      else do
        if ← m.checkDeletePermission fs path then
          m.resolveSafe fs path
        else
          .ok none) = (.ok (some p) : Except Errno (Option Bytes)))
    : m.DeletionTarget fs path p := by
  simp only [bind, Except.bind] at htarget
  split at htarget
  . simp at htarget
  . next hflags =>
    simp only [Bool.or_eq_true, Bool.not_eq_true', not_or, Bool.not_eq_true, Bool.not_eq_false] at hflags
    split at htarget
    . contradiction
    . next granted hpermission =>
      split at htarget
      . next hgranted =>
        have hsafe := resolveSafe_eq_some_iff.mp htarget
        have hne : p.isEmpty = false := by simpa using hsafe.2.1
        refine ⟨hflags.1, hflags.2, htarget, ?_⟩
        simpa [checkDeletePermission, hflags.1, hflags.2, hsafe.1, hne, bind, Except.bind, hgranted] using hpermission
      . simp at htarget

section deleteChecked

variable (delete : Bytes → Except Errno Bool × FileSystem)

theorem deleteChecked_of_target (h : m.DeletionTarget fs path p)
    : (m.deleteChecked fs path delete).2 = (delete p).2 := by
  have hne : p.isEmpty = false := by simpa using h.ne_nil
  have hpermission : m.checkDeletePermission fs path = .ok true := by
    simp [checkDeletePermission, h.writable, h.allowed, h.resolvePath, hne, h.there, bind, Except.bind]
  unfold deleteChecked
  simp only [h.writable, h.allowed, hpermission, h.safe, Bool.not_true, Bool.or_self, Bool.false_eq_true, if_false, bind,
    Except.bind, if_true]
  split <;> simp_all

theorem deleteChecked_of_not_target (h : ∀ p, ¬m.DeletionTarget fs path p)
    : (m.deleteChecked fs path delete).2 = fs := by
  unfold deleteChecked
  dsimp only
  split
  . rfl
  . rfl
  . next p htarget => exact absurd (deletionTarget_of_some htarget) (h p)

/--
What a deletion removes for which it returns true.
-/
theorem deletionTarget_of_deleted {fs' : FileSystem} (h : m.deleteChecked fs path delete = (.ok true, fs'))
    : ∃ p, m.DeletionTarget fs path p ∧ delete p = (.ok true, fs') := by
  unfold deleteChecked at h
  dsimp only at h
  split at h
  . simp at h
  . simp at h
  . next p htarget =>
    refine ⟨p, deletionTarget_of_some htarget, ?_⟩
    split at h <;> simp_all

theorem deleteChecked_cases (m : Module) (fs : FileSystem) (path : Bytes)
    : (m.deleteChecked fs path delete).2 = fs
        ∨ ∃ p, m.DeletionTarget fs path p ∧ (m.deleteChecked fs path delete).2 = (delete p).2 := by
  by_cases h : ∃ p, m.DeletionTarget fs path p
  . obtain ⟨p, hp⟩ := h
    exact .inr ⟨p, hp, deleteChecked_of_target delete hp⟩
  . exact .inl (deleteChecked_of_not_target delete (not_exists.mp h))

end deleteChecked

theorem deleteDirectory_cases (m : Module) (fs : FileSystem) (path : Bytes) (recursive : Bool)
    : (m.deleteDirectory fs path recursive).2 = fs
        ∨ ∃ p, m.DeletionTarget fs path p
          ∧ (m.deleteDirectory fs path recursive).2 = (fs.delete recursive p).2 :=
  deleteChecked_cases _ m fs path

/--
A file is deleted as an empty directory is.
-/
theorem deleteFile_cases (m : Module) (fs : FileSystem) (path : Bytes)
    : (m.deleteFile fs path).2 = fs
        ∨ ∃ p, m.DeletionTarget fs path p ∧ fs.isRegularFile p = .ok true
          ∧ (m.deleteFile fs path).2 = (fs.delete false p).2 := by
  unfold deleteFile
  rcases deleteChecked_cases _ m fs path with hsame | ⟨p, htarget, hdelete⟩
  . exact .inl hsame
  . rw [hdelete]
    split
    . next hfile => exact .inr ⟨p, htarget, hfile, rfl⟩
    . exact .inl rfl
    . exact .inl rfl

theorem deleteDirectory_of_target (recursive : Bool) (h : m.DeletionTarget fs path p)
    : (m.deleteDirectory fs path recursive).2 = (fs.delete recursive p).2 :=
  deleteChecked_of_target _ h

section root

variable (hroot : fs.resolve m.config.path = .ok root) (hdir : fs.kind root = some .dir)

include hroot hdir

end root

end Module
end SimpleRsyncd
