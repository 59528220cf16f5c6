import SimpleRsyncd.FileSystem.Preserve
import SimpleRsyncd.Module.Containment
import SimpleRsyncd.Module.Operation

/-!
This module determines which files of a module a transfer overwrites. Neither the check for write
permission, which opens and removes a test file, nor the copy asks whether the module allows it.
-/

namespace SimpleRsyncd
namespace Module

/--
The directory in which `checkWritePermission` makes its test file.
-/
def testDirectory (m : Module) (fs : FileSystem) (path : Bytes) : Except Errno (Option Bytes) := do
  if m.isReadOnly then
    .ok none
  else
    let resolved ← m.resolvePath fs path
    if resolved.isEmpty then
      .ok none
    else
      let parent := Path.parentPath resolved
      if parent.isEmpty then
        .ok (some m.config.path)
      else if ← fs.exists parent then
        .ok (some parent)
      else
        .ok (some m.config.path)

def testPath (dir : Bytes) : Bytes :=
  Path.append dir (bytes ".rsyncd_write_test")

variable {m : Module} {host : Host} {fs : FileSystem} {path localPath remotePath : Bytes} {overwrite : Bool}
  {l : Loc} {old : Bytes}

theorem checkWritePermission_eq
    : m.checkWritePermission host fs path
        =
      match m.testDirectory fs path with
      | .error e => (.error e, fs)
      | .ok none => (.ok false, fs)
      | .ok (some dir) =>
        match host.canWrite (testPath dir), fs.openWrite (testPath dir) with
        | true, .ok (fs, _) =>
          match fs.removePath (testPath dir) with
          | (.error e, fs) => (.error e, fs)
          | (.ok _, fs) => (.ok true, fs)
        | _, _ => (.ok false, fs) := rfl

theorem testPath_ne_nil (dir : Bytes) : testPath dir ≠ [] := by
  unfold testPath Path.append
  split
  . decide
  . split <;> simp [bytes]

/--
A file that the check opens is empty or gone after it.
-/
theorem not_data_checkWritePermission {dir : Bytes} (hold : fs.data l = some old) (hne : old ≠ [])
    (hdir : m.testDirectory fs path = .ok (some dir)) (hwrite : host.canWrite (testPath dir) = true)
    (hleads : fs.resolve (testPath dir) = .ok l)
    : (m.checkWritePermission host fs path).2.data l ≠ some old := by
  have hopen := FileSystem.openWrite_of_resolve hleads hold
  have hempty := (FileSystem.writes_of_openWrite (testPath_ne_nil dir) hopen).1.content
  rw [checkWritePermission_eq, hdir]
  simp only [hwrite, hopen]
  intro hsame
  have hremove : ((fs.put l (.file [])).removePath (testPath dir)).2.data l = some old := by
    split at hsame <;> simp_all
  have hbefore := FileSystem.data_of_removePath hremove
  rw [hempty] at hbefore
  exact hne (Option.some.inj hbefore).symm

/--
The transfer gets as far as to replace the file at `l`.
-/
def Replaces (m : Module) (host : Host) (fs : FileSystem) (localPath remotePath : Bytes) (overwrite : Bool)
    (l : Loc) (content : Bytes) : Prop :=
  ∃ fs₁ fullPath fs₂ made, m.checkWritePermission host fs remotePath = (.ok true, fs₁)
    ∧ m.resolveSafe fs₁ remotePath = .ok (some fullPath)
    ∧ fs₁.createParent fullPath = .ok (fs₂, made)
    ∧ fs₂.Replaces (host.canRead localPath) (host.canWrite fullPath) localPath fullPath overwrite l content

theorem resolveSafe_ne_nil {fullPath : Bytes} (h : m.resolveSafe fs path = .ok (some fullPath))
    : fullPath ≠ [] := by
  unfold resolveSafe at h
  rintro rfl
  cases hresolve : m.resolvePath fs path with
  | error => simp [hresolve, bind, Except.bind] at h
  | ok p =>
    simp only [hresolve, bind, Except.bind] at h
    split at h
    . simp at h
    . next hempty =>
      split at h
      . contradiction
      . split at h <;> simp_all

end Module
end SimpleRsyncd
