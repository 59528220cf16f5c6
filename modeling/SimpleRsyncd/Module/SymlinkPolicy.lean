import SimpleRsyncd.FileSystem.Canonical
import SimpleRsyncd.Module.Containment

/-!
This module determines which symbolic links get past a module that does not allow them. The walk over the
components of a request only asks of those that exist whether they are links, and a link that leads nowhere
does not exist to it.
-/

namespace SimpleRsyncd
namespace Module

/--
The components that `symlinkWalk` looks at.
-/
def walked (walk : Bytes) : List Bytes → List Bytes
  | [] => []
  | part :: parts =>
    if part = bytes "." || part.isEmpty then
      walked walk parts
    else
      Path.append walk part :: walked (Path.append walk part) parts

/--
`p` continues `base` by at least one name.
-/
def IsBelow (base p : Bytes) : Prop :=
  ∃ e es, Path.strip (Path.elems p) = Path.strip (Path.elems base) ++ e :: es

/--
The components below the root on the way to the requested entry, the entry included.
-/
def IsComponent (m : Module) (fs : FileSystem) (path component : Bytes) : Prop :=
  ∃ base, fs.absolute m.config.path = .ok base ∧ component ∈ walked base (Path.elements path) ∧ IsBelow base component

/--
A request that is resolved has no symbolic link among its components.
-/
def LinkFree (m : Module) (fs : FileSystem) (path : Bytes) : Prop :=
  ∀ p, m.resolvePath fs path = .ok p → p ≠ [] → ∀ component, m.IsComponent fs path component →
    fs.isSymlink component ≠ .ok true

variable {m : Module} {fs : FileSystem} {path : Bytes}

theorem symlinkWalk_eq_true {walk : Bytes} {parts : List Bytes} (h : symlinkWalk fs walk parts = .ok true)
    : ∀ component ∈ walked walk parts,
        fs.exists component = .ok false ∨ fs.exists component = .ok true ∧ fs.isSymlink component = .ok false := by
  induction parts generalizing walk with
  | nil => simp [walked]
  | cons part parts ih =>
    unfold symlinkWalk at h
    unfold walked
    split
    . next hskip =>
      rw [if_pos hskip] at h
      exact ih h
    . next hskip =>
      rw [if_neg hskip] at h
      split at h
      . contradiction
      . simp only [bind, Except.bind] at h
        split at h
        . contradiction
        . next there hthere =>
          -- a component that does not exist is passed without being asked for a link
          cases there with
          | false =>
            simp only [Bool.false_eq_true, if_false] at h
            exact List.forall_mem_cons.mpr ⟨.inl hthere, ih h⟩
          | true =>
            simp only [if_true] at h
            split at h
            . contradiction
            . next link hlink =>
              cases link with
              | false =>
                simp only [Bool.false_eq_true, if_false] at h
                exact List.forall_mem_cons.mpr ⟨.inr ⟨hthere, hlink⟩, ih h⟩
              | true => simp at h

/--
The links among the components of an admitted path are those that lead nowhere.
-/
theorem isSymlink_iff_dangling {base resolved component : Bytes} (hpolicy : m.config.allowSymlinks = false)
    (hadm : m.Admitted fs path base resolved) (hcomponent : m.IsComponent fs path component)
    : fs.isSymlink component = .ok true ↔ fs.Dangling component := by
  obtain ⟨base', hbase, hmem, -⟩ := hcomponent
  obtain rfl := Except.ok.inj (hadm.base.symm.trans hbase)
  have hwalk : symlinkWalk fs base (Path.elements path) = .ok true := by
    simpa [linkFree, hpolicy] using hadm.linkFree
  rcases symlinkWalk_eq_true hwalk component hmem with hmissing | ⟨-, hlink⟩
  . simp [FileSystem.Dangling, hmissing]
  . simp [FileSystem.Dangling, hlink]

/--
No symbolic link gets past the policy if and only if no component of a path that passes the checks is a link
that leads nowhere.
-/
theorem linkFree_iff (hpolicy : m.config.allowSymlinks = false)
    : m.LinkFree fs path
        ↔
      ∀ base resolved, m.Admitted fs path base resolved → checkCanonical fs base resolved ≠ [] →
        ∀ component, m.IsComponent fs path component → ¬fs.Dangling component := by
  by_cases hpath : path = []
  . have hnone : ∀ component, ¬m.IsComponent fs path component := by
      rintro component ⟨base, -, hmem, -⟩
      simp [hpath, Path.elements, Path.elems, Path.pieces, Path.isAbsolute, Path.hasTrailingSlash, walked] at hmem
    constructor
    . intro _ base resolved _ _ component hcomponent
      exact absurd hcomponent (hnone component)
    . intro _ p _ _ component hcomponent
      exact absurd hcomponent (hnone component)
  . constructor
    . intro hfree base resolved hadm hcanonical component hcomponent hdangling
      have hresolve := (resolvePath_eq_ok_iff hpath hcanonical).mpr ⟨base, resolved, hadm, rfl⟩
      exact hfree _ hresolve hcanonical component hcomponent hdangling.1
    . intro hdangling p hresolve hp component hcomponent hlink
      obtain ⟨base, resolved, hadm, rfl⟩ := (resolvePath_eq_ok_iff hpath hp).mp hresolve
      exact hdangling base resolved hadm hp component hcomponent
        ((isSymlink_iff_dangling hpolicy hadm hcomponent).mp hlink)

/--
The root `/m` of a module, with a symbolic link in it.
-/
def linked (target : Bytes) : FileSystem :=
  { entries := [(⟨bytes "m", isName_m⟩, .dir [(⟨bytes "m", isName_m⟩, .symlink target)])] }

theorem linkFree_single : (Module.mk { path := bytes "/m" }).LinkFree (linked (bytes "/gone")) (bytes "f") := by
  refine (linkFree_iff rfl).mpr ?_
  rintro _ _ - - component ⟨base, hbase, hmem, -⟩
  obtain rfl : bytes "/m" = base := Except.ok.inj hbase
  have hwalked : walked (bytes "/m") (Path.elements (bytes "f")) = [bytes "/m/f"] := by decide
  obtain rfl : component = bytes "/m/f" := by simpa [hwalked] using hmem
  rintro ⟨hlink, -⟩
  revert hlink
  decide

/--
A link that leads nowhere is returned.
-/
theorem not_linkFree_single : ¬(Module.mk { path := bytes "/m" }).LinkFree (linked (bytes "/gone")) (bytes "m") := by
  intro hfree
  refine hfree (bytes "/m/m") (by decide) (by decide) (bytes "/m/m") ?_ (by decide)
  exact ⟨bytes "/m", by decide, by decide, .name ⟨bytes "m", isName_m⟩, [], by decide⟩

end Module
end SimpleRsyncd
