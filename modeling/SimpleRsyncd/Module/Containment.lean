import SimpleRsyncd.FileSystem.Create
import SimpleRsyncd.Module.Basic

/-!
This module determines when a path that `Module.resolvePath` returns lies in the root directory of
the module. The two string prefix checks of `resolvePath` are not directory prefix checks, so a
request can end up in a directory whose name merely starts like that of the root.
-/

namespace SimpleRsyncd
namespace Module

variable (m : Module) (fs : FileSystem)

/--
What a request path has to pass in `resolvePath` before symbolic links are resolved.
-/
structure Admitted (path baseAbsolute resolvedAbsolute : Bytes) : Prop where
  base : fs.absolute m.config.path = .ok baseAbsolute
  resolved : fs.absolute (m.joinPath path) = .ok resolvedAbsolute
  below : baseAbsolute <+: resolvedAbsolute
  noDots : ¬dotDot <:+: resolvedAbsolute
  linkFree : m.linkFree fs baseAbsolute path = .ok true

variable {m fs}

theorem resolvePath_eq_ok_iff {path p : Bytes} (hpath : path ≠ []) (hp : p ≠ [])
    : m.resolvePath fs path = .ok p
        ↔
      ∃ base resolved, m.Admitted fs path base resolved ∧ checkCanonical fs base resolved = p := by
  have hempty : path.isEmpty = false := by simpa using hpath
  constructor
  . intro h
    simp only [resolvePath, hempty, Bool.false_eq_true, ↓reduceIte, bind, Except.bind] at h
    split at h
    . contradiction
    . next base hbase =>
      split at h
      . contradiction
      . next resolved hresolved =>
        split at h
        . simp_all
        . split at h
          . simp_all
          . next hbelow hdots =>
            split at h
            . contradiction
            . next hfree =>
              split at h
              . subst_vars
                exact ⟨base, resolved, ⟨hbase, hresolved, by simpa using hbelow,
                  by simpa using hdots, hfree⟩, by simpa using h⟩
              . simp_all
  . rintro ⟨base, resolved, hadm, hcheck⟩
    have hbelow : Bytes.startsWith resolved base = true := by simpa using hadm.below
    have hdots : Bytes.contains resolved dotDot = false := by
      simpa [Bytes.contains] using hadm.noDots
    simp [resolvePath, hempty, hadm.base, hadm.resolved, hbelow, hdots, hadm.linkFree, hcheck, bind,
      Except.bind]

theorem isPathSafe_eq_true_iff {path : Bytes}
    : m.isPathSafe fs path = .ok true
        ↔
      ¬dotDot <:+: path ∧ ∃ p, m.resolvePath fs path = .ok p ∧ p ≠ [] := by
  have hslash : bytes "/../" <:+: path → dotDot <:+: path :=
    fun h => List.IsInfix.trans (by decide) h
  have hpre : bytes "../" <+: path → dotDot <:+: path :=
    fun h => List.IsInfix.trans (by decide) h.isInfix
  unfold isPathSafe isPathTraversal
  by_cases hdots : dotDot <:+: path
  . simp [Bytes.contains, hdots, bind, Except.bind]
  . have h1 : ¬bytes "/../" <:+: path := fun h => hdots (hslash h)
    have h2 : ¬bytes "../" <+: path := fun h => hdots (hpre h)
    cases hres : m.resolvePath fs path with
    | error => simp [Bytes.contains, Bytes.startsWith, hdots, h1, h2, bind, Except.bind]
    | ok p => cases p <;> simp [Bytes.contains, Bytes.startsWith, hdots, h1, h2, bind, Except.bind]

theorem checkCanonical_eq_iff {base resolved p : Bytes} (hp : p ≠ [])
    : checkCanonical fs base resolved = p
        ↔
      (∃ b, fs.weaklyCanonical base = .ok b ∧ fs.weaklyCanonical resolved = .ok p ∧ b <+: p)
        ∨ (∀ b c, ¬(fs.weaklyCanonical base = .ok b ∧ fs.weaklyCanonical resolved = .ok c))
          ∧ resolved = p := by
  unfold checkCanonical
  cases hr : fs.weaklyCanonical resolved with
  | error => simp
  | ok c =>
    cases hb : fs.weaklyCanonical base with
    | error => simp
    | ok b =>
      by_cases hpre : b <+: c
      . simp [Bytes.startsWith, hpre]
        grind
      . simp [Bytes.startsWith, hpre]
        grind

/--
A location in the root directory of the module.
-/
def InRoot (m : Module) (fs : FileSystem) (l : Loc) : Prop :=
  ∃ base root, fs.absolute m.config.path = .ok base ∧ fs.location base = .ok root ∧ root <+: l

theorem InRoot.mono {l l' : Loc} (h : m.InRoot fs l) (hpre : l <+: l') : m.InRoot fs l' := by
  obtain ⟨base, root, hbase, hroot, hbelow⟩ := h
  exact ⟨base, root, hbase, hroot, hbelow.trans hpre⟩

/--
Every path that `resolvePath` returns for a safe request lies in `base`.
-/
def Contains (m : Module) (fs : FileSystem) (base path : Bytes) : Prop :=
  ∀ p, m.resolvePath fs path = .ok p → p ≠ [] → m.isPathSafe fs path = .ok true →
    Path.IsWithin base p

/--
The requests that lead out of `base`: the empty path if the root is not written in canonical form,
and an admitted path which leads to a look-alike of the root or which cannot be made canonical and
is not below the root as it is written.
-/
def Escapes (m : Module) (fs : FileSystem) (base path : Bytes) : Prop :=
  (path = [] ∧ ¬Path.IsWithin base m.config.path)
    ∨ (path ≠ [] ∧ ¬dotDot <:+: path
      ∧ ∃ root resolved, m.Admitted fs path root resolved
        ∧ ((∃ p, fs.weaklyCanonical resolved = .ok p ∧ Path.LookAlike base p)
          ∨ (∃ e, fs.weaklyCanonical resolved = .error e) ∧ ¬Path.IsWithin base resolved))

theorem contains_nil_iff {base : Bytes} (habs : Path.isAbsolute m.config.path)
    : m.Contains fs base [] ↔ Path.IsWithin base m.config.path := by
  have hres : m.resolvePath fs [] = .ok m.config.path := rfl
  have hne : m.config.path ≠ [] := by
    intro h
    simp [Path.isAbsolute, h] at habs
  have hsafe : m.isPathSafe fs [] = .ok true := by
    rw [isPathSafe_eq_true_iff]
    exact ⟨by decide, _, hres, hne⟩
  constructor
  . intro h
    exact h _ hres hne hsafe
  . intro h p hp _ _
    rw [hres, Except.ok.injEq] at hp
    rwa [← hp]

theorem not_contains_of_escapes {base path : Bytes} (hpath : path ≠ [])
    (habs : Path.isAbsolute m.config.path) (hbase : fs.canonical m.config.path = .ok base)
    (h : m.Escapes fs base path)
    : ¬m.Contains fs base path := by
  obtain ⟨l, rfl⟩ := fs.canonical_eq_ofLoc hbase
  have hweak := fs.weaklyCanonical_of_canonical hbase
  rcases h with ⟨rfl, -⟩ | ⟨-, hdots, root, resolved, hadm, hkind⟩
  . contradiction
  . have hroot : m.config.path = root := by
      simpa [fs.absolute_of_isAbsolute habs] using hadm.base
    subst hroot
    intro hcontains
    -- the target is taken either for its spelling or because it could not be made canonical
    rcases hkind with ⟨p, hp, hlook⟩ | ⟨⟨e, he⟩, hout⟩
    . have hpne : p ≠ [] := by
        rintro rfl
        have := List.prefix_nil.mp hlook.2.1
        simpa [this, Path.isAbsolute] using Path.isAbsolute_ofLoc l
      have hres : m.resolvePath fs path = .ok p := by
        rw [resolvePath_eq_ok_iff hpath hpne]
        refine ⟨_, _, hadm, ?_⟩
        rw [checkCanonical_eq_iff hpne]
        exact .inl ⟨_, hweak, hp, hlook.2.1⟩
      have hsafe := isPathSafe_eq_true_iff.mpr ⟨hdots, p, hres, hpne⟩
      exact Path.not_isWithin_of_lookAlike hlook (hcontains p hres hpne hsafe)
    . have hrne : resolved ≠ [] := by
        rintro rfl
        have := List.prefix_nil.mp hadm.below
        simp [this, Path.isAbsolute] at habs
      have hres : m.resolvePath fs path = .ok resolved := by
        rw [resolvePath_eq_ok_iff hpath hrne]
        refine ⟨_, _, hadm, ?_⟩
        rw [checkCanonical_eq_iff hrne]
        exact .inr ⟨by simp [he], rfl⟩
      have hsafe := isPathSafe_eq_true_iff.mpr ⟨hdots, resolved, hres, hrne⟩
      exact hout (hcontains resolved hres hrne hsafe)

theorem contains_of_not_escapes {base path : Bytes} (hpath : path ≠ [])
    (habs : Path.isAbsolute m.config.path) (hbase : fs.canonical m.config.path = .ok base)
    (h : ¬m.Escapes fs base path)
    : m.Contains fs base path := by
  obtain ⟨l, rfl⟩ := fs.canonical_eq_ofLoc hbase
  have hweak := fs.weaklyCanonical_of_canonical hbase
  intro p hp hpne hsafe
  have hdots := (isPathSafe_eq_true_iff.mp hsafe).1
  obtain ⟨root, resolved, hadm, hcheck⟩ := (resolvePath_eq_ok_iff hpath hpne).mp hp
  have hroot : m.config.path = root := by
    simpa [fs.absolute_of_isAbsolute habs] using hadm.base
  subst hroot
  rcases (checkCanonical_eq_iff hpne).mp hcheck with ⟨b, hb, hcanon, hpre⟩ | ⟨hthrows, rfl⟩
  . rw [hweak, Except.ok.injEq] at hb
    subst hb
    rw [Path.isWithin_iff_not_lookAlike hpre]
    intro hlook
    exact h (.inr ⟨hpath, hdots, _, _, hadm, .inl ⟨p, hcanon, hlook⟩⟩)
  . by_contra hout
    cases hcanon : fs.weaklyCanonical resolved with
    | ok c => exact hthrows _ _ ⟨hweak, hcanon⟩
    | error e => exact h (.inr ⟨hpath, hdots, _, _, hadm, .inr ⟨⟨e, hcanon⟩, hout⟩⟩)

/--
A module whose root is an absolute path to an existing directory contains every request but those
that escape in one of the three ways.
-/
theorem contains_iff_not_escapes {base path : Bytes} (habs : Path.isAbsolute m.config.path)
    (hbase : fs.canonical m.config.path = .ok base)
    : m.Contains fs base path ↔ ¬m.Escapes fs base path := by
  by_cases hpath : path = []
  . subst hpath
    rw [contains_nil_iff habs]
    simp [Escapes]
  . constructor
    . intro hcontains hescapes
      exact not_contains_of_escapes hpath habs hbase hescapes hcontains
    . exact contains_of_not_escapes hpath habs hbase

/--
The root `/mod` of a module next to a directory whose name continues that of the root.
-/
def siblings : FileSystem :=
  { entries := [(⟨bytes "mod", by decide⟩, .dir []), (⟨bytes "module2", by decide⟩, .dir [])] }

def sibling : Module := { config := { path := bytes "/mod" } }

theorem contains_sibling : sibling.Contains siblings (bytes "/mod") (bytes "a") := by
  refine (contains_iff_not_escapes (by decide) (by decide)).mpr ?_
  have hresolved : siblings.absolute (sibling.joinPath (bytes "a")) = .ok (bytes "/mod/a") := by
    decide
  have hcanonical : siblings.weaklyCanonical (bytes "/mod/a") = .ok (bytes "/mod/a") := by decide
  rintro (⟨hempty, -⟩ | ⟨-, -, root, resolved, hadm, hkind⟩)
  . exact absurd hempty (by decide)
  . obtain rfl := Except.ok.inj (hadm.resolved.symm.trans hresolved)
    rcases hkind with ⟨p, hp, hlook⟩ | ⟨⟨e, he⟩, -⟩
    . obtain rfl := Except.ok.inj (hp.symm.trans hcanonical)
      exact absurd hlook (by decide)
    . rw [hcanonical] at he
      contradiction

/--
An absolute request path replaces the root, and `/module2` starts like `/mod`.
-/
theorem not_contains_sibling : ¬sibling.Contains siblings (bytes "/mod") (bytes "/module2/a") := by
  intro hcontains
  have hwithin := hcontains (bytes "/module2/a") (by decide +kernel) (by decide +kernel) (by decide +kernel)
  exact absurd hwithin (by decide)

end Module
end SimpleRsyncd
