import SimpleRsyncd.FileSystem.Canonical
import SimpleRsyncd.Session.Transfer

/-!
This module contains how the temporary file of an upload is created: its full path, the directories
that are missing on the way, and where the file that is opened lies.
-/

namespace SimpleRsyncd

open Resolve

namespace FileSystem

variable {fs fs₁ fs₂ : FileSystem} {p : Bytes}

/--
An absolute path to a file `n`, together with its parent path. All of the elements that can be
missing on the way to it are names.
-/
structure IsFilePath (fs : FileSystem) (p : Bytes) (parent : List Elem) (n : Name) : Prop where
  absolute : Path.isAbsolute p = true
  absoluteParent : Path.isAbsolute (Path.parentPath p) = true
  elems : Path.elems p = parent ++ [.name n]
  elemsParent : Path.elems (Path.parentPath p) = parent
  missing : ∀ l rest, fs.leading p [] parent = .ok (l, rest) → ∃ names : Loc, rest = names.map .name

theorem isFilePath_fullPath {base : Loc} (ups : Nat) (names : Loc) (n : Name)
    (hbase : fs.kind base = some .dir)
    : fs.IsFilePath (Path.fullPath base ups names n) (Path.fullParent base ups names) n where
  absolute := Path.isAbsolute_fullPath ..
  absoluteParent := Path.isAbsolute_parentPath_fullPath ..
  elems := Path.elems_fullPath ..
  elemsParent := Path.elems_parentPath_fullPath ..
  missing := by
    intro l rest h
    have habs := Path.isAbsolute_fullPath base ups names n
    generalize Path.fullPath base ups names n = p at h habs
    obtain ⟨d, -, hups⟩ := resolve_dotdots fs.isTree false maxSymlinks ups hbase
    have hfound : fs.resolveElems p ([] ++ (base.map .name ++ List.replicate ups .dotdot)) = .ok d := by
      have hnames := resolve_names fs.isTree false maxSymlinks (List.replicate ups .dotdot)
        (List.nil_append base ▸ hbase)
      simp [resolveElems, start, habs, hnames, hups, Except.map]
    rw [Path.fullParent, leading_append_of_resolveElems _ hfound] at h
    obtain ⟨xs, hxs, -⟩ := leading_cases h
    obtain ⟨-, names', -, -, hrest⟩ := List.map_eq_append_iff.mp hxs
    exact ⟨names', hrest.symm⟩

theorem exists_of_resolve {l : Loc} (h : fs.resolve p = .ok l) : fs.exists p = .ok true := by
  rw [«exists», h]

variable {parent : List Elem} {n : Name} {made : List Loc}

theorem IsFilePath.resolve_parentPath (h : fs.IsFilePath p parent n)
    : fs.resolve (Path.parentPath p) = fs.resolveElems p parent := by
  rw [resolve_of_isAbsolute h.absoluteParent, h.elemsParent, resolveElems_congr h.absoluteParent h.absolute]

theorem IsFilePath.leading_parentPath (h : fs.IsFilePath p parent n)
    : fs.leading (Path.parentPath p) [] (Path.elems (Path.parentPath p)) = fs.leading p [] parent := by
  rw [h.elemsParent, leading_congr h.absoluteParent h.absolute]

theorem IsFilePath.isEmpty_parentPath (h : fs.IsFilePath p parent n)
    : (Path.parentPath p).isEmpty = false := by
  rw [List.isEmpty_eq_false_iff]
  intro hnil
  have := h.absoluteParent
  simp [hnil, Path.isAbsolute] at this

/--
The parent directory is either there, or created from its first missing element on.
-/
theorem createParent_cases (hfile : fs.IsFilePath p parent n) (h : fs.createParent p = .ok (fs₁, made))
    : (∃ d, fs.resolveElems p parent = .ok d ∧ fs₁ = fs ∧ made = [])
        ∨ ∃ d m names, fs.leading p [] parent = .ok (d, (m :: names).map .name)
          ∧ fs.Makes d m names fs₁ made := by
  have hempty := hfile.isEmpty_parentPath
  simp only [createParent, hempty, Bool.false_eq_true, ↓reduceIte, «exists», createDirectories,
    hfile.resolve_parentPath, hfile.leading_parentPath, bind, Except.bind] at h
  cases hresolve : fs.resolveElems p parent with
  | ok d =>
    simp only [hresolve, ↓reduceIte, Except.ok.injEq, Prod.mk.injEq] at h
    exact .inl ⟨d, rfl, h.1.symm, h.2.symm⟩
  | error e =>
    have hmkdirs : ∃ d rest, fs.leading p [] parent = .ok (d, rest) ∧ fs.mkdirs d rest = .ok (fs₁, made) := by
      cases hleading : fs.leading p [] parent with
      | error => cases e <;> simp [hresolve, hleading] at h
      | ok r =>
        obtain ⟨d, rest⟩ := r
        refine ⟨d, rest, rfl, ?_⟩
        cases e <;> simp [hresolve, hleading] at h <;> exact h
    obtain ⟨d, rest, hleading, hmkdirs⟩ := hmkdirs
    obtain ⟨names, rfl⟩ := hfile.missing _ _ hleading
    cases names with
    | nil =>
      obtain ⟨xs, hxs, hfound, -⟩ := leading_cases hleading
      obtain rfl : parent = xs := by simpa using hxs
      rw [List.nil_append, hresolve] at hfound
      contradiction
    | cons m names => exact .inr ⟨d, m, names, hleading, .of_mkdirs hmkdirs⟩

theorem isSymlink_of_missing (hfile : fs.IsFilePath p parent n) {e : Errno}
    (h : fs.resolveElems p parent = .error e)
    : fs.isSymlink p ≠ .ok true := by
  unfold isSymlink lresolve
  simp only [hfile.elems, List.getLast?_concat, List.dropLast_concat, h, bind, Except.bind]
  cases e <;> simp

/--
The parent directory of the file has just been created.
-/
theorem opened_of_makes {d l : Loc} {m : Name} {names : Loc} (hfile : fs.IsFilePath p parent n)
    (hleading : fs.leading p [] parent = .ok (d, (m :: names).map .name))
    (hmakes : fs.Makes d m names fs₁ made) (hopen : fs₁.openWrite p = .ok (fs₂, l))
    : fs.location p = .ok l ∧ fs.weaklyCanonical p = .ok (Path.ofLoc l) ∧ ¬fs.Dangling p := by
  obtain ⟨xs, hxs, hfound, hmissing⟩ := leading_cases hleading
  obtain ⟨⟨left, hresolve⟩, -, -⟩ := openWrite_eq_ok_iff.mp hopen
  have hfound₁ : fs₁.resolveElems p parent = .ok (d ++ m :: names) := by
    rw [resolveElems, List.nil_append] at hfound
    cases hd : SimpleRsyncd.resolve fs.kind false maxSymlinks (fs.start p) xs with
    | error => simp [hd, Except.map] at hfound
    | ok r =>
      obtain ⟨d', left'⟩ := r
      obtain rfl : d' = d := by simpa [hd, Except.map] using hfound
      have hstart : fs₁.start p = fs.start p := by simp [start, hmakes.cwd]
      have hd₁ := Resolve.resolve_mono hmakes.mono hd
      have hnames := resolve_names fs₁.isTree false left' [] hmakes.last
      rw [List.append_nil] at hnames
      rw [resolveElems, hxs, hstart, resolve_append _ _ _ _ (.inl rfl), hd₁]
      simp only [Except.bind, hnames, resolve_nil, Except.map]
  obtain ⟨left', hlast⟩ := resolve_concat hfound₁ (.name n)
  rw [hfile.elems, hlast, resolve_cons_none hmakes.last (hmakes.fresh n)] at hresolve
  simp only [List.isEmpty_nil, Bool.and_self, ↓reduceIte, Except.ok.injEq, Prod.mk.injEq] at hresolve
  obtain ⟨rfl, -⟩ := hresolve
  have hwhole : fs.leading p [] (Path.elems p) = .ok (d, List.map .name (m :: names ++ [n])) := by
    rw [hfile.elems, leading_append_of_ne_nil _ hleading (by simp)]
    simp
  obtain ⟨hlocation, hcanonical⟩ := location_of_leading hwhole
  rw [← List.append_assoc] at hlocation hcanonical
  refine ⟨hlocation, hcanonical, ?_⟩
  rintro ⟨hlink, -⟩
  rcases hmissing (by simp) with herror | herror <;> exact isSymlink_of_missing hfile herror hlink

/--
All in all, creating the file adds directories and leaves it empty.
-/
theorem writes_opened {l : Loc} (hfile : fs.IsFilePath p parent n)
    (hparent : fs.createParent p = .ok (fs₁, made)) (hopen : fs₁.openWrite p = .ok (fs₂, l))
    : fs.Writes fs₂ l [] ∧ fs₂.resolve p = .ok l := by
  obtain ⟨hwrites, hleads⟩ := writes_openWrite hfile.absolute hopen
  rw [resolve_of_isAbsolute hfile.absolute]
  refine ⟨?_, hleads⟩
  rcases createParent_cases hfile hparent with ⟨d, hfound, rfl, -⟩ | ⟨d, m, names, hleading, hmakes⟩
  . exact hwrites
  . exact {
      cwd := hwrites.cwd.trans hmakes.cwd
      mono := fun l k hk => hwrites.mono l k (hmakes.mono l k hk)
      content := hwrites.content
      keeps := fun l' old hne hold => hwrites.keeps l' old hne (hmakes.keeps hold)
    }

end FileSystem
end SimpleRsyncd
