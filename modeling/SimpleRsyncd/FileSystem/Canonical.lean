import SimpleRsyncd.FileSystem.Preserve
import SimpleRsyncd.Path.Spelling

/-!
This module contains where a path leads once it was made absolute, stripped of the elements that play no
part or made canonical.
-/

namespace SimpleRsyncd
namespace Resolve

variable {K : Loc → Option Kind} {create : Bool}

theorem resolve_compact (left : Nat) (cur : Loc) (es : List Elem)
    : resolve K false left cur (Path.compact es) = resolve K false left cur es := by
  induction es generalizing left cur with
  | nil => rfl
  | cons e es ih =>
    cases he : e.stays with
    | false =>
      have hfirst : ∀ es, resolve K false left cur (e :: es)
          = (resolve K false left cur [e]).bind fun r => resolve K false r.2 r.1 es :=
        fun es => resolve_append es left cur [e] (.inl rfl)
      rw [Path.compact_cons_of_not_stays he, hfirst, hfirst es]
      simp only [ih]
    | true =>
      have hstay : e = .empty ∨ e = .dot := by cases e <;> simp_all [Elem.stays]
      by_cases hdir : K cur = some .dir
      . by_cases hes : es = []
        . have hcompact : Path.compact [e] = [.empty] := by
            simp [Path.compact, Path.strip, Path.endsInside, he]
          rw [hes, hcompact, resolve_cons_stay hdir hstay, resolve_cons_stay hdir (.inl rfl)]
        . rw [Path.compact_cons_of_stays he hes, resolve_cons_stay hdir hstay, ih]
      . obtain ⟨e', es', hcompact⟩ := List.exists_cons_of_ne_nil (Path.compact_ne_nil (List.cons_ne_nil e es))
        rw [hcompact, resolve_cons_of_not_dir hdir, resolve_cons_of_not_dir hdir]

/--
A missing entry is also missing if more symbolic links may be followed.
-/
theorem resolve_error_mono {left left' : Nat} {cur : Loc} {es : List Elem} {e : Errno} (hle : left ≤ left')
    (he : e ≠ .eloop) (h : resolve K create left cur es = .error e)
    : resolve K create left' cur es = .error e := by
  induction left, cur, es using resolve_induction (K := K) generalizing left' with
  | nil => simp at h
  | not_dir left cur e' es hdir =>
    rw [resolve_cons_of_not_dir hdir] at h ⊢
    exact h
  | stay left cur e' es hdir hstay ih =>
    rw [resolve_cons_stay hdir hstay] at h ⊢
    exact ih hle h
  | dotdot left cur es hdir ih =>
    rw [resolve_cons_dotdot hdir] at h ⊢
    exact ih hle h
  | symlink left cur n target es hdir hn ih =>
    obtain ⟨left', rfl⟩ : ∃ more, left' = more + 1 := ⟨left' - 1, by omega⟩
    rw [resolve_cons_symlink hdir hn] at h ⊢
    exact ih (by omega) h
  | symlink_zero cur n target es hdir hn =>
    rw [resolve_zero_symlink hdir hn] at h
    injection h with h
    exact absurd h.symm he
  | entry left cur n k es hdir hn hk ih =>
    rw [resolve_cons_entry hdir hn hk] at h ⊢
    exact ih hle h
  | none left cur n es hdir hn =>
    rw [resolve_cons_none hdir hn] at h ⊢
    split at h
    . contradiction
    . next hcreate => rw [if_neg hcreate, h]

theorem left_le_of_resolve {left left' : Nat} {cur l : Loc} {es : List Elem}
    (h : resolve K create left cur es = .ok (l, left'))
    : left' ≤ left := by
  induction left, cur, es using resolve_induction (K := K) with
  | nil => simp_all
  | not_dir left cur e es hdir => simp [resolve_cons_of_not_dir hdir] at h
  | stay left cur e es hdir hstay ih =>
    rw [resolve_cons_stay hdir hstay] at h
    exact ih h
  | dotdot left cur es hdir ih =>
    rw [resolve_cons_dotdot hdir] at h
    exact ih h
  | symlink left cur n target es hdir hn ih =>
    rw [resolve_cons_symlink hdir hn] at h
    exact (ih h).trans (Nat.le_succ left)
  | symlink_zero cur n target es hdir hn => simp [resolve_zero_symlink hdir hn] at h
  | entry left cur n k es hdir hn hk ih =>
    rw [resolve_cons_entry hdir hn hk] at h
    exact ih h
  | none left cur n es hdir hn =>
    rw [resolve_cons_none hdir hn] at h
    split at h <;> simp_all

/--
Without `..` the normal form of an absolute path leads to the same place.
-/
theorem resolve_render (htree : IsTree K) (left : Nat) {es : List Elem} (h : .dotdot ∉ es)
    : resolve K false left [] (Path.elems (Path.normalise true es).render) = resolve K false left [] es := by
  obtain ⟨names, hnames⟩ := Path.exists_strip_eq_names h
  rw [← resolve_compact left [] es, Path.normalise_of_notMem true h hnames, Path.elems_render (by simp), Path.compact,
    hnames]
  cases names with
  | cons n names => simp
  | nil =>
    cases Path.endsInside es with
    | false => rfl
    | true => simp [resolve_cons_stay htree.root (.inl rfl)]

/--
The names of an entry that is no symbolic link lead to it.
-/
theorem resolve_names_entry (htree : IsTree K) (create : Bool) (left : Nat) (cur : Loc) {l : Loc} {k : Kind} (es : List Elem)
    (h : K (cur ++ l) = some k) (hk : ∀ target, k ≠ .symlink target)
    : resolve K create left cur (l.map .name ++ es) = resolve K create left (cur ++ l) es := by
  cases l using List.reverseRecOn with
  | nil => simp
  | append_singleton l n =>
    rw [← List.append_assoc] at h ⊢
    have hdir := htree.parent _ _ _ h
    rw [List.map_append, List.append_assoc, resolve_names htree create left _ hdir]
    exact resolve_cons_entry hdir h hk

end Resolve

namespace FileSystem

open Resolve

/--
A symbolic link that leads nowhere.
-/
def Dangling (fs : FileSystem) (p : Bytes) : Prop :=
  fs.isSymlink p = .ok true ∧ fs.exists p = .ok false

variable {fs : FileSystem} {p q a c : Bytes} {l : Loc}

theorem resolveElems_congr (hp : Path.isAbsolute p = true) (hq : Path.isAbsolute q = true) (es : List Elem)
    : fs.resolveElems p es = fs.resolveElems q es := by
  simp [resolveElems, start, hp, hq]

theorem leading_congr_of_prefixes {p' : Bytes} {seen seen' es : List Elem}
    (h : ∀ xs, xs <+: es → fs.resolveElems p (seen ++ xs) = fs.resolveElems p' (seen' ++ xs))
    : fs.leading p seen es = fs.leading p' seen' es := by
  have hseen := h [] List.nil_prefix
  rw [List.append_nil, List.append_nil] at hseen
  induction es generalizing seen seen' with
  | nil => rw [leading, leading, hseen]
  | cons e es ih =>
    have hnext := h [e] (by simp)
    have hrest : fs.leading p (seen ++ [e]) es = fs.leading p' (seen' ++ [e]) es := by
      refine ih ?_ hnext
      intro xs hxs
      rw [List.append_assoc, List.append_assoc]
      exact h (e :: xs) (by simpa using hxs)
    unfold leading
    rw [hseen, hnext, hrest]

theorem leading_congr (hp : Path.isAbsolute p = true) (hq : Path.isAbsolute q = true) (seen es : List Elem)
    : fs.leading p seen es = fs.leading q seen es :=
  leading_congr_of_prefixes fun xs _ => resolveElems_congr hp hq (seen ++ xs)

theorem ne_nil_of_isAbsolute (h : Path.isAbsolute p = true) : p ≠ [] := by
  rintro rfl
  simp [Path.isAbsolute] at h

theorem resolve_of_isAbsolute (h : Path.isAbsolute p = true)
    : fs.resolve p = fs.resolveElems p (Path.elems p) := by
  simp [resolve, ne_nil_of_isAbsolute h]

theorem resolve_eq_of_isAbsolute (h : Path.isAbsolute p = true)
    : fs.resolve p = (SimpleRsyncd.resolve fs.kind false maxSymlinks [] (Path.elems p)).map Prod.fst := by
  rw [resolve_of_isAbsolute h, resolveElems, start, if_pos h]

/--
A path leads to the same place once it is absolute.
-/
theorem resolve_absolute (h : fs.absolute p = .ok a)
    : Path.isAbsolute a = true ∧ fs.resolve a = fs.resolve p := by
  unfold absolute at h
  split at h
  . contradiction
  . next hp =>
    split at h
    . next habs =>
      obtain rfl := Except.ok.inj h
      exact ⟨habs, rfl⟩
    . next habs =>
      split at h
      . next hcwd =>
        obtain rfl := Except.ok.inj h
        have habs' : Path.isAbsolute (Path.append (Path.ofLoc fs.cwd) p) = true :=
          Path.isAbsolute_append (Path.isAbsolute_ofLoc fs.cwd)
        have hrelative : Path.isAbsolute p = false := by simpa using habs
        refine ⟨habs', ?_⟩
        rw [resolve_eq_of_isAbsolute habs', Path.elems_append_ofLoc (by simpa using hp) hrelative,
          resolve_names fs.isTree false maxSymlinks _ (by simpa using hcwd)]
        simp [resolve, hp, resolveElems, start, hrelative]
      . contradiction

/--
A path that leads somewhere starts in a directory.
-/
theorem kind_start_of_resolve_eq_ok (h : fs.resolve p = .ok l) : fs.kind (fs.start p) = some .dir := by
  obtain ⟨hp, left, hresolve⟩ := fs.resolve_eq_ok_iff.mp h
  cases habs : Path.isAbsolute p with
  | true =>
    rw [start, if_pos habs]
    exact fs.isTree.root
  | false =>
    obtain ⟨e, es, helems⟩ := List.exists_cons_of_ne_nil (elems_ne_nil hp habs)
    rw [helems] at hresolve
    exact kind_start_of_resolve hresolve

/--
Symbolic links are followed to the end.
-/
theorem kind_of_resolve_eq_ok (h : fs.resolve p = .ok l) : fs.kind l = some .dir ∨ fs.kind l = some .file := by
  obtain ⟨-, left, hresolve⟩ := fs.resolve_eq_ok_iff.mp h
  exact kind_of_resolve fs.isTree (.inl (kind_start_of_resolve_eq_ok h)) hresolve

theorem resolve_ofLoc {k : Kind} (h : fs.kind l = some k) (hk : ∀ target, k ≠ .symlink target)
    : fs.resolve (Path.ofLoc l) = .ok l := by
  have hentry := resolve_names_entry fs.isTree false maxSymlinks [] [] h hk
  rw [List.append_nil] at hentry
  rw [resolve_eq_of_isAbsolute (Path.isAbsolute_ofLoc l), Path.elems_ofLoc, hentry]
  simp [Except.map]

theorem lresolve_ofLoc (h : fs.kind l ≠ none) : fs.lresolve (Path.ofLoc l) = .ok l := by
  cases l using List.reverseRecOn with
  | nil => exact resolve_ofLoc fs.isTree.root (by simp)
  | append_singleton d n =>
    obtain ⟨k, hk⟩ := Option.ne_none_iff_exists'.mp h
    have hdir := fs.isTree.parent _ _ _ hk
    have hparent : fs.resolveElems (Path.ofLoc (d ++ [n])) (d.map .name) = .ok d := by
      have hnames := resolve_names_entry fs.isTree false maxSymlinks [] [] hdir (by simp)
      rw [List.append_nil] at hnames
      simp [resolveElems, start, Path.isAbsolute_ofLoc, hnames, Except.map]
    simp [lresolve, hparent, hdir, h, bind, Except.bind]

/--
Behind a location at which no symbolic link is left, what cannot be resolved cannot be resolved from the start.
-/
theorem resolve_render_of_error {left : Nat} {d : Loc} {e : Elem} {es : List Elem} {k : Kind} {err : Errno}
    (hk : fs.kind d = some k) (hlink : ∀ target, k ≠ .symlink target) (hdots : .dotdot ∉ e :: es)
    (hleft : left ≤ maxSymlinks) (herr : err ≠ .eloop)
    (hfails : SimpleRsyncd.resolve fs.kind false left d (e :: es) = .error err)
    : fs.resolve (Path.normalise true (d.map .name ++ e :: es)).render = .error err := by
  have hdots' : .dotdot ∉ d.map Elem.name ++ e :: es := by
    rw [List.mem_append, not_or]
    exact ⟨by simp, hdots⟩
  have habs := Path.isAbsolute_render (Path.normalise_absolute true (d.map Elem.name ++ e :: es))
  rw [resolve_eq_of_isAbsolute habs, resolve_render fs.isTree _ hdots',
    resolve_names_entry fs.isTree _ _ [] _ hk hlink, List.nil_append, resolve_error_mono hleft herr hfails]
  rfl

/--
A path without `..` that was made canonical and leads somewhere is the path of the location it leads to.
-/
theorem eq_ofLoc_of_weaklyCanonical (habs : Path.isAbsolute p = true) (hdots : .dotdot ∉ Path.elems p)
    (hcanonical : fs.weaklyCanonical p = .ok c) (hc : fs.resolve c = .ok l)
    : c = Path.ofLoc l ∧ fs.resolve p = .ok l := by
  unfold weaklyCanonical at hcanonical
  cases hleading : fs.leading p [] (Path.elems p) with
  | error => simp [hleading, bind, Except.bind] at hcanonical
  | ok r =>
    obtain ⟨d, es⟩ := r
    obtain ⟨xs, helems, hxs, hmissing⟩ := leading_cases hleading
    simp only [hleading, bind, Except.bind, Except.ok.injEq] at hcanonical
    rw [List.nil_append] at hxs
    obtain ⟨left, hxs⟩ := fs.resolveElems_eq_ok_iff.mp hxs
    rw [start, if_pos habs] at hxs
    have hd := kind_of_resolve fs.isTree (.inl fs.isTree.root) hxs
    obtain ⟨k, hk, hlink⟩ : ∃ k, fs.kind d = some k ∧ ∀ target, k ≠ .symlink target := by
      rcases hd with hd | hd
      . exact ⟨.dir, hd, by simp⟩
      . exact ⟨.file, hd, by simp⟩
    cases es with
    | nil =>
      rw [List.append_nil, Path.normalise_names] at hcanonical
      obtain rfl : Path.ofLoc d = c := by simpa [Path.Normal.render] using hcanonical
      rw [resolve_ofLoc hk hlink] at hc
      obtain rfl := Except.ok.inj hc
      refine ⟨rfl, ?_⟩
      rw [resolve_eq_of_isAbsolute habs, helems, List.append_nil, hxs]
      rfl
    | cons e es =>
      exfalso
      have hdots' : .dotdot ∉ e :: es := fun hmem => hdots (helems ▸ List.mem_append_right _ hmem)
      obtain ⟨err, herr, hfails⟩ : ∃ err, err ≠ Errno.eloop
          ∧ SimpleRsyncd.resolve fs.kind false left d (e :: es) = .error err := by
        have hwhole := hmissing (by simp)
        rw [List.nil_append, helems, resolveElems, start, if_pos habs, resolve_append _ _ _ _ (.inl rfl), hxs] at hwhole
        simp only [Except.bind] at hwhole
        cases hrest : SimpleRsyncd.resolve fs.kind false left d (e :: es) with
        | error err => exact ⟨err, by rintro rfl; simp [hrest, Except.map] at hwhole, rfl⟩
        | ok r => simp [hrest, Except.map] at hwhole
      rw [← hcanonical, resolve_render_of_error hk hlink hdots' (left_le_of_resolve hxs) herr hfails] at hc
      contradiction

end FileSystem
end SimpleRsyncd
