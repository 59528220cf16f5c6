import SimpleRsyncd.FileSystem.Resolve

/-!
This module contains resolutions that succeed without some of the entries: a path that leads to a directory
does not pass a file, nor a symbolic link that leads to a file, and such a link does not pass itself.
-/

namespace SimpleRsyncd
namespace Resolve

variable {K : Loc → Option Kind}

/--
A path that leads somewhere leads there as well if more links may be followed.
-/
theorem resolve_of_le {left left' : Nat} {cur : Loc} {es : List Elem} {r : Loc × Nat} (hle : left ≤ left')
    (h : resolve K false left cur es = .ok r)
    : ∃ rest, resolve K false left' cur es = .ok (r.1, rest) := by
  induction left, cur, es using resolve_induction (K := K) generalizing left' with
  | nil =>
    rw [resolve_nil] at h
    obtain rfl := Except.ok.inj h
    exact ⟨left', resolve_nil _ _⟩
  | not_dir left cur e es hdir => simp [resolve_cons_of_not_dir hdir] at h
  | stay left cur e es hdir he ih =>
    rw [resolve_cons_stay hdir he] at h ⊢
    exact ih hle h
  | dotdot left cur es hdir ih =>
    rw [resolve_cons_dotdot hdir] at h ⊢
    exact ih hle h
  | symlink left cur n target es hdir hn ih =>
    obtain ⟨left', rfl⟩ : ∃ k, left' = k + 1 := ⟨left' - 1, by omega⟩
    rw [resolve_cons_symlink hdir hn] at h ⊢
    exact ih (by omega) h
  | symlink_zero cur n target es hdir hn => simp [resolve_zero_symlink hdir hn] at h
  | entry left cur n k es hdir hn hk ih =>
    rw [resolve_cons_entry hdir hn hk] at h ⊢
    exact ih hle h
  | none left cur n es hdir hn => simp [resolve_cons_none hdir hn] at h

theorem resolve_unique {left left' : Nat} {cur : Loc} {es : List Elem} {r r' : Loc × Nat}
    (h : resolve K false left cur es = .ok r) (h' : resolve K false left' cur es = .ok r')
    : r.1 = r'.1 := by
  obtain ⟨rest, hr⟩ := resolve_of_le (Nat.le_max_left left left') h
  obtain ⟨rest', hr'⟩ := resolve_of_le (Nat.le_max_right left left') h'
  rw [hr] at hr'
  exact (Prod.mk.inj (Except.ok.inj hr')).1

/--
A path that goes on where an entry leads to a file ends there.
-/
theorem kind_of_resolve_file {left left' left₂ : Nat} {d l : Loc} {n : Name} {rest : List Elem} {r : Loc × Nat}
    (hlast : resolve K false left d [.name n] = .ok (l, left')) (hfile : K l = some .file)
    (h : resolve K false left₂ d (.name n :: rest) = .ok r)
    : K r.1 = some .file := by
  rw [← List.singleton_append, resolve_append _ _ _ _ (.inl rfl)] at h
  cases hr : resolve K false left₂ d [.name n] with
  | error => simp [hr, Except.bind] at h
  | ok r' =>
    simp only [hr, Except.bind] at h
    rw [← resolve_unique hlast hr] at h
    cases rest with
    | nil =>
      rw [resolve_nil] at h
      rw [← Except.ok.inj h, hfile]
    | cons e rest =>
      rw [resolve_cons_of_not_dir (by simp [hfile])] at h
      contradiction

open Classical in
/--
What there is if some entries are not.
-/
noncomputable def without (K : Loc → Option Kind) (hidden : Loc → Prop) (l : Loc) : Option Kind :=
  if hidden l then none else K l

theorem without_of_not {hidden : Loc → Prop} {l : Loc} (h : ¬hidden l) : without K hidden l = K l :=
  if_neg h

theorem without_of_hidden {hidden : Loc → Prop} {l : Loc} (h : hidden l) : without K hidden l = none :=
  if_pos h

theorem without_mono {hidden : Loc → Prop} {l : Loc} {k : Kind} (h : without K hidden l = some k) : K l = some k := by
  by_cases hhidden : hidden l
  . rw [without_of_hidden hhidden] at h
    contradiction
  . rwa [without_of_not hhidden] at h

section hidden

variable {hidden : Loc → Prop}

/--
A resolution either passes an entry that is hidden or succeeds without it.
-/
theorem resolve_or_hidden (hdirs : ∀ l, hidden l → K l ≠ some .dir) {left : Nat} {cur : Loc} {es : List Elem}
    {r : Loc × Nat} (h : resolve K false left cur es = .ok r)
    : resolve (without K hidden) false left cur es = .ok r
        ∨ ∃ left' ≤ left, ∃ d n rest, hidden (d ++ [n]) ∧ K (d ++ [n]) ≠ none
          ∧ resolve K false left' d (.name n :: rest) = .ok r := by
  have hdir' : ∀ {l}, K l = some .dir → without K hidden l = some .dir := by
    intro l hl
    rw [without_of_not fun hhidden => hdirs l hhidden hl, hl]
  -- only a link or an entry looks at a hidden place, and both are named by the element that comes next
  induction left, cur, es using resolve_induction (K := K) with
  | nil => exact .inl (by simpa using h)
  | not_dir left cur e es hdir => simp [resolve_cons_of_not_dir hdir] at h
  | stay left cur e es hdir he ih =>
    rw [resolve_cons_stay hdir he] at h
    rw [resolve_cons_stay (hdir' hdir) he]
    exact ih h
  | dotdot left cur es hdir ih =>
    rw [resolve_cons_dotdot hdir] at h
    rw [resolve_cons_dotdot (hdir' hdir)]
    exact ih h
  | symlink left cur n target es hdir hn ih =>
    by_cases hhidden : hidden (cur ++ [n])
    . exact .inr ⟨left + 1, le_rfl, cur, n, es, hhidden, by simp [hn], h⟩
    . rw [resolve_cons_symlink hdir hn] at h
      rw [resolve_cons_symlink (hdir' hdir) ((without_of_not hhidden).trans hn)]
      refine (ih h).imp id ?_
      rintro ⟨left', hle, hrest⟩
      exact ⟨left', by omega, hrest⟩
  | symlink_zero cur n target es hdir hn => simp [resolve_zero_symlink hdir hn] at h
  | entry left cur n k es hdir hn hk ih =>
    by_cases hhidden : hidden (cur ++ [n])
    . exact .inr ⟨left, le_rfl, cur, n, es, hhidden, by simp [hn], h⟩
    . rw [resolve_cons_entry hdir hn hk] at h
      rw [resolve_cons_entry (hdir' hdir) ((without_of_not hhidden).trans hn) hk]
      exact ih h
  | none left cur n es hdir hn => simp [resolve_cons_none hdir hn] at h

variable {d : Loc} {n : Name} (honly : ∀ l, hidden l → K l ≠ none → l = d ++ [n])

include honly

/--
Where the only hidden entry is one that leads to a file, no path that leads to a directory passes it.
-/
theorem resolve_of_only_hidden (hn : K (d ++ [n]) ≠ some .dir)
    (hfile : ∀ left rest r, resolve K false left d (.name n :: rest) = .ok r → K r.1 = some .file)
    {left : Nat} {cur : Loc} {es : List Elem} {r : Loc × Nat} (h : resolve K false left cur es = .ok r)
    (hr : K r.1 = some .dir)
    : resolve (without K hidden) false left cur es = .ok r := by
  have hdirs : ∀ l, hidden l → K l ≠ some .dir := by
    rintro l hl hdir
    rw [honly l hl (by simp [hdir])] at hdir
    exact hn hdir
  rcases resolve_or_hidden hdirs h with hleads | ⟨left', -, d', n', rest, hhidden, hne, hpass⟩
  . exact hleads
  . obtain ⟨rfl, hname⟩ := List.append_inj' (honly _ hhidden hne) rfl
    obtain rfl := List.singleton_inj.mp hname
    have := hfile left' rest r hpass
    rw [hr] at this
    contradiction

/--
The target of the hidden link leads somewhere without the link: a resolution that passes the link again
follows the target once more, with fewer links left.
-/
theorem resolve_target {target : Bytes} (hdir : K d = some .dir) (hn : K (d ++ [n]) = some (.symlink target))
    {left : Nat} {rest : List Elem} {r : Loc × Nat} (h : resolve K false left d (.name n :: rest) = .ok r)
    : ∃ left' r', left = left' + 1
        ∧ resolve (without K hidden) false left' (if Path.isAbsolute target then [] else d) (Path.elems target) = .ok r' := by
  induction left using Nat.strongRecOn generalizing rest r with
  | ind left ih =>
    cases left with
    | zero => simp [resolve_zero_symlink hdir hn] at h
    | succ left =>
      rw [resolve_cons_symlink hdir hn, resolve_append _ _ _ _ (.inl rfl)] at h
      have hdirs : ∀ l, hidden l → K l ≠ some .dir := by
        rintro l hl hdir
        rw [honly l hl (by simp [hdir]), hn] at hdir
        simp at hdir
      cases hr : resolve K false left (if Path.isAbsolute target then [] else d) (Path.elems target) with
      | error e => simp [hr, Except.bind] at h
      | ok r' =>
        rcases resolve_or_hidden hdirs hr with hleads | ⟨left', hle, d', n', rest', hhidden, hne, hpass⟩
        . exact ⟨left, r', rfl, hleads⟩
        . obtain ⟨rfl, hname⟩ := List.append_inj' (honly _ hhidden hne) rfl
          obtain rfl := List.singleton_inj.mp hname
          obtain ⟨left₂, r₂, rfl, hleads⟩ := ih left' (by omega) hpass
          obtain ⟨left₃, hmore⟩ := resolve_of_le (by omega : left₂ ≤ left) hleads
          exact ⟨left, _, rfl, hmore⟩

end hidden
end Resolve
end SimpleRsyncd
