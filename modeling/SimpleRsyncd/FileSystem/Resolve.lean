import SimpleRsyncd.Path.Lemmas

/-!
This module contains POSIX path resolution over an arbitrary assignment of entries to locations:
`.` and `..`, symbolic links with a bound on how many of them may be followed, and the variant used
by `O_CREAT` that accepts a missing last component. Permissions are not part of it.
-/

namespace SimpleRsyncd

/--
What there is at a location, without the data of a file.
-/
inductive Kind where
  | file
  | symlink (target : Bytes)
  | dir
  deriving DecidableEq

inductive Errno where
  | enoent
  | enotdir
  | eloop
  | eexist
  | eisdir
  | einval
  | enotempty
  | ebusy
  | eacces
  | enotsup
  deriving DecidableEq

/--
How many symbolic links one path resolution may follow.
-/
def maxSymlinks : Nat := 40

namespace Resolve

/--
Everything but the root directory lies in a directory.
-/
structure IsTree (K : Loc → Option Kind) : Prop where
  root : K [] = some .dir
  parent : ∀ l n k, K (l ++ [n]) = some k → K l = some .dir

variable (K : Loc → Option Kind) (create : Bool)

/--
Resolve `es` from the directory at `cur`. A symbolic link is handed to `follow`, together with the
directory its target is relative to, and `left` more links may be followed.
-/
def walk (follow : Loc → List Elem → Except Errno (Loc × Nat)) (left : Nat)
    : Loc → List Elem → Except Errno (Loc × Nat)
  | cur, [] => .ok (cur, left)
  | cur, e :: es =>
    if K cur ≠ some .dir then
      .error .enotdir
    else
      match e with
      | .empty | .dot => walk follow left cur es
      | .dotdot => walk follow left cur.dropLast es
      | .name n =>
        match K (cur ++ [n]) with
        | some (.symlink target) =>
          follow (if Path.isAbsolute target then [] else cur) (Path.elems target ++ es)
        | some _ => walk follow left (cur ++ [n]) es
        | none => if create && es.isEmpty then .ok (cur ++ [n], left) else .error .enoent

end Resolve

/--
The location reached and how many more symbolic links may be followed from there.
-/
def resolve (K : Loc → Option Kind) (create : Bool) : Nat → Loc → List Elem → Except Errno (Loc × Nat)
  | 0 => Resolve.walk K create (fun _ _ => .error .eloop) 0
  | left + 1 => Resolve.walk K create (resolve K create left) (left + 1)

namespace Resolve

variable {K : Loc → Option Kind} {create : Bool}

@[simp]
theorem resolve_nil (left : Nat) (cur : Loc) : resolve K create left cur [] = .ok (cur, left) := by
  cases left <;> rfl

theorem resolve_cons_of_not_dir {left : Nat} {cur : Loc} {e : Elem} {es : List Elem}
    (h : K cur ≠ some .dir)
    : resolve K create left cur (e :: es) = .error .enotdir := by
  cases left <;> simp [resolve, walk, h]

theorem resolve_cons_stay {left : Nat} {cur : Loc} {e : Elem} {es : List Elem}
    (h : K cur = some .dir) (he : e = .empty ∨ e = .dot)
    : resolve K create left cur (e :: es) = resolve K create left cur es := by
  rcases he with rfl | rfl <;> cases left <;> simp [resolve, walk, h]

theorem resolve_cons_dotdot {left : Nat} {cur : Loc} {es : List Elem} (h : K cur = some .dir)
    : resolve K create left cur (.dotdot :: es) = resolve K create left cur.dropLast es := by
  cases left <;> simp [resolve, walk, h]

theorem resolve_cons_symlink {left : Nat} {cur : Loc} {n : Name} {target : Bytes} {es : List Elem}
    (h : K cur = some .dir) (hn : K (cur ++ [n]) = some (.symlink target))
    : resolve K create (left + 1) cur (.name n :: es)
        =
      resolve K create left (if Path.isAbsolute target then [] else cur) (Path.elems target ++ es)
    := by
  simp [resolve, walk, h, hn]

theorem resolve_zero_symlink {cur : Loc} {n : Name} {target : Bytes} {es : List Elem}
    (h : K cur = some .dir) (hn : K (cur ++ [n]) = some (.symlink target))
    : resolve K create 0 cur (.name n :: es) = .error .eloop := by
  simp [resolve, walk, h, hn]

theorem resolve_cons_entry {left : Nat} {cur : Loc} {n : Name} {k : Kind} {es : List Elem}
    (h : K cur = some .dir) (hn : K (cur ++ [n]) = some k) (hk : ∀ t, k ≠ .symlink t)
    : resolve K create left cur (.name n :: es) = resolve K create left (cur ++ [n]) es := by
  cases left <;> cases k <;> simp_all [resolve, walk]

theorem resolve_cons_none {left : Nat} {cur : Loc} {n : Name} {es : List Elem}
    (h : K cur = some .dir) (hn : K (cur ++ [n]) = none)
    : resolve K create left cur (.name n :: es)
        =
      if create && es.isEmpty then .ok (cur ++ [n], left) else .error .enoent := by
  cases left <;> simp [resolve, walk, h, hn]

/--
The induction that follows the resolution of a path: on the links that may still be followed, and
below that on the elements.
-/
theorem resolve_induction {motive : Nat → Loc → List Elem → Prop}
    (nil : ∀ left cur, motive left cur [])
    (not_dir : ∀ left cur e es, K cur ≠ some .dir → motive left cur (e :: es))
    (stay : ∀ left cur e es, K cur = some .dir → (e = .empty ∨ e = .dot) → motive left cur es →
      motive left cur (e :: es))
    (dotdot : ∀ left cur es, K cur = some .dir → motive left cur.dropLast es →
      motive left cur (.dotdot :: es))
    (symlink : ∀ left cur n target es, K cur = some .dir → K (cur ++ [n]) = some (.symlink target) →
      motive left (if Path.isAbsolute target then [] else cur) (Path.elems target ++ es) →
      motive (left + 1) cur (.name n :: es))
    (symlink_zero : ∀ cur n target es, K cur = some .dir →
      K (cur ++ [n]) = some (.symlink target) → motive 0 cur (.name n :: es))
    (entry : ∀ left cur n k es, K cur = some .dir → K (cur ++ [n]) = some k →
      (∀ t, k ≠ .symlink t) → motive left (cur ++ [n]) es → motive left cur (.name n :: es))
    (none : ∀ left cur n es, K cur = some .dir → K (cur ++ [n]) = none →
      motive left cur (.name n :: es))
    (left : Nat) (cur : Loc) (es : List Elem)
    : motive left cur es := by
  induction left using Nat.strongRecOn generalizing cur es with
  | ind left ihleft =>
    induction es generalizing cur with
    | nil => exact nil left cur
    | cons e es ih =>
      by_cases hdir : K cur = some .dir
      . cases e with
        | empty => exact stay _ _ _ _ hdir (.inl rfl) (ih cur)
        | dot => exact stay _ _ _ _ hdir (.inr rfl) (ih cur)
        | dotdot => exact dotdot _ _ _ hdir (ih _)
        | name n =>
          cases hn : K (cur ++ [n]) with
          | none => exact none _ _ _ _ hdir hn
          | some k =>
            cases k with
            | file => exact entry _ _ _ _ _ hdir hn (by simp) (ih _)
            | dir => exact entry _ _ _ _ _ hdir hn (by simp) (ih _)
            | symlink target =>
              cases left with
              | zero => exact symlink_zero _ _ _ _ hdir hn
              | succ left => exact symlink _ _ _ _ _ hdir hn (ihleft left (by omega) _ _)
      . exact not_dir _ _ _ _ hdir

/--
Resolving a joined path is resolving the second part from where the first one leads.
-/
theorem resolve_append (ys : List Elem) (left : Nat) (cur : Loc) (xs : List Elem)
    (h : create = false ∨ ys ≠ [])
    : resolve K create left cur (xs ++ ys)
        =
      (resolve K false left cur xs).bind fun r => resolve K create r.2 r.1 ys := by
  have hempty : ∀ es : List Elem, (create && (es ++ ys).isEmpty) = false := by
    intro es
    rcases h with rfl | h <;> simp_all
  induction left, cur, xs using resolve_induction (K := K) with
  | nil => simp [Except.bind]
  | not_dir left cur e es hdir =>
    simp [resolve_cons_of_not_dir hdir, Except.bind]
  | stay left cur e es hdir he ih =>
    rw [List.cons_append, resolve_cons_stay hdir he, resolve_cons_stay hdir he, ih]
  | dotdot left cur es hdir ih =>
    rw [List.cons_append, resolve_cons_dotdot hdir, resolve_cons_dotdot hdir, ih]
  | symlink left cur n target es hdir hn ih =>
    rw [List.cons_append, resolve_cons_symlink hdir hn, resolve_cons_symlink hdir hn,
      ← List.append_assoc, ih]
  | symlink_zero cur n target es hdir hn =>
    rw [List.cons_append, resolve_zero_symlink hdir hn, resolve_zero_symlink hdir hn]
    rfl
  | entry left cur n k es hdir hn hk ih =>
    rw [List.cons_append, resolve_cons_entry hdir hn hk, resolve_cons_entry hdir hn hk, ih]
  | none left cur n es hdir hn =>
    rw [List.cons_append, resolve_cons_none hdir hn, resolve_cons_none hdir hn, hempty]
    rfl

theorem IsTree.dropLast (htree : IsTree K) {l : Loc} (h : K l = some .dir)
    : K l.dropLast = some .dir := by
  cases l using List.reverseRecOn with
  | nil => simpa using h
  | append_singleton l n => simpa using htree.parent l n _ h

theorem IsTree.of_isPrefix (htree : IsTree K) {l l' : Loc} {k : Kind} (h : l <+: l')
    (hk : K l' = some k)
    : K l ≠ none := by
  obtain ⟨m, rfl⟩ := h
  induction m using List.reverseRecOn generalizing k with
  | nil => simp_all
  | append_singleton m n ih =>
    rw [← List.append_assoc] at hk
    exact ih (htree.parent _ _ _ hk)

/--
What a resolution reaches exists and is not a symbolic link.
-/
theorem kind_of_resolve (htree : IsTree K) {left left' : Nat} {cur l : Loc} {es : List Elem}
    (hcur : K cur = some .dir ∨ K cur = some .file)
    (h : resolve K false left cur es = .ok (l, left'))
    : K l = some .dir ∨ K l = some .file := by
  induction left, cur, es using resolve_induction (K := K) with
  | nil => simp_all
  | not_dir left cur e es hdir => simp [resolve_cons_of_not_dir hdir] at h
  | stay left cur e es hdir he ih =>
    rw [resolve_cons_stay hdir he] at h
    exact ih hcur h
  | dotdot left cur es hdir ih =>
    rw [resolve_cons_dotdot hdir] at h
    exact ih (.inl (htree.dropLast hdir)) h
  | symlink left cur n target es hdir hn ih =>
    rw [resolve_cons_symlink hdir hn] at h
    apply ih _ h
    split
    . exact .inl htree.root
    . exact hcur
  | symlink_zero cur n target es hdir hn => simp [resolve_zero_symlink hdir hn] at h
  | entry left cur n k es hdir hn hk ih =>
    rw [resolve_cons_entry hdir hn hk] at h
    apply ih _ h
    cases k <;> simp_all
  | none left cur n es hdir hn => simp [resolve_cons_none hdir hn] at h

/--
`O_CREAT` makes no difference to a path that leads somewhere. Elsewhere it yields a missing entry of
an existing directory.
-/
theorem resolve_create {left left' : Nat} {cur l : Loc} {es : List Elem}
    (h : resolve K true left cur es = .ok (l, left'))
    : resolve K false left cur es = .ok (l, left')
        ∨
      resolve K false left cur es = .error .enoent ∧ K l = none
        ∧ ∃ d n, l = d ++ [n] ∧ K d = some .dir := by
  induction left, cur, es using resolve_induction (K := K) with
  | nil => simp_all
  | not_dir left cur e es hdir => simp [resolve_cons_of_not_dir hdir] at h
  | stay left cur e es hdir he ih =>
    rw [resolve_cons_stay hdir he] at h ⊢
    exact ih h
  | dotdot left cur es hdir ih =>
    rw [resolve_cons_dotdot hdir] at h ⊢
    exact ih h
  | symlink left cur n target es hdir hn ih =>
    rw [resolve_cons_symlink hdir hn] at h ⊢
    exact ih h
  | symlink_zero cur n target es hdir hn => simp [resolve_zero_symlink hdir hn] at h
  | entry left cur n k es hdir hn hk ih =>
    rw [resolve_cons_entry hdir hn hk] at h ⊢
    exact ih h
  | none left cur n es hdir hn =>
    rw [resolve_cons_none hdir hn] at h ⊢
    split at h
    . simp only [Except.ok.injEq, Prod.mk.injEq] at h
      obtain ⟨rfl, rfl⟩ := h
      exact .inr ⟨by simp, hn, cur, n, rfl, hdir⟩
    . contradiction

theorem resolve_create_of_resolve {left : Nat} {cur : Loc} {es : List Elem} {r : Loc × Nat}
    (h : resolve K false left cur es = .ok r)
    : resolve K true left cur es = .ok r := by
  induction left, cur, es using resolve_induction (K := K) with
  | nil => simpa using h
  | not_dir left cur e es hdir => simp [resolve_cons_of_not_dir hdir] at h
  | stay left cur e es hdir he ih =>
    rw [resolve_cons_stay hdir he] at h ⊢
    exact ih h
  | dotdot left cur es hdir ih =>
    rw [resolve_cons_dotdot hdir] at h ⊢
    exact ih h
  | symlink left cur n target es hdir hn ih =>
    rw [resolve_cons_symlink hdir hn] at h ⊢
    exact ih h
  | symlink_zero cur n target es hdir hn => simp [resolve_zero_symlink hdir hn] at h
  | entry left cur n k es hdir hn hk ih =>
    rw [resolve_cons_entry hdir hn hk] at h ⊢
    exact ih h
  | none left cur n es hdir hn => simp [resolve_cons_none hdir hn] at h

/--
Adding entries does not change where a path leads that already led somewhere.
-/
theorem resolve_mono {K' : Loc → Option Kind} (hK : ∀ l k, K l = some k → K' l = some k)
    {left : Nat} {cur : Loc} {es : List Elem} {r : Loc × Nat}
    (h : resolve K false left cur es = .ok r)
    : resolve K' false left cur es = .ok r := by
  induction left, cur, es using resolve_induction (K := K) with
  | nil => simpa using h
  | not_dir left cur e es hdir => simp [resolve_cons_of_not_dir hdir] at h
  | stay left cur e es hdir he ih =>
    rw [resolve_cons_stay hdir he] at h
    rw [resolve_cons_stay (hK _ _ hdir) he]
    exact ih h
  | dotdot left cur es hdir ih =>
    rw [resolve_cons_dotdot hdir] at h
    rw [resolve_cons_dotdot (hK _ _ hdir)]
    exact ih h
  | symlink left cur n target es hdir hn ih =>
    rw [resolve_cons_symlink hdir hn] at h
    rw [resolve_cons_symlink (hK _ _ hdir) (hK _ _ hn)]
    exact ih h
  | symlink_zero cur n target es hdir hn => simp [resolve_zero_symlink hdir hn] at h
  | entry left cur n k es hdir hn hk ih =>
    rw [resolve_cons_entry hdir hn hk] at h
    rw [resolve_cons_entry (hK _ _ hdir) (hK _ _ hn) hk]
    exact ih h
  | none left cur n es hdir hn => simp [resolve_cons_none hdir hn] at h

/--
A file or a missing entry plays no part in a resolution that leads to a directory.
-/
theorem resolve_of_ne {K' : Loc → Option Kind} {f : Loc} (hf : K f = none ∨ K f = some .file)
    (hK : ∀ l, l ≠ f → K' l = K l) {left : Nat} {cur : Loc} {es : List Elem} {r : Loc × Nat}
    (h : resolve K false left cur es = .ok r) (hr : K r.1 = some .dir)
    : resolve K' false left cur es = .ok r := by
  have hkeep : ∀ {l k}, K l = some k → k ≠ .file → K' l = some k := by
    intro l k hl hk
    rw [hK l (by rintro rfl; simp_all), hl]
  induction left, cur, es using resolve_induction (K := K) with
  | nil => simpa using h
  | not_dir left cur e es hdir => simp [resolve_cons_of_not_dir hdir] at h
  | stay left cur e es hdir he ih =>
    rw [resolve_cons_stay hdir he] at h
    rw [resolve_cons_stay (hkeep hdir (by simp)) he]
    exact ih h
  | dotdot left cur es hdir ih =>
    rw [resolve_cons_dotdot hdir] at h
    rw [resolve_cons_dotdot (hkeep hdir (by simp))]
    exact ih h
  | symlink left cur n target es hdir hn ih =>
    rw [resolve_cons_symlink hdir hn] at h
    rw [resolve_cons_symlink (hkeep hdir (by simp)) (hkeep hn (by simp))]
    exact ih h
  | symlink_zero cur n target es hdir hn => simp [resolve_zero_symlink hdir hn] at h
  | entry left cur n k es hdir hn hk ih =>
    rw [resolve_cons_entry hdir hn hk] at h
    have hk' : k ≠ .file := by
      -- a file is the end of a path
      rintro rfl
      cases es with
      | nil =>
        rw [resolve_nil] at h
        obtain rfl := Except.ok.inj h
        simp [hn] at hr
      | cons e es =>
        rw [resolve_cons_of_not_dir (by simp [hn])] at h
        contradiction
    rw [resolve_cons_entry (hkeep hdir (by simp)) (hkeep hn hk') hk]
    exact ih h
  | none left cur n es hdir hn => simp [resolve_cons_none hdir hn] at h

end Resolve
end SimpleRsyncd
