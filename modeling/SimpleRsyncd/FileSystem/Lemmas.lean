import SimpleRsyncd.FileSystem.Basic

/-!
This module contains what an update of a file system changes and, above all, what it does not
change: everything outside the subtree at the updated location.
-/

namespace SimpleRsyncd
namespace Node

variable {f : Option Node → Option Node}

theorem lookup_setEntry_self (n : Name) (c : Node) (es : List (Name × Node))
    : (setEntry n c es).lookup n = some c := by
  simp [setEntry]

theorem lookup_removeEntry_self (n : Name) (es : List (Name × Node)) : (removeEntry n es).lookup n = none := by
  rw [List.lookup_eq_none_iff]
  intro e he
  have hne : e.1 ≠ n := by simpa using (List.mem_filter.mp he).2
  simpa using hne.symm

theorem lookup_removeEntry_of_ne {n m : Name} (h : m ≠ n) (es : List (Name × Node))
    : (removeEntry n es).lookup m = es.lookup m := by
  induction es with
  | nil => rfl
  | cons e es ih =>
    obtain ⟨k, c⟩ := e
    simp only [removeEntry, List.filter_cons] at ih ⊢
    by_cases hk : k = n
    . have hbeq : (m == k) = false := by simpa [hk] using h
      simp only [hk, ne_eq, not_true_eq_false, decide_false, Bool.false_eq_true, ↓reduceIte]
      rw [ih, List.lookup_cons, ← hk, hbeq]
    . simp only [hk, ne_eq, not_false_eq_true, decide_true, ↓reduceIte, List.lookup_cons]
      rw [ih]

theorem lookup_setEntry_of_ne {n m : Name} (h : m ≠ n) (c : Node) (es : List (Name × Node))
    : (setEntry n c es).lookup m = es.lookup m := by
  have hbeq : (m == n) = false := by simpa using h
  rw [setEntry, List.lookup_cons, hbeq]
  exact lookup_removeEntry_of_ne h es

theorem get_cons (t : Node) (n : Name) (l : Loc)
    : t.get (n :: l) = (t.entries.lookup n).bind (·.get l) := by
  rw [get]
  cases t.entries.lookup n <;> rfl

theorem get_append (t : Node) (l m : Loc) : t.get (l ++ m) = (t.get l).bind (·.get m) := by
  induction l generalizing t with
  | nil => simp [get]
  | cons n l ih =>
    rw [List.cons_append, get_cons, get_cons]
    cases t.entries.lookup n with
    | none => rfl
    | some c => simp [ih]

theorem alter_kind (t : Node) (l : Loc) : (t.alter f l).kind = t.kind := by
  fun_cases alter f t l <;> rfl

theorem alter_label (t : Node) (l : Loc) : (t.alter f l).label = t.label := by
  fun_cases alter f t l <;> rfl

/--
An update changes nothing outside the subtree at its location, but for the entries of the
directories above.
-/
theorem label_get_alter (t : Node) (l l' : Loc) (h : ¬l <+: l')
    : ((t.alter f l).get l').map label = (t.get l').map label := by
  induction l generalizing t l' with
  | nil => simp at h
  | cons n l ih =>
    cases l' with
    | nil => simp [get, alter_label]
    | cons m l' =>
      cases t with
      | file => rfl
      | symlink => rfl
      | dir es =>
        by_cases hm : m = n
        . subst hm
          have hl : ¬l <+: l' := by simpa using h
          cases l with
          | nil => simp at hl
          | cons n' l =>
            simp only [alter]
            cases hlookup : es.lookup m with
            | none => rfl
            | some c =>
              simpa [get_cons, entries, lookup_setEntry_self, hlookup] using ih c l' hl
        . cases l with
          | nil =>
            simp only [alter]
            split
            . simp [get_cons, entries, lookup_setEntry_of_ne hm]
            . simp [get_cons, entries, lookup_removeEntry_of_ne hm]
          | cons n' l =>
            simp only [alter]
            split
            . simp [get_cons, entries, lookup_setEntry_of_ne hm]
            . rfl

theorem get_alter_concat (t : Node) (l : Loc) (n : Name) (h : (t.get l).map kind = some .dir)
    : (t.alter f (l ++ [n])).get (l ++ [n]) = f (t.get (l ++ [n])) := by
  induction l generalizing t with
  | nil =>
    cases t with
    | file => simp [get, kind] at h
    | symlink => simp [get, kind] at h
    | dir es =>
      have hget : (dir es).get [n] = es.lookup n := by
        rw [get, entries]
        cases es.lookup n <;> rfl
      rw [List.nil_append, hget, alter]
      cases f (es.lookup n) with
      | none => simp [get, entries, lookup_removeEntry_self]
      | some c => simp [get, entries, lookup_setEntry_self]
  | cons m l ih =>
    cases t with
    | file => simp [get_cons, entries] at h
    | symlink => simp [get_cons, entries] at h
    | dir es =>
      cases hlookup : es.lookup m with
      | none => simp [get_cons, entries, hlookup] at h
      | some d =>
        have hd : (d.get l).map kind = some .dir := by
          simpa [get_cons, entries, hlookup] using h
        have halter : alter f (.dir es) (m :: l ++ [n]) = .dir (setEntry m (d.alter f (l ++ [n])) es) := by
          cases l <;> simp [alter, hlookup]
        rw [halter, List.cons_append, get_cons, get_cons]
        simp [entries, lookup_setEntry_self, hlookup, ih d hd]

/--
An update below a directory is the same update of that directory.
-/
theorem get_alter_append (t : Node) (l : Loc) {m : Loc} (hm : m ≠ [])
    : (t.alter f (l ++ m)).get l = (t.get l).map (·.alter f m) := by
  induction l generalizing t with
  | nil => simp [get]
  | cons n l ih =>
    have hne : l ++ m ≠ [] := by simp [hm]
    cases t with
    | file => simp [alter, get_cons, entries]
    | symlink => simp [alter, get_cons, entries]
    | dir es =>
      obtain ⟨n', l', hl'⟩ := List.exists_cons_of_ne_nil hne
      rw [List.cons_append, hl', alter, ← hl']
      . cases hlookup : es.lookup n with
        | none => simp [get_cons, entries, hlookup]
        | some c => simp [get_cons, entries, lookup_setEntry_self, hlookup, ih c]
      . simp

/--
A file that is added is one more descendant.
-/
theorem descendants_alter (t : Node) (l : Loc) (n : Name) (d : Bytes) (h : (t.get l).map kind = some .dir)
    : (t.alter (fun _ => some (.file d)) (l ++ [n])).descendants.Perm
        ((l ++ [n]) :: (t.alter (fun _ => none) (l ++ [n])).descendants) := by
  induction l generalizing t with
  | nil =>
    cases t with
    | file => simp [get, kind] at h
    | symlink => simp [get, kind] at h
    | dir es => simp [alter, descendants, entryDescendants, setEntry]
  | cons m l ih =>
    cases t with
    | file => simp [get_cons, entries] at h
    | symlink => simp [get_cons, entries] at h
    | dir es =>
      cases hlookup : es.lookup m with
      | none => simp [get_cons, entries, hlookup] at h
      | some c =>
        have hc : (c.get l).map kind = some .dir := by
          simpa [get_cons, entries, hlookup] using h
        have halter : ∀ f, alter f (.dir es) (m :: l ++ [n]) = .dir (setEntry m (c.alter f (l ++ [n])) es) := by
          intro f
          cases l <;> simp [alter, hlookup]
        rw [halter, halter, descendants, descendants, setEntry, setEntry, entryDescendants, entryDescendants]
        exact ((((ih c hc).map (m :: ·)).append_right _).cons [m]).trans (.swap _ _ _)

end Node

namespace FileSystem

open Resolve

variable (fs : FileSystem)

theorem root_alter (l : Loc) (f : Option Node → Option Node)
    : (fs.alter l f).root = fs.root.alter f l := by
  have : ((fs.root).alter f l).kind = .dir := Node.alter_kind _ _
  cases h : (fs.root).alter f l <;> simp_all [alter, root, Node.kind, Node.entries]

@[simp]
theorem alter_cwd (l : Loc) (f : Option Node → Option Node) : (fs.alter l f).cwd = fs.cwd := rfl

@[simp]
theorem put_cwd (l : Loc) (n : Node) : (fs.put l n).cwd = fs.cwd := rfl

theorem label_node_alter {l l' : Loc} (f : Option Node → Option Node) (h : ¬l <+: l')
    : ((fs.alter l f).node l').map Node.label = (fs.node l').map Node.label := by
  rw [node, root_alter]
  exact Node.label_get_alter _ _ _ h

theorem kind_eq_map_label (l : Loc) : fs.kind l = ((fs.node l).map Node.label).map Prod.fst := by
  rw [kind]
  cases fs.node l with
  | none => rfl
  | some n => cases n <;> rfl

theorem data_eq_of_label_eq {fs' : FileSystem} {l : Loc}
    (h : (fs'.node l).map Node.label = (fs.node l).map Node.label)
    : fs'.data l = fs.data l := by
  simp only [data]
  rcases hn : fs.node l with _ | _ | _ | _ <;> rcases hn' : fs'.node l with _ | _ | _ | _ <;>
    simp_all [Node.label]

theorem kind_put_of_not_isPrefix {l l' : Loc} (n : Node) (h : ¬l <+: l')
    : (fs.put l n).kind l' = fs.kind l' := by
  rw [kind_eq_map_label, kind_eq_map_label, put, label_node_alter _ _ h]

theorem node_put {l : Loc} {n : Name} (c : Node) (h : fs.kind l = some .dir)
    : (fs.put (l ++ [n]) c).node (l ++ [n]) = some c := by
  rw [node, put, root_alter]
  exact Node.get_alter_concat _ _ _ h

theorem kind_put {l : Loc} {n : Name} (c : Node) (h : fs.kind l = some .dir)
    : (fs.put (l ++ [n]) c).kind (l ++ [n]) = some c.kind := by
  rw [kind, node_put _ _ h]
  rfl

theorem data_put_file {l : Loc} {n : Name} (d : Bytes) (h : fs.kind l = some .dir)
    : (fs.put (l ++ [n]) (.file d)).data (l ++ [n]) = some d := by
  rw [data, node_put _ _ h]

theorem isTree : IsTree fs.kind where
  root := rfl
  parent := by
    intro l n k h
    rw [kind, node, Node.get_append, Option.map_eq_some_iff] at h
    obtain ⟨c, hc, -⟩ := h
    rw [Option.bind_eq_some_iff] at hc
    obtain ⟨d, hd, hc⟩ := hc
    rw [kind, node, hd]
    cases d <;> simp_all [Node.get_cons, Node.entries, Node.kind]

theorem kind_of_data {l : Loc} {d : Bytes} (h : fs.data l = some d) : fs.kind l = some .file := by
  rw [data] at h
  split at h
  . next hn => simp [kind, hn, Node.kind]
  . contradiction

theorem data_of_kind {l : Loc} (h : fs.kind l = some .file) : ∃ d, fs.data l = some d := by
  rw [kind] at h
  rcases hn : fs.node l with _ | d | _ | _
  . simp [hn] at h
  . exact ⟨d, by simp [data, hn]⟩
  . simp [hn, Node.kind] at h
  . simp [hn, Node.kind] at h

/--
Adding a leaf, or replacing a file by a file, keeps every entry there is.
-/
theorem kind_put_mono {l : Loc} {n : Name} {c : Node} (hdir : fs.kind l = some .dir)
    (h : fs.kind (l ++ [n]) = none ∨ fs.kind (l ++ [n]) = some .file ∧ c.kind = .file)
    : ∀ l' k, fs.kind l' = some k → (fs.put (l ++ [n]) c).kind l' = some k := by
  intro l' k hk
  by_cases hpre : l ++ [n] <+: l'
  . have hne := fs.isTree.of_isPrefix hpre hk
    rcases h with h | ⟨hfile, hc⟩
    . contradiction
    . obtain ⟨m, rfl⟩ := hpre
      cases m with
      | nil => simp_all [kind_put]
      | cons m ms =>
        have := fs.isTree.of_isPrefix (l := l ++ [n] ++ [m]) ⟨ms, by simp⟩ hk
        cases hkind : fs.kind (l ++ [n] ++ [m]) with
        | none => contradiction
        | some k' =>
          have := fs.isTree.parent _ _ _ hkind
          simp_all
  . rw [kind_put_of_not_isPrefix _ _ hpre, hk]

theorem absolute_of_isAbsolute {p : Bytes} (h : Path.isAbsolute p) : fs.absolute p = .ok p := by
  have : p ≠ [] := by
    rintro rfl
    simp [Path.isAbsolute] at h
  simp [absolute, h, this]

theorem resolveElems_eq_ok_iff {p : Bytes} {es : List Elem} {l : Loc}
    : fs.resolveElems p es = .ok l
        ↔
      ∃ left, SimpleRsyncd.resolve fs.kind false maxSymlinks (fs.start p) es = .ok (l, left) := by
  rw [resolveElems]
  cases SimpleRsyncd.resolve fs.kind false maxSymlinks (fs.start p) es with
  | error => simp [Except.map]
  | ok r => simp [Except.map, Prod.ext_iff]

theorem resolve_eq_ok_iff {p : Bytes} {l : Loc}
    : fs.resolve p = .ok l
        ↔
      p ≠ [] ∧ ∃ left, SimpleRsyncd.resolve fs.kind false maxSymlinks (fs.start p) (Path.elems p) = .ok (l, left) := by
  rw [resolve, ← resolveElems_eq_ok_iff]
  cases p <;> simp

theorem resolveElems_append {p : Bytes} {xs ys : List Elem} {l : Loc}
    (h : fs.resolveElems p (xs ++ ys) = .ok l)
    : ∃ l', fs.resolveElems p xs = .ok l' := by
  rw [resolveElems, resolve_append ys _ _ _ (.inl rfl)] at h
  cases hx : SimpleRsyncd.resolve fs.kind false maxSymlinks (fs.start p) xs with
  | error => simp [hx, Except.bind, Except.map] at h
  | ok r => exact ⟨r.1, by simp [resolveElems, hx, Except.map]⟩

theorem leading_of_resolveElems {p : Bytes} {seen es : List Elem} {l : Loc}
    (h : fs.resolveElems p (seen ++ es) = .ok l)
    : fs.leading p seen es = .ok (l, []) := by
  induction es generalizing seen with
  | nil =>
    rw [List.append_nil] at h
    simp [leading, h, Except.map]
  | cons e es ih =>
    have happ : seen ++ e :: es = seen ++ [e] ++ es := by simp
    rw [happ] at h
    obtain ⟨l', hl'⟩ := fs.resolveElems_append h
    rw [leading, hl']
    exact ih h

/--
A path that leads somewhere is made canonical as a whole.
-/
theorem weaklyCanonical_of_canonical {p c : Bytes} (h : fs.canonical p = .ok c)
    : fs.weaklyCanonical p = .ok c := by
  unfold canonical resolve at h
  split at h
  . simp [Except.map] at h
  . cases hl : fs.resolveElems p (Path.elems p) with
    | error => simp [hl, Except.map] at h
    | ok l =>
      simp only [hl, Except.map, Except.ok.injEq] at h
      have hleading : fs.leading p [] (Path.elems p) = .ok (l, []) :=
        fs.leading_of_resolveElems hl
      simp [weaklyCanonical, hleading, Path.Normal.render, ← h, bind, Except.bind]

theorem canonical_eq_ofLoc {p c : Bytes} (h : fs.canonical p = .ok c) : ∃ l, c = Path.ofLoc l := by
  unfold canonical at h
  cases hl : fs.resolve p with
  | error => simp [hl, Except.map] at h
  | ok l => exact ⟨l, by simpa [hl, Except.map] using h.symm⟩

end FileSystem
end SimpleRsyncd
