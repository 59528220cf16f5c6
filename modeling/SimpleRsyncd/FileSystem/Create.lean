import SimpleRsyncd.FileSystem.Lemmas

/-!
This module contains how a file comes into being: which directories `create_directories` adds for its
path, and where a path leads that is opened with `O_CREAT`.
-/

namespace SimpleRsyncd
namespace Resolve

variable {K : Loc → Option Kind} {create : Bool}

theorem IsTree.dir_of_append (htree : IsTree K) {l m : Loc} {n : Name} {k : Kind}
    (h : K (l ++ n :: m) = some k)
    : K l = some .dir := by
  induction m using List.reverseRecOn generalizing k with
  | nil => exact htree.parent l n k h
  | append_singleton m x ih =>
    rw [← List.cons_append, ← List.append_assoc] at h
    exact ih (htree.parent _ _ _ h)

/--
The names of an existing directory lead to it.
-/
theorem resolve_names (htree : IsTree K) (create : Bool) (left : Nat) {cur l : Loc} (es : List Elem)
    (h : K (cur ++ l) = some .dir)
    : resolve K create left cur (l.map .name ++ es) = resolve K create left (cur ++ l) es := by
  induction l generalizing cur with
  | nil => simp
  | cons n l ih =>
    have hcur : K cur = some .dir := htree.dir_of_append h
    have hassoc : cur ++ n :: l = cur ++ [n] ++ l := by simp
    rw [hassoc] at h ⊢
    have hentry : K (cur ++ [n]) = some .dir := by
      cases l with
      | nil => simpa using h
      | cons m l => exact htree.dir_of_append h
    rw [List.map_cons, List.cons_append, resolve_cons_entry hcur hentry (by simp), ih h]

theorem resolve_dotdots (htree : IsTree K) (create : Bool) (left : Nat) {cur : Loc} (ups : Nat)
    (h : K cur = some .dir)
    : ∃ l, K l = some .dir
        ∧ resolve K create left cur (List.replicate ups .dotdot) = .ok (l, left) := by
  induction ups generalizing cur with
  | zero => exact ⟨cur, h, by simp⟩
  | succ ups ih =>
    obtain ⟨l, hl, hresolve⟩ := ih (htree.dropLast h)
    exact ⟨l, hl, by rw [List.replicate_succ, resolve_cons_dotdot h, hresolve]⟩

/--
Once the missing entry that `O_CREAT` found has been added, the path leads to it.
-/
theorem resolve_created {K' : Loc → Option Kind} (hK : ∀ l k, K l = some k → K' l = some k)
    {left left' : Nat} {cur l : Loc} {es : List Elem} (hl : K' l = some .file)
    (h : resolve K true left cur es = .ok (l, left'))
    : resolve K' false left cur es = .ok (l, left') := by
  induction left, cur, es using resolve_induction (K := K) with
  | nil => simpa using h
  | not_dir left cur e es hdir => simp [resolve_cons_of_not_dir hdir] at h
  | stay left cur e es hdir he ih =>
    rw [resolve_cons_stay hdir he] at h
    rw [resolve_cons_stay (hK _ _ hdir) he]
    exact ih h
  | dotdot left cur es hdir ih =>
    rw [resolve_cons_dotdot hdir] at h
    rw [resolve_cons_dotdot (hK _ _ hdir)]
    exact ih h
  | symlink left cur n target es hdir hn ih =>
    rw [resolve_cons_symlink hdir hn] at h
    rw [resolve_cons_symlink (hK _ _ hdir) (hK _ _ hn)]
    exact ih h
  | symlink_zero cur n target es hdir hn => simp [resolve_zero_symlink hdir hn] at h
  | entry left cur n k es hdir hn hk ih =>
    rw [resolve_cons_entry hdir hn hk] at h
    rw [resolve_cons_entry (hK _ _ hdir) (hK _ _ hn) hk]
    exact ih h
  | none left cur n es hdir hn =>
    rw [resolve_cons_none hdir hn] at h
    split at h
    . next hcreate =>
      simp only [Except.ok.injEq, Prod.mk.injEq] at h
      obtain ⟨rfl, rfl⟩ := h
      obtain rfl : es = [] := by simpa using hcreate
      rw [resolve_cons_entry (hK _ _ hdir) hl (by simp), resolve_nil]
    . contradiction

end Resolve

namespace FileSystem

open Resolve

variable {fs fs' : FileSystem} {p : Bytes}

theorem leading_append_of_resolveElems {seen xs : List Elem} {l : Loc} (ys : List Elem)
    (h : fs.resolveElems p (seen ++ xs) = .ok l)
    : fs.leading p seen (xs ++ ys) = fs.leading p (seen ++ xs) ys := by
  induction xs generalizing seen with
  | nil => simp
  | cons x xs ih =>
    have happ : seen ++ x :: xs = seen ++ [x] ++ xs := by simp
    rw [happ] at h ⊢
    obtain ⟨l', hl'⟩ := fs.resolveElems_append h
    rw [List.cons_append, leading, hl']
    exact ih h

/--
The elements that do not exist stay in front of what follows them.
-/
theorem leading_append_of_ne_nil {seen xs rest : List Elem} {l : Loc} (ys : List Elem)
    (h : fs.leading p seen xs = .ok (l, rest)) (hne : rest ≠ [])
    : fs.leading p seen (xs ++ ys) = .ok (l, rest ++ ys) := by
  induction xs generalizing seen with
  | nil =>
    rw [leading] at h
    cases hresolve : fs.resolveElems p seen <;> simp_all [Except.map]
  | cons x xs ih =>
    have hstop : (fs.resolveElems p seen).map (·, x :: xs) = .ok (l, rest) →
        (fs.resolveElems p seen).map (·, x :: (xs ++ ys)) = .ok (l, rest ++ ys) := by
      intro h
      cases hresolve : fs.resolveElems p seen with
      | error => simp [hresolve, Except.map] at h
      | ok l' =>
        simp only [hresolve, Except.map, Except.ok.injEq, Prod.mk.injEq] at h
        obtain ⟨rfl, rfl⟩ := h
        rfl
    rw [List.cons_append]
    unfold leading at h ⊢
    split at h
    . exact ih h
    . exact hstop h
    . exact hstop h
    . contradiction

theorem resolveElems_append_error {xs : List Elem} (ys : List Elem) {e : Errno}
    (h : fs.resolveElems p xs = .error e)
    : fs.resolveElems p (xs ++ ys) = .error e := by
  rw [resolveElems, resolve_append ys _ _ _ (.inl rfl)]
  rw [resolveElems] at h
  cases hx : SimpleRsyncd.resolve fs.kind false maxSymlinks (fs.start p) xs <;>
    simp_all [Except.bind, Except.map]

/--
The last element of a path is resolved from where the others lead.
-/
theorem resolve_concat {parent : List Elem} {d : Loc} (h : fs.resolveElems p parent = .ok d) (e : Elem)
    : ∃ left, ∀ create, SimpleRsyncd.resolve fs.kind create maxSymlinks (fs.start p) (parent ++ [e])
        = SimpleRsyncd.resolve fs.kind create left d [e] := by
  obtain ⟨left, hparent⟩ := fs.resolveElems_eq_ok_iff.mp h
  refine ⟨left, fun create => ?_⟩
  rw [resolve_append _ _ _ _ (.inr (by simp)), hparent]
  rfl

/--
The leading elements lead to `l`, and the first of the others is missing there.
-/
theorem leading_cases {seen es rest : List Elem} {l : Loc} (h : fs.leading p seen es = .ok (l, rest))
    : ∃ xs, es = xs ++ rest ∧ fs.resolveElems p (seen ++ xs) = .ok l
        ∧ (rest ≠ [] → fs.resolveElems p (seen ++ es) = .error .enoent
          ∨ fs.resolveElems p (seen ++ es) = .error .enotdir) := by
  induction es generalizing seen with
  | nil =>
    rw [leading] at h
    cases hresolve : fs.resolveElems p seen with
    | error => simp [hresolve, Except.map] at h
    | ok l' =>
      simp only [hresolve, Except.map, Except.ok.injEq, Prod.mk.injEq] at h
      obtain ⟨rfl, rfl⟩ := h
      exact ⟨[], rfl, by simpa using hresolve, by simp⟩
  | cons e es ih =>
    have happ : seen ++ e :: es = seen ++ [e] ++ es := by simp
    -- at the first element that is missing the whole rest stays over
    have hstop : (fs.resolveElems p seen).map (·, e :: es) = .ok (l, rest) →
        e :: es = rest ∧ fs.resolveElems p (seen ++ []) = .ok l := by
      intro h
      cases hresolve : fs.resolveElems p seen with
      | error => simp [hresolve, Except.map] at h
      | ok l' =>
        simp only [hresolve, Except.map, Except.ok.injEq, Prod.mk.injEq] at h
        obtain ⟨rfl, rfl⟩ := h
        exact ⟨rfl, by simpa using hresolve⟩
    unfold leading at h
    rw [happ]
    split at h
    . obtain ⟨xs, rfl, hresolve, hrest⟩ := ih h
      exact ⟨e :: xs, rfl, by simpa using hresolve, hrest⟩
    . next hmissing =>
      obtain ⟨rfl, hresolve⟩ := hstop h
      exact ⟨[], rfl, hresolve, fun _ => .inl (resolveElems_append_error es hmissing)⟩
    . next hmissing =>
      obtain ⟨rfl, hresolve⟩ := hstop h
      exact ⟨[], rfl, hresolve, fun _ => .inr (resolveElems_append_error es hmissing)⟩
    . contradiction

/--
Putting a leaf where no directory is changes nothing else.
-/
theorem label_put_leaf {l l' : Loc} {n : Name} {c : Node} (hdir : fs.kind l = some .dir)
    (hleaf : fs.kind (l ++ [n]) ≠ some .dir) (hc : c.entries = []) (hne : l' ≠ l ++ [n])
    : ((fs.put (l ++ [n]) c).node l').map Node.label = (fs.node l').map Node.label := by
  by_cases hpre : l ++ [n] <+: l'
  . obtain ⟨m, rfl⟩ := hpre
    cases m with
    | nil => simp at hne
    | cons x m =>
      have hafter : (fs.put (l ++ [n]) c).node (l ++ [n] ++ x :: m) = none := by
        have hnode := fs.node_put (n := n) c hdir
        rw [node] at hnode
        rw [node, Node.get_append, hnode]
        simp [Node.get_cons, hc]
      have hbefore : fs.node (l ++ [n] ++ x :: m) = none := by
        rw [kind, node] at hleaf
        rw [node, Node.get_append]
        rcases hnode : fs.root.get (l ++ [n]) with _ | t
        . rfl
        . cases t with
          | file | symlink => simp [Node.get_cons, Node.entries]
          | dir => simp [hnode, Node.kind] at hleaf
      rw [hafter, hbefore]
  . exact fs.label_node_alter _ hpre

theorem data_put_leaf {l l' : Loc} {n : Name} {c : Node} (hdir : fs.kind l = some .dir)
    (hleaf : fs.kind (l ++ [n]) ≠ some .dir) (hc : c.entries = []) (hne : l' ≠ l ++ [n])
    : (fs.put (l ++ [n]) c).data l' = fs.data l' :=
  fs.data_eq_of_label_eq (label_put_leaf hdir hleaf hc hne)

theorem kind_put_leaf {l l' : Loc} {n : Name} {c : Node} (hdir : fs.kind l = some .dir)
    (hleaf : fs.kind (l ++ [n]) ≠ some .dir) (hc : c.entries = []) (hne : l' ≠ l ++ [n])
    : (fs.put (l ++ [n]) c).kind l' = fs.kind l' := by
  rw [kind_eq_map_label, kind_eq_map_label, label_put_leaf hdir hleaf hc hne]

theorem kind_below_put_dir {l : Loc} {n : Name} (m : Name) (h : fs.kind l = some .dir)
    : (fs.put (l ++ [n]) (.dir [])).kind (l ++ [n] ++ [m]) = none := by
  have hnode := fs.node_put (n := n) (.dir []) h
  rw [node] at hnode
  rw [kind, node, Node.get_append, hnode]
  rfl

theorem others_put_dir {l l' : Loc} {n : Name} (hdir : fs.kind l = some .dir)
    (hnone : fs.kind (l ++ [n]) = none) (hne : l' ≠ l ++ [n])
    : (fs.put (l ++ [n]) (.dir [])).kind l' = fs.kind l'
        ∧ (fs.put (l ++ [n]) (.dir [])).data l' = fs.data l' :=
  ⟨kind_put_leaf hdir (by simp [hnone]) rfl hne, data_put_leaf hdir (by simp [hnone]) rfl hne⟩

/--
What `create_directories` does for a missing directory `n` in `dir` and others below it.
-/
structure Makes (fs : FileSystem) (dir : Loc) (n : Name) (names : Loc) (fs' : FileSystem) (made : List Loc)
    : Prop where
  parent : fs.kind dir = some .dir
  missing : fs.kind (dir ++ [n]) = none
  first : dir ++ [n] ∈ made
  below : ∀ l ∈ made, dir ++ [n] <+: l
  cwd : fs'.cwd = fs.cwd
  mono : ∀ l k, fs.kind l = some k → fs'.kind l = some k
  last : fs'.kind (dir ++ n :: names) = some .dir
  fresh : ∀ m, fs'.kind (dir ++ n :: names ++ [m]) = none
  others : ∀ l, l ∉ made → fs'.kind l = fs.kind l ∧ fs'.data l = fs.data l

theorem mkdirs_cons_eq_ok {dir : Loc} {n : Name} {es : List Elem} {made : List Loc}
    (h : fs.mkdirs dir (.name n :: es) = .ok (fs', made))
    : fs.kind dir = some .dir ∧ fs.kind (dir ++ [n]) = none
      ∧ ∃ made', (fs.put (dir ++ [n]) (.dir [])).mkdirs (dir ++ [n]) es = .ok (fs', made')
        ∧ made = (dir ++ [n]) :: made' := by
  rw [mkdirs] at h
  split at h
  . contradiction
  . next hdir =>
    split at h
    . contradiction
    . next hnone =>
      generalize hrest : (fs.put (dir ++ [n]) (.dir [])).mkdirs (dir ++ [n]) es = result at h
      cases result with
      | error => simp [bind, Except.bind] at h
      | ok result =>
        simp only [bind, Except.bind, Except.ok.injEq, Prod.mk.injEq] at h
        obtain ⟨rfl, rfl⟩ := h
        exact ⟨by simpa using hdir, by simpa using hnone, result.2, rfl, rfl⟩

theorem Makes.of_mkdirs {dir names : Loc} {n : Name} {made : List Loc}
    (h : fs.mkdirs dir ((n :: names).map .name) = .ok (fs', made))
    : fs.Makes dir n names fs' made := by
  induction names generalizing fs dir n made with
  | nil =>
    obtain ⟨hdir, hnone, made', hrest, rfl⟩ := mkdirs_cons_eq_ok h
    obtain ⟨rfl, rfl⟩ := Prod.mk.inj (Except.ok.inj hrest)
    exact {
      parent := hdir
      missing := hnone
      first := by simp
      below := by simp
      cwd := rfl
      mono := fs.kind_put_mono hdir (.inl hnone)
      last := fs.kind_put _ hdir
      fresh := fun m => kind_below_put_dir m hdir
      others := fun l hmem => others_put_dir hdir hnone (by simpa using hmem)
    }
  | cons m names ih =>
    obtain ⟨hdir, hnone, made', hrest, rfl⟩ := mkdirs_cons_eq_ok h
    -- what is made below the first name stands in the file system that holds it already
    have hmakes := ih hrest
    exact {
      parent := hdir
      missing := hnone
      first := by simp
      below := by
        intro l hmem
        cases List.mem_cons.mp hmem with
        | inl heq => exact heq ▸ List.prefix_rfl
        | inr hmem => exact (List.prefix_append _ _).trans (hmakes.below l hmem)
      cwd := hmakes.cwd
      mono := fun l k hk => hmakes.mono l k (fs.kind_put_mono hdir (.inl hnone) l k hk)
      last := by simpa using hmakes.last
      fresh := by simpa using hmakes.fresh
      others := by
        intro l hmem
        rw [List.mem_cons, not_or] at hmem
        obtain ⟨hkind, hdata⟩ := hmakes.others l hmem.2
        obtain ⟨hkind', hdata'⟩ := others_put_dir hdir hnone hmem.1
        exact ⟨hkind.trans hkind', hdata.trans hdata'⟩
    }

theorem openWrite_eq_ok_iff {l : Loc}
    : fs.openWrite p = .ok (fs', l)
        ↔
      (∃ left, SimpleRsyncd.resolve fs.kind true maxSymlinks (fs.start p) (Path.elems p) = .ok (l, left))
        ∧ fs.kind l ≠ some .dir ∧ fs' = fs.put l (.file []) := by
  unfold openWrite
  cases hresolve : SimpleRsyncd.resolve fs.kind true maxSymlinks (fs.start p) (Path.elems p) with
  | error => simp [bind, Except.bind]
  | ok r =>
    obtain ⟨l', left⟩ := r
    simp only [bind, Except.bind]
    split
    . next hdir =>
      simp
      rintro rfl
      exact fun h => absurd hdir h
    . next hdir =>
      simp
      grind

/--
Between `fs` and `fs'` nothing is lost but what was in the file at `l`, which now has this content.
-/
structure Writes (fs fs' : FileSystem) (l : Loc) (content : Bytes) : Prop where
  cwd : fs'.cwd = fs.cwd
  mono : ∀ l k, fs.kind l = some k → fs'.kind l = some k
  content : fs'.data l = some content
  keeps : ∀ l' old, l' ≠ l → fs.data l' = some old → fs'.data l' = some old

theorem Writes.trans {fs'' : FileSystem} {l : Loc} {old new : Bytes} (h : Writes fs fs' l old)
    (h' : Writes fs' fs'' l new)
    : Writes fs fs'' l new where
  cwd := h'.cwd.trans h.cwd
  mono := fun l k hk => h'.mono l k (h.mono l k hk)
  content := h'.content
  keeps := fun l' d hne hd => h'.keeps l' d hne (h.keeps l' d hne hd)

theorem writes_put {l : Loc} {n : Name} (d : Bytes) (hdir : fs.kind l = some .dir)
    (hleaf : fs.kind (l ++ [n]) = none ∨ fs.kind (l ++ [n]) = some .file)
    : Writes fs (fs.put (l ++ [n]) (.file d)) (l ++ [n]) d where
  cwd := rfl
  mono := fs.kind_put_mono hdir (hleaf.imp_right fun h => ⟨h, rfl⟩)
  content := fs.data_put_file d hdir
  keeps := by
    intro l' old hne hold
    rwa [data_put_leaf hdir (by rcases hleaf with h | h <;> simp [h]) rfl hne]

theorem writes_appendData {l : Loc} {old : Bytes} (d : Bytes) (h : fs.data l = some old)
    : Writes fs (fs.appendData l d) l (old ++ d) := by
  have hkind := fs.kind_of_data h
  cases l using List.reverseRecOn with
  | nil => simp [kind, node, root, Node.get, Node.kind] at hkind
  | append_singleton l n =>
    rw [appendData, h]
    exact writes_put _ (fs.isTree.parent _ _ _ hkind) (.inr hkind)

/--
At the end of a file a write appends.
-/
theorem writeAt_length {l : Loc} {old : Bytes} (d : Bytes) (h : fs.data l = some old)
    : fs.writeAt l old.length d = fs.appendData l d := by
  have hnothing : old.drop (old.length + d.length) = [] := List.drop_eq_nil_of_le (by omega)
  simp [writeAt, appendData, h, hnothing]

/--
A file is only opened in a directory.
-/
theorem openWrite_place {l : Loc} (hstart : fs.kind (fs.start p) = some .dir) (h : fs.openWrite p = .ok (fs', l))
    : ∃ d n, l = d ++ [n] ∧ fs.kind d = some .dir
        ∧ (fs.kind (d ++ [n]) = none ∨ fs.kind (d ++ [n]) = some .file) := by
  obtain ⟨⟨left, hresolve⟩, hnotdir, -⟩ := openWrite_eq_ok_iff.mp h
  rcases resolve_create hresolve with hleads | ⟨-, hnone, d, n, rfl, hdir⟩
  . have hfile : fs.kind l = some .file :=
      (kind_of_resolve fs.isTree (.inl hstart) hleads).resolve_left hnotdir
    cases l using List.reverseRecOn with
    | nil => simp [fs.isTree.root] at hfile
    | append_singleton d n => exact ⟨d, n, rfl, fs.isTree.parent _ _ _ hfile, .inr hfile⟩
  . exact ⟨d, n, rfl, hdir, .inl hnone⟩

/--
The file that is opened is empty, and its path leads to it.
-/
theorem writes_openWrite_of_start {l : Loc} (hstart : fs.kind (fs.start p) = some .dir)
    (h : fs.openWrite p = .ok (fs', l))
    : Writes fs fs' l [] ∧ fs'.resolveElems p (Path.elems p) = .ok l := by
  obtain ⟨d, n, rfl, hdir, hleaf⟩ := openWrite_place hstart h
  obtain ⟨⟨left, hresolve⟩, -, rfl⟩ := openWrite_eq_ok_iff.mp h
  have hwrites := writes_put [] hdir hleaf
  have hleads := resolve_created hwrites.mono (kind_of_data _ hwrites.content) hresolve
  refine ⟨hwrites, ?_⟩
  have hsame : (fs.put (d ++ [n]) (.file [])).start p = fs.start p := rfl
  simp [resolveElems, hsame, hleads, Except.map]

theorem writes_openWrite {l : Loc} (habs : Path.isAbsolute p = true) (h : fs.openWrite p = .ok (fs', l))
    : Writes fs fs' l [] ∧ fs'.resolveElems p (Path.elems p) = .ok l := by
  refine writes_openWrite_of_start ?_ h
  rw [start, habs]
  exact fs.isTree.root

theorem Makes.keeps {dir names l : Loc} {n : Name} {made : List Loc} {old : Bytes}
    (h : fs.Makes dir n names fs' made) (hold : fs.data l = some old)
    : fs'.data l = some old := by
  rw [(h.others l ?_).2, hold]
  intro hmem
  exact fs.isTree.of_isPrefix (h.below l hmem) (fs.kind_of_data hold) h.missing

/--
Where a path leads, the elements that do not exist are taken as they are written.
-/
def location (fs : FileSystem) (p : Bytes) : Except Errno Loc := do
  let (l, es) ← fs.leading p [] (Path.elems p)
  .ok (Path.normalise true (l.map .name ++ es)).names

theorem location_of_leading {l names : Loc}
    (h : fs.leading p [] (Path.elems p) = .ok (l, names.map .name))
    : fs.location p = .ok (l ++ names)
        ∧ fs.weaklyCanonical p = .ok (Path.ofLoc (l ++ names)) := by
  simp only [location, weaklyCanonical, h, bind, Except.bind, ← List.map_append, Path.normalise_names]
  simp [Path.Normal.render]

end FileSystem
end SimpleRsyncd
