import SimpleRsyncd.Container.Slots
import SimpleRsyncd.FileSystem.File
import SimpleRsyncd.FileSystem.Hidden
import SimpleRsyncd.FileSystem.Preserve

/-!
This module contains some entries of one directory, as the functions on their paths see them: to open, to
write or to rename one of them changes what is read under its name and nothing else. The entries are files,
or symbolic links to files that lie elsewhere.
-/

namespace SimpleRsyncd

/--
A directory and what leads to it. The entries that the paths are about are not among the others.
-/
structure Site where
  others : Loc → Option Kind
  absolute : Bool
  start : Loc
  elems : List Elem
  loc : Loc
  left : Nat
  resolves : resolve others false maxSymlinks start elems = .ok (loc, left)
  isDir : others loc = some .dir

namespace Site

/--
The path names an entry of the directory.
-/
structure Names (site : Site) (p : Bytes) (n : Name) : Prop where
  isAbsolute : Path.isAbsolute p = site.absolute
  elems : Path.elems p = site.elems ++ [.name n]

/--
What is read from an entry, or that there is none.
-/
inductive Stores (site : Site) (fs : FileSystem) : Option Node → Option Bytes → Prop where
  | none : Stores site fs none none
  | file (c : Bytes) : Stores site fs (some (.file c)) (some c)
  | link {target c : Bytes} {left left' : Nat} {l : Loc}
      (hleft : site.left = left + 1)
      (hresolve : resolve site.others false left (if Path.isAbsolute target then [] else site.loc) (Path.elems target)
        = .ok (l, left'))
      (hfile : site.others l = some .file)
      (hdata : fs.data l = some c)
    : Stores site fs (some (.symlink target)) (some c)

variable {site : Site} {fs : FileSystem} {node : Option Node} {content : Option Bytes}

theorem Stores.kind_ne_dir (h : site.Stores fs node content) : node.map Node.kind ≠ some .dir := by
  cases h with
  | none => simp
  | file c => simp [Node.kind]
  | link => simp [Node.kind]

/--
Such an entry is determined by its label.
-/
theorem Stores.eq_of_label {node' : Option Node} (h : site.Stores fs node content)
    (hlabel : node'.map Node.label = node.map Node.label)
    : node' = node := by
  cases h with
  | none => simpa using hlabel
  | file c => rcases node' with _ | _ | _ | _ <;> simp_all [Node.label]
  | link => rcases node' with _ | _ | _ | _ <;> simp_all [Node.label]

end Site

/--
Some names of a directory with what is read from them.
-/
structure Folder {ι : Type} (site : Site) (name : ι → Name) (fs : FileSystem) (files : ι → Option Bytes) : Prop where
  start : site.start = if site.absolute then [] else fs.cwd
  others : ∀ l k, site.others l = some k → fs.kind l = some k
  hides : ∀ i, site.others (site.loc ++ [name i]) = none
  stores : ∀ i, site.Stores fs (fs.node (site.loc ++ [name i])) (files i)

namespace Folder

open Resolve

variable {ι : Type} {site : Site} {name : ι → Name} {fs : FileSystem} {files : ι → Option Bytes} {i j : ι} {p q c : Bytes}
  {node : Option Node} {content : Option Bytes}

theorem kind_loc (h : Folder site name fs files) : fs.kind site.loc = some .dir :=
  h.others _ _ site.isDir

theorem kind_ne_dir (h : Folder site name fs files) (i : ι) : fs.kind (site.loc ++ [name i]) ≠ some .dir :=
  (h.stores i).kind_ne_dir

theorem not_isPrefix (h : Folder site name fs files) (i : ι) {l : Loc} {k : Kind} (hl : site.others l = some k)
    : ¬site.loc ++ [name i] <+: l := by
  rintro ⟨below, rfl⟩
  cases below with
  | nil => simp [h.hides i] at hl
  | cons n below =>
    have hkind := h.others _ _ hl
    exact h.kind_ne_dir i (fs.isTree.dir_of_append hkind)

theorem not_isPrefix_of_file (h : Folder site name fs files) (i : ι) {l : Loc} (hl : site.others l = some .file)
    : ¬l <+: site.loc ++ [name i] := by
  intro hpre
  rcases List.prefix_concat_iff.mp hpre with rfl | ⟨below, hbelow⟩
  . simp [h.hides i] at hl
  . cases below with
    | nil =>
      rw [List.append_nil] at hbelow
      rw [hbelow, site.isDir] at hl
      contradiction
    | cons n below =>
      have hdir := h.kind_loc
      rw [← hbelow] at hdir
      have := fs.isTree.dir_of_append hdir
      rw [h.others l _ hl] at this
      contradiction

theorem start_eq (h : Folder site name fs files) (hp : site.Names p (name i)) : fs.start p = site.start := by
  rw [FileSystem.start, hp.isAbsolute, h.start]

theorem resolve_eq (h : Folder site name fs files) (hp : site.Names p (name i)) (create : Bool)
    : resolve fs.kind create maxSymlinks (fs.start p) (Path.elems p)
        = resolve fs.kind create site.left site.loc [.name (name i)] := by
  rw [h.start_eq hp, hp.elems, resolve_append _ _ _ _ (.inr (by simp)), resolve_mono h.others site.resolves]
  rfl

theorem resolveElems_eq (h : Folder site name fs files) (hp : site.Names p (name i))
    : fs.resolveElems p site.elems = .ok site.loc := by
  rw [FileSystem.resolveElems, h.start_eq hp, resolve_mono h.others site.resolves]
  rfl

theorem ne_nil (hp : site.Names p (name i)) : p ≠ [] := by
  rintro rfl
  have hnil : Path.elems [] = [] := by decide
  simpa [hnil] using hp.elems

/--
A name leads to the file that is read, which is the entry itself or lies elsewhere.
-/
theorem resolve_of_some (h : Folder site name fs files) (hp : site.Names p (name i)) (hc : files i = some c)
    : ∃ l, fs.resolve p = .ok l ∧ fs.data l = some c
        ∧ (l = site.loc ++ [name i]
          ∨ site.others l = some .file ∧ ∀ (fs' : FileSystem) c', fs'.data l = some c' →
            site.Stores fs' (fs.node (site.loc ++ [name i])) (some c')) := by
  have hresolve : fs.resolve p = (resolve fs.kind false site.left site.loc [.name (name i)]).map Prod.fst := by
    rw [FileSystem.resolve, if_neg (by simpa using ne_nil hp), FileSystem.resolveElems, h.resolve_eq hp]
  have hstores := h.stores i
  rw [hc] at hstores
  rw [hresolve]
  generalize hnode : fs.node (site.loc ++ [name i]) = node at hstores
  cases hstores with
  | file =>
    have hkind : fs.kind (site.loc ++ [name i]) = some .file := by
      rw [FileSystem.kind, hnode]
      rfl
    refine ⟨site.loc ++ [name i], ?_, by rw [FileSystem.data, hnode], .inl rfl⟩
    rw [resolve_cons_entry h.kind_loc hkind (by simp), resolve_nil]
    rfl
  | @link target _ left left' l hleft hleads hfile hdata =>
    have hkind : fs.kind (site.loc ++ [name i]) = some (.symlink target) := by
      rw [FileSystem.kind, hnode]
      rfl
    refine ⟨l, ?_, hdata, .inr ⟨hfile, fun _ _ hdata' => .link hleft hleads hfile hdata'⟩⟩
    rw [hleft, resolve_cons_symlink h.kind_loc hkind, List.append_nil, resolve_mono h.others hleads]
    rfl

theorem node_of_none (h : Folder site name fs files) (hnone : files i = none) : fs.node (site.loc ++ [name i]) = none := by
  have hstores := h.stores i
  rw [hnone] at hstores
  generalize fs.node (site.loc ++ [name i]) = node at hstores
  cases hstores
  rfl

theorem resolve_of_none (h : Folder site name fs files) (hp : site.Names p (name i)) (hnone : files i = none)
    : fs.resolve p = .error .enoent := by
  have hkind : fs.kind (site.loc ++ [name i]) = none := by
    rw [FileSystem.kind, h.node_of_none hnone]
    rfl
  rw [FileSystem.resolve, if_neg (by simpa using ne_nil hp), FileSystem.resolveElems, h.resolve_eq hp,
    resolve_cons_none h.kind_loc hkind]
  rfl

theorem exists_eq (h : Folder site name fs files) (hp : site.Names p (name i))
    : fs.exists p = .ok (files i).isSome := by
  rw [FileSystem.exists]
  cases hi : files i with
  | none =>
    rw [h.resolve_of_none hp hi]
    rfl
  | some c =>
    obtain ⟨l, hl, -⟩ := h.resolve_of_some hp hi
    rw [hl]
    rfl

theorem read_eq (h : Folder site name fs files) (hp : site.Names p (name i)) : fs.read p = files i := by
  rw [FileSystem.read]
  cases hi : files i with
  | none => rw [h.resolve_of_none hp hi]
  | some c =>
    obtain ⟨l, hl, hdata, -⟩ := h.resolve_of_some hp hi
    rw [hl]
    exact hdata

/--
An entry gets other contents, or is removed.
-/
theorem stores_alter (h : Folder site name fs files) (hstores : site.Stores fs node content) (i : ι)
    (f : Option Node → Option Node)
    : site.Stores (fs.alter (site.loc ++ [name i]) f) node content := by
  cases hstores with
  | none => exact .none
  | file c => exact .file c
  | link hleft hresolve hfile hdata =>
    refine .link hleft hresolve hfile ?_
    rw [← hdata]
    exact fs.data_eq_of_label_eq (fs.label_node_alter f (h.not_isPrefix i hfile))

theorem alter [DecidableEq ι] (hinj : Function.Injective name) (h : Folder site name fs files) (i : ι)
    (hstores : site.Stores fs node content)
    : Folder site name (fs.alter (site.loc ++ [name i]) fun _ => node) (Function.update files i content) where
  start := h.start
  others := by
    intro l k hl
    rw [FileSystem.kind_eq_map_label, FileSystem.label_node_alter _ _ (h.not_isPrefix i hl),
      ← FileSystem.kind_eq_map_label, h.others l k hl]
  hides := h.hides
  stores := by
    intro j
    by_cases hj : j = i
    . subst hj
      have hnode : (fs.alter (site.loc ++ [name j]) fun _ => node).node (site.loc ++ [name j]) = node := by
        rw [FileSystem.node, FileSystem.root_alter]
        exact Node.get_alter_concat _ _ _ h.kind_loc
      rw [Function.update_self, hnode]
      exact h.stores_alter hstores j _
    . have hbeside : ¬site.loc ++ [name i] <+: site.loc ++ [name j] := by
        rw [List.prefix_append_right_inj, List.prefix_cons_iff]
        simp [hinj.ne (Ne.symm hj)]
      rw [Function.update_of_ne hj, (h.stores j).eq_of_label (fs.label_node_alter _ hbeside)]
      exact h.stores_alter (h.stores j) i _

/--
To rename an entry over another is to move what is read from it.
-/
theorem rename [DecidableEq ι] (hinj : Function.Injective name) (h : Folder site name fs files)
    (hp : site.Names p (name i)) (hq : site.Names q (name j)) (hsome : (files i).isSome = true) (hne : i ≠ j)
    : ∃ fs', fs.rename p q = .ok fs' ∧ Folder site name fs' (Slots.move files i j) := by
  obtain ⟨c, hc⟩ := Option.isSome_iff_exists.mp hsome
  have hstores := h.stores i
  rw [hc] at hstores
  obtain ⟨moved, hmoved⟩ : ∃ moved, fs.node (site.loc ++ [name i]) = some moved := by
    generalize fs.node (site.loc ++ [name i]) = node at hstores
    cases hstores <;> exact ⟨_, rfl⟩
  have hsource : fs.kind (site.loc ++ [name i]) = some moved.kind := by
    rw [FileSystem.kind, hmoved]
    rfl
  have hfile : moved.kind ≠ .dir := by
    have := h.kind_ne_dir i
    rw [hsource] at this
    simpa using this
  have hl : fs.lresolve p = .ok (site.loc ++ [name i]) := by
    simp [FileSystem.lresolve, hp.elems, h.resolveElems_eq hp, bind, Except.bind, h.kind_loc, hsource]
  have hlocs : site.loc ++ [name i] ≠ site.loc ++ [name j] := by simpa using hinj.ne hne
  refine ⟨(fs.remove (site.loc ++ [name i])).put (site.loc ++ [name j]) moved, ?_, ?_⟩
  . have htarget := h.kind_ne_dir j
    simp only [FileSystem.rename, hl, hq.elems, List.dropLast_concat, List.getLast?_concat, h.resolveElems_eq hq,
      hmoved, bind, Except.bind, h.kind_loc, ne_eq, not_true, if_false]
    split <;> simp_all
  . rw [Slots.move, if_pos hsome, hc]
    rw [hmoved] at hstores
    exact (h.alter hinj i .none).alter hinj j (h.stores_alter hstores i _)

theorem openWrite_of_none [DecidableEq ι] (hinj : Function.Injective name) (h : Folder site name fs files)
    (hp : site.Names p (name i)) (hnone : files i = none)
    : ∃ fs' l, fs.openWrite p = .ok (fs', l) ∧ Folder site name fs' (Function.update files i (some []))
        ∧ fs'.resolve p = .ok l ∧ l = site.loc ++ [name i] := by
  have hkind : fs.kind (site.loc ++ [name i]) = none := by
    rw [FileSystem.kind, h.node_of_none hnone]
    rfl
  have hopen : fs.openWrite p = .ok (fs.put (site.loc ++ [name i]) (.file []), site.loc ++ [name i]) := by
    refine FileSystem.openWrite_eq_ok_iff.mpr ⟨⟨site.left, ?_⟩, by simp [hkind], rfl⟩
    rw [h.resolve_eq hp, resolve_cons_none h.kind_loc hkind]
    rfl
  exact ⟨_, _, hopen, h.alter hinj i (.file []), (FileSystem.writes_of_openWrite (ne_nil hp) hopen).2, rfl⟩

/--
To write into the file that a name leads to is to write what is read from it. Where the file lies elsewhere,
other names may lead to it.
-/
theorem appendData [DecidableEq ι] (hinj : Function.Injective name) (h : Folder site name fs files) {l : Loc}
    (hp : site.Names p (name i)) (hc : files i = some c) (hl : fs.resolve p = .ok l)
    (halone : l = site.loc ++ [name i] ∨ ∀ j, j ≠ i → files j = none) (t : Bytes)
    : Folder site name (fs.appendData l t) (Function.update files i (some (c ++ t)))
        ∧ (fs.appendData l t).resolve p = .ok l := by
  obtain ⟨l', hl', hdata, hwhere⟩ := h.resolve_of_some hp hc
  obtain rfl : l = l' := Except.ok.inj (hl.symm.trans hl')
  have hwrites := FileSystem.writes_appendData t hdata
  have hput : fs.appendData l t = fs.put l (.file (c ++ t)) := by
    rw [FileSystem.appendData, hdata]
  refine ⟨?_, ?_⟩
  . rcases hwhere with rfl | ⟨hfile, hreads⟩
    . rw [hput]
      exact h.alter hinj i (.file _)
    . have hnode : ∀ j, (fs.appendData l t).node (site.loc ++ [name j]) = fs.node (site.loc ++ [name j]) := by
        intro j
        rw [hput]
        exact (h.stores j).eq_of_label (fs.label_node_alter _ (h.not_isPrefix_of_file j hfile))
      refine ⟨?_, fun l k hl => hwrites.mono l k (h.others l k hl), h.hides, ?_⟩
      . rw [hwrites.cwd, h.start]
      . intro j
        rw [hnode]
        by_cases hj : j = i
        . subst hj
          rw [Function.update_self]
          exact hreads _ _ hwrites.content
        . have hnone : files j = none := by
            rcases halone with heq | hnone
            . rw [heq, h.hides i] at hfile
              contradiction
            . exact hnone j hj
          rw [Function.update_of_ne hj, hnone, h.node_of_none hnone]
          exact .none
  . exact FileSystem.resolve_mono hwrites.cwd hwrites.mono hl

end Folder

namespace FileSystem

open Resolve

variable {fs : FileSystem} {p : Bytes} {l : Loc}

/--
A path that leads somewhere leads somewhere without its last element.
-/
theorem exists_resolve_of_concat {es : List Elem} {e : Elem} (h : fs.resolve p = .ok l) (helems : Path.elems p = es ++ [e])
    : ∃ d left left', SimpleRsyncd.resolve fs.kind false maxSymlinks (fs.start p) es = .ok (d, left)
        ∧ fs.kind d = some .dir ∧ SimpleRsyncd.resolve fs.kind false left d [e] = .ok (l, left') := by
  rw [resolve] at h
  split at h
  . contradiction
  . rw [resolveElems, helems, resolve_append _ _ _ _ (.inl rfl)] at h
    cases hes : SimpleRsyncd.resolve fs.kind false maxSymlinks (fs.start p) es with
    | error => simp [hes, Except.bind, Except.map] at h
    | ok r =>
      simp only [hes, Except.bind] at h
      refine ⟨r.1, r.2, ?_⟩
      cases hlast : SimpleRsyncd.resolve fs.kind false r.2 r.1 [e] with
      | error => simp [hlast, Except.map] at h
      | ok r' =>
        rw [hlast] at h
        refine ⟨r'.2, rfl, ?_, by rw [← Except.ok.inj h]⟩
        by_contra hdir
        simp [resolve_cons_of_not_dir hdir] at hlast

/--
Only a name leads to a file.
-/
theorem exists_name_of_resolve (h : fs.resolve p = .ok l) (hl : fs.kind l = some .file)
    : ∃ es n, Path.elems p = es ++ [.name n] := by
  cases helems : Path.elems p using List.reverseRecOn with
  | nil =>
    rw [resolve] at h
    split at h
    . contradiction
    . next hne =>
      have habs : Path.isAbsolute p = true := by
        by_contra habs
        exact elems_ne_nil (by simpa using hne) (by simpa using habs) helems
      rw [resolveElems, helems, resolve_nil, start, habs] at h
      rw [← Except.ok.inj h] at hl
      simp [fs.isTree.root] at hl
  | append_singleton es e =>
    obtain ⟨d, left, left', -, hdir, hlast⟩ := exists_resolve_of_concat h helems
    cases e with
    | name n => exact ⟨es, n, rfl⟩
    | dot | empty =>
      rw [resolve_cons_stay hdir (by simp), resolve_nil] at hlast
      simp [← (Prod.mk.inj (Except.ok.inj hlast)).1, hdir] at hl
    | dotdot =>
      rw [resolve_cons_dotdot hdir, resolve_nil] at hlast
      simp [← (Prod.mk.inj (Except.ok.inj hlast)).1, fs.isTree.dropLast hdir] at hl

/--
A path that leads to nothing from a directory that is reached names nothing in it.
-/
theorem kind_eq_none_of_lresolve {es : List Elem} {d : Loc} {left : Nat} {n : Name} (helems : Path.elems p = es ++ [.name n])
    (hes : SimpleRsyncd.resolve fs.kind false maxSymlinks (fs.start p) es = .ok (d, left)) (hdir : fs.kind d = some .dir)
    (h : fs.lresolve p = .error .enoent)
    : fs.kind (d ++ [n]) = none := by
  rw [lresolve, helems, List.getLast?_concat, List.dropLast_concat, resolveElems, hes] at h
  by_contra hsome
  simp [bind, Except.bind, Except.map, hdir, hsome] at h

section hidden

variable {hidden : Loc → Prop} {d : Loc} {n : Name} {left left' : Nat}
  (honly : ∀ l, hidden l → fs.kind l ≠ none → l = d ++ [n])

include honly

theorem without_of_ne (hkind : fs.kind l ≠ none) (hne : l ≠ d ++ [n]) : without fs.kind hidden l = fs.kind l :=
  without_of_not fun hhidden => hne (honly l hhidden hkind)

/--
An entry that leads to a file stores it, also if the file lies behind a symbolic link.
-/
theorem stores_of_resolve {site : Site} (hothers : site.others = without fs.kind hidden) (hloc : site.loc = d)
    (hleft : site.left = left) (hdir : fs.kind d = some .dir)
    (hresolve : SimpleRsyncd.resolve fs.kind false left d [.name n] = .ok (l, left')) {c : Bytes}
    (hdata : fs.data l = some c)
    : site.Stores fs (fs.node (d ++ [n])) (some c) := by
  have hfile := fs.kind_of_data hdata
  have hkind : fs.kind (d ++ [n]) = (fs.node (d ++ [n])).map Node.kind := rfl
  cases hnode : fs.node (d ++ [n]) with
  | none =>
    rw [hnode] at hkind
    simp [resolve_cons_none hdir hkind] at hresolve
  | some node =>
    rw [hnode] at hkind
    cases node with
    | dir entries =>
      rw [resolve_cons_entry hdir hkind (by simp [Node.kind]), resolve_nil] at hresolve
      rw [← (Prod.mk.inj (Except.ok.inj hresolve)).1, hkind] at hfile
      simp [Node.kind] at hfile
    | file c' =>
      rw [resolve_cons_entry hdir hkind (by simp [Node.kind]), resolve_nil] at hresolve
      rw [← (Prod.mk.inj (Except.ok.inj hresolve)).1, data, hnode] at hdata
      obtain rfl := Option.some.inj hdata
      exact .file c'
    | symlink target =>
      obtain ⟨left₂, r, rfl, hleads⟩ := resolve_target honly hdir hkind hresolve
      have hl : r.1 = l := by
        rw [resolve_cons_symlink hdir hkind, List.append_nil] at hresolve
        exact resolve_unique (Resolve.resolve_mono (fun _ _ => without_mono) hleads) hresolve
      have hshow : site.others l = some .file := by
        rw [hothers, without_of_ne honly (by simp [hfile]), hfile]
        rintro rfl
        rw [hkind] at hfile
        simp [Node.kind] at hfile
      exact .link hleft (by rw [hothers, hloc, hleads, ← hl]) hshow hdata

end hidden

/--
A path that leads to a file, with other names in its directory under which there is nothing.
-/
theorem exists_folder {ι : Type} [DecidableEq ι] {name : ι → Name} {path : ι → Bytes} {i : ι} {es : List Elem} {c : Bytes}
    (habs : ∀ j, Path.isAbsolute (path j) = Path.isAbsolute (path i))
    (helems : ∀ j, Path.elems (path j) = es ++ [.name (name j)])
    (hl : fs.resolve (path i) = .ok l) (hdata : fs.data l = some c)
    (hnone : ∀ j, j ≠ i → fs.lresolve (path j) = .error .enoent)
    : ∃ site : Site, (∀ j, site.Names (path j) (name j))
        ∧ Folder site name fs (Function.update (fun _ => none) i (some c)) := by
  have hfile := fs.kind_of_data hdata
  obtain ⟨d, left, left', hes, hdir, hlast⟩ := exists_resolve_of_concat hl (helems i)
  have habsent : ∀ j, j ≠ i → fs.kind (d ++ [name j]) = none := by
    intro j hj
    have hstart : fs.start (path j) = fs.start (path i) := by rw [start, start, habs]
    exact kind_eq_none_of_lresolve (helems j) (by rw [hstart, hes]) hdir (hnone j hj)
  have hentry : fs.kind (d ++ [name i]) ≠ some .dir := by
    intro hentry
    rw [resolve_cons_entry hdir hentry (by simp), resolve_nil] at hlast
    simp [← (Prod.mk.inj (Except.ok.inj hlast)).1, hentry] at hfile
  -- the rest of the file system is what is left without the named entries
  let hidden (l : Loc) : Prop := ∃ j, l = d ++ [name j]
  have honly : ∀ l, hidden l → fs.kind l ≠ none → l = d ++ [name i] := by
    rintro l ⟨j, rfl⟩ hsome
    by_cases hj : j = i
    . rw [hj]
    . exact absurd (habsent j hj) hsome
  have hd : without fs.kind hidden d = some .dir := by
    rw [without_of_ne honly (by simp [hdir]) (by simp), hdir]
  let site : Site :=
    {
      others := without fs.kind hidden
      absolute := Path.isAbsolute (path i)
      start := fs.start (path i)
      elems := es
      loc := d
      left
      resolves := resolve_of_only_hidden honly hentry (fun _ _ _ h => kind_of_resolve_file hlast hfile h) hes hdir
      isDir := hd
    }
  refine ⟨site, fun j => ⟨habs j, helems j⟩, rfl, fun _ _ => without_mono, fun j => without_of_hidden ⟨j, rfl⟩, ?_⟩
  intro j
  by_cases hj : j = i
  . subst hj
    rw [Function.update_self]
    exact stores_of_resolve honly rfl rfl rfl hdir hlast hdata
  . have hnode : fs.node (d ++ [name j]) = none := Option.map_eq_none_iff.mp (habsent j hj)
    have hstores : fs.node (site.loc ++ [name j]) = none := hnode
    rw [Function.update_of_ne hj, hstores]
    exact .none

end FileSystem
end SimpleRsyncd
