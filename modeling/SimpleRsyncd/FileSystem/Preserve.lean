import SimpleRsyncd.FileSystem.Changes

/-!
This module determines whose data an operation on the file system changes. Opening a file for writing
and removing one touch a single location, and a copy touches the file it replaces.
-/

namespace SimpleRsyncd
namespace FileSystem

open Resolve

variable {fs fs' : FileSystem} {p : Bytes} {l t : Loc} {old : Bytes}

theorem kind_start_of_resolve {create : Bool} {left : Nat} {e : Elem} {es : List Elem} {r : Loc × Nat} {cur : Loc}
    (h : SimpleRsyncd.resolve fs.kind create left cur (e :: es) = .ok r)
    : fs.kind cur = some .dir := by
  by_contra hdir
  simp [resolve_cons_of_not_dir hdir] at h

/--
A relative path that is not empty has an element.
-/
theorem elems_ne_nil (hp : p ≠ []) (habs : Path.isAbsolute p = false) : Path.elems p ≠ [] := by
  simp [Path.elems, Path.pieces_ne_nil hp habs]

/--
A file can only be opened from a directory.
-/
theorem kind_start_of_openWrite (hp : p ≠ []) (h : fs.openWrite p = .ok (fs', t))
    : fs.kind (fs.start p) = some .dir := by
  cases habs : Path.isAbsolute p with
  | true =>
    rw [start, habs]
    exact fs.isTree.root
  | false =>
    obtain ⟨⟨left, hresolve⟩, -, -⟩ := openWrite_eq_ok_iff.mp h
    cases helems : Path.elems p with
    | nil => exact absurd helems (elems_ne_nil hp habs)
    | cons e es =>
      rw [helems] at hresolve
      exact kind_start_of_resolve hresolve

/--
A file that was there before it is opened is the one its path leads to.
-/
theorem resolve_of_openWrite (hp : p ≠ []) (h : fs.openWrite p = .ok (fs', t)) (hold : fs.data t = some old)
    : fs.resolve p = .ok t := by
  obtain ⟨⟨left, hresolve⟩, -, -⟩ := openWrite_eq_ok_iff.mp h
  rcases resolve_create hresolve with hleads | ⟨-, hnone, -⟩
  . simp [resolve, hp, resolveElems, hleads, Except.map]
  . simp [fs.kind_of_data hold] at hnone

theorem openWrite_of_resolve (h : fs.resolve p = .ok l) (hold : fs.data l = some old)
    : fs.openWrite p = .ok (fs.put l (.file []), l) := by
  obtain ⟨-, left, hresolve⟩ := fs.resolve_eq_ok_iff.mp h
  exact openWrite_eq_ok_iff.mpr ⟨⟨left, resolve_create_of_resolve hresolve⟩, by simp [fs.kind_of_data hold], rfl⟩

theorem writes_of_openWrite (hp : p ≠ []) (h : fs.openWrite p = .ok (fs', t))
    : Writes fs fs' t [] ∧ fs'.resolve p = .ok t := by
  obtain ⟨hwrites, hleads⟩ := writes_openWrite_of_start (kind_start_of_openWrite hp h) h
  exact ⟨hwrites, by simp [resolve, hp, hleads]⟩

/--
An entry that a path names.
-/
theorem lresolve_eq_ok_iff {parent : List Elem} {n : Name} (helems : Path.elems p = parent ++ [.name n])
    : fs.lresolve p = .ok l
        ↔
      ∃ d, l = d ++ [n] ∧ fs.resolveElems p parent = .ok d ∧ fs.kind d = some .dir ∧ fs.kind (d ++ [n]) ≠ none := by
  unfold lresolve
  simp only [helems, List.getLast?_concat, List.dropLast_concat]
  cases hparent : fs.resolveElems p parent with
  | error => simp [bind, Except.bind]
  | ok d =>
    simp only [bind, Except.bind]
    by_cases hdir : fs.kind d = some .dir
    . by_cases hnone : fs.kind (d ++ [n]) = none
      . simp [hdir, hnone]
      . rw [if_neg (by simp [hdir]), if_neg hnone]
        constructor
        . intro h
          obtain rfl := Except.ok.inj h
          exact ⟨d, rfl, rfl, hdir, hnone⟩
        . rintro ⟨d', rfl, hd', -⟩
          obtain rfl := Except.ok.inj hd'
          rfl
    . simp [hdir]

/--
A path that names anything but a symbolic link also leads to it.
-/
theorem resolve_of_lresolve {k : Kind} (hp : p ≠ []) (h : fs.lresolve p = .ok l) (hkind : fs.kind l = some k)
    (hk : ∀ target, k ≠ .symlink target)
    : fs.resolve p = .ok l := by
  unfold lresolve at h
  split at h
  . next n hlast =>
    obtain ⟨es, helems⟩ := List.getLast?_eq_some_iff.mp hlast
    rw [helems, List.dropLast_concat] at h
    cases hparent : fs.resolveElems p es with
    | error => simp [hparent, bind, Except.bind] at h
    | ok d =>
      simp only [hparent, bind, Except.bind] at h
      split at h
      . contradiction
      . next hdir =>
        split at h
        . contradiction
        . obtain rfl := Except.ok.inj h
          simp only [ne_eq, Decidable.not_not] at hdir
          obtain ⟨left, hlast⟩ := resolve_concat hparent (.name n)
          have hentry : SimpleRsyncd.resolve fs.kind false left d [.name n]
              = SimpleRsyncd.resolve fs.kind false left (d ++ [n]) [] :=
            resolve_cons_entry hdir hkind hk
          simp [resolve, hp, helems, resolveElems, hlast, hentry, Except.map]
  . exact h

theorem kind_remove (fs : FileSystem) (hroot : t ≠ []) : (fs.remove t).kind t = none := by
  obtain ⟨d, n, rfl⟩ := (List.eq_nil_or_concat' t).resolve_left hroot
  by_cases hdir : fs.kind d = some .dir
  . have hnode : (fs.remove (d ++ [n])).node (d ++ [n]) = none := by
      rw [node, remove, root_alter]
      exact Node.get_alter_concat _ _ _ hdir
    rw [kind, hnode]
    rfl
  . have hkind : (fs.remove (d ++ [n])).kind d = fs.kind d := by
      have habove : ¬d ++ [n] <+: d := by
        intro hpre
        have hlength := hpre.length_le
        rw [List.length_append, List.length_singleton] at hlength
        omega
      rw [kind_eq_map_label, kind_eq_map_label, remove, label_node_alter _ _ habove]
    cases hthere : (fs.remove (d ++ [n])).kind (d ++ [n]) with
    | none => rfl
    | some k =>
      rw [← hkind, (fs.remove (d ++ [n])).isTree.parent _ _ _ hthere] at hdir
      contradiction

/--
A removal makes no data.
-/
theorem data_of_removePath (h : (fs.removePath p).2.data l = some old) : fs.data l = some old := by
  unfold removePath at h
  split at h
  . next t ht =>
    split at h
    . exact h
    . next hroot =>
      split at h
      . exact h
      . by_cases hpre : t <+: l
        . have hgone := fs.kind_remove (t := t) (by simpa using hroot)
          exact absurd hgone ((fs.remove t).isTree.of_isPrefix hpre (kind_of_data _ h))
        . rw [← h]
          exact (fs.data_eq_of_label_eq (fs.label_node_alter _ hpre)).symm
  . exact h
  . exact h
  . exact h

theorem data_createParent {made : List Loc} (h : fs.createParent p = .ok (fs', made))
    (hold : fs.data l = some old)
    : fs'.data l = some old :=
  (changesOnly_createParent h).data_eq hold not_false

/--
A copy overwrites the data of the file that its target leads to with `content`.
-/
structure Replaces (fs : FileSystem) (canRead canWrite : Bool) (src dst : Bytes) (overwrite : Bool)
    (l : Loc) (content : Bytes) : Prop where
  overwrite : overwrite = true
  canRead : canRead = true
  canWrite : canWrite = true
  target : fs.resolve dst = .ok l
  source : ∃ l', fs.resolve src = .ok l' ∧ l' ≠ l ∧ fs.data l' = some content

variable {canRead canWrite overwrite : Bool} {src dst : Bytes}

/--
Either a copy does nothing, or it opens its target, which is a file it may replace if it is there.
-/
theorem copyFile_cases
    : (fs.copyFile canRead canWrite src dst overwrite).2 = fs
        ∨ ∃ content l' fs₁ t, canRead = true ∧ canWrite = true ∧ fs.resolve src = .ok l'
          ∧ fs.data l' = some content ∧ fs.openWrite dst = .ok (fs₁, t)
          ∧ (∀ l, fs.resolve dst = .ok l → overwrite = true ∧ l' ≠ l)
          ∧ (fs.copyFile canRead canWrite src dst overwrite).2 = fs₁.appendData t content := by
  unfold copyFile
  dsimp only
  split
  . exact .inl rfl
  . next content hchecked =>
    split
    . next fs₁ t hwrite =>
      simp only [bind, Except.bind] at hchecked
      cases hsrc : fs.resolve src with
      | error e =>
        simp only [hsrc] at hchecked
        split at hchecked <;> contradiction
      | ok l' =>
        simp only [hsrc] at hchecked
        have hread : canRead = true := by
          cases canRead with
          | true => rfl
          | false =>
            simp only [Bool.not_false, if_true] at hchecked
            repeat' split at hchecked
            all_goals contradiction
        simp only [hread, Bool.not_true, Bool.false_eq_true, if_false] at hchecked
        cases hdata : fs.data l' with
        | none =>
          simp only [hdata] at hchecked
          repeat' split at hchecked
          all_goals contradiction
        | some content' =>
          simp only [hdata] at hchecked
          -- the tests on the destination pass the content on or fail
          obtain rfl : content' = content := by
            repeat' split at hchecked
            all_goals first
              | contradiction
              | exact Except.ok.inj hchecked
          refine .inr ⟨content', l', fs₁, t, hread, rfl, rfl, hdata, hwrite, ?_, rfl⟩
          intro l hl
          simp only [hl] at hchecked
          split at hchecked
          . contradiction
          . next hmay =>
            simp only [Bool.or_eq_true, decide_eq_true_eq, Bool.not_eq_true', not_or,
              Bool.not_eq_false] at hmay
            exact ⟨hmay.2, hmay.1⟩
    . exact .inl rfl
    . exact .inl rfl

/--
If the copy can go through, it does.
-/
theorem Replaces.copyFile {content : Bytes} (h : fs.Replaces canRead canWrite src dst overwrite l content)
    (hold : fs.data l = some old)
    : (fs.copyFile canRead canWrite src dst overwrite).2 = (fs.put l (.file [])).appendData l content := by
  obtain ⟨l', hsrc, hne, hdata⟩ := h.source
  have hwrite := openWrite_of_resolve h.target hold
  simp [FileSystem.copyFile, h.overwrite, h.canRead, h.canWrite, h.target, hsrc, hne, hdata, hwrite,
    fs.kind_of_data hold, bind, Except.bind]

/--
A copy changes the file that its target leads to afterwards.
-/
theorem changesOnly_copyFile (fs : FileSystem) (canRead canWrite : Bool) (src : Bytes) (overwrite : Bool)
    (hdst : dst ≠ [])
    : ChangesOnly fs (fs.copyFile canRead canWrite src dst overwrite).2 dst (Path.elems dst)
      fun l => (fs.copyFile canRead canWrite src dst overwrite).2.resolve dst = .ok l := by
  rcases copyFile_cases with heq | ⟨content, l', fs₁, t, -, -, -, -, hopen, -, heq⟩
  . rw [heq]
    exact .refl ..
  . rw [heq]
    obtain ⟨hwrites, hleads⟩ := writes_of_openWrite hdst hopen
    have happend := writes_appendData content hwrites.content
    have hleads' : (fs₁.appendData t content).resolve dst = .ok t :=
      resolve_mono happend.cwd happend.mono hleads
    -- opening may empty the target and appending refills it: both put a file at one place only
    have hothers : ∀ l, l ≠ t →
        ((fs₁.appendData t content).node l).map Node.label = (fs.node l).map Node.label := by
      intro l hl
      obtain ⟨d, n, rfl, hdir, hleaf⟩ := openWrite_place (kind_start_of_openWrite hdst hopen) hopen
      obtain ⟨-, -, rfl⟩ := openWrite_eq_ok_iff.mp hopen
      rw [appendData, hwrites.content]
      dsimp only
      rw [label_put_leaf (hwrites.mono _ _ hdir) (by simp [kind_of_data _ hwrites.content]) rfl hl]
      exact label_put_leaf hdir (by rcases hleaf with h | h <;> simp [h]) rfl hl
    exact {
      cwd := happend.cwd.trans hwrites.cwd
      mono := fun l k hk => happend.mono l k (hwrites.mono l k hk)
      kept := by
        intro l _ hwritten
        apply hothers
        rintro rfl
        exact hwritten hleads'
      made := by
        intro l hnone hsome
        by_cases hl : l = t
        . refine ⟨_, List.prefix_rfl, ?_⟩
          rw [hl]
          simpa [resolve, hdst] using hleads'
        . rw [kind_eq_map_label, hothers l hl, ← kind_eq_map_label] at hsome
          exact absurd hnone hsome
    }

end FileSystem
end SimpleRsyncd
