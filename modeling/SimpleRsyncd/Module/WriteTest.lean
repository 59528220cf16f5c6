import SimpleRsyncd.Module.Overwrite

/-!
This module determines when the check for write permission leaves the file system as it was. The test file
has a fixed name, and whatever has that name is opened for writing and removed.
-/

namespace SimpleRsyncd

namespace Path

theorem elems_testPath (dir : Bytes) : ∃ es n, elems (Module.testPath dir) = es ++ [.name n] := by
  obtain ⟨s, hs⟩ := append_append dir [] (bytes ".rsyncd_write_test")
  rw [Module.testPath, ← List.nil_append (bytes ".rsyncd_write_test"), hs]
  exact elems_append_suffix s (by decide) (by decide)

end Path

namespace FileSystem

open Resolve

variable {fs fs' : FileSystem} {p : Bytes} {parent : List Elem} {n : Name} {l t : Loc}

/--
A path with nothing at its end is opened by adding a file there.
-/
theorem openWrite_of_missing (helems : Path.elems p = parent ++ [.name n]) (hopen : fs.openWrite p = .ok (fs', t))
    (hmissing : ∀ l, fs.lresolve p ≠ .ok l)
    : ∃ d, t = d ++ [n] ∧ fs.resolveElems p parent = .ok d ∧ fs.kind d = some .dir ∧ fs.kind (d ++ [n]) = none := by
  obtain ⟨⟨left, hresolve⟩, -, -⟩ := openWrite_eq_ok_iff.mp hopen
  rw [helems, resolve_append _ _ _ _ (.inr (by simp))] at hresolve
  cases hparent : SimpleRsyncd.resolve fs.kind false maxSymlinks (fs.start p) parent with
  | error => simp [hparent, Except.bind] at hresolve
  | ok r =>
    obtain ⟨d, left'⟩ := r
    have hd : fs.resolveElems p parent = .ok d := by simp [resolveElems, hparent, Except.map]
    simp only [hparent, Except.bind] at hresolve
    have hdir := kind_start_of_resolve hresolve
    have hnone : fs.kind (d ++ [n]) = none := by
      by_contra hthere
      exact hmissing (d ++ [n]) ((lresolve_eq_ok_iff helems).mpr ⟨d, rfl, hd, hdir, hthere⟩)
    rw [resolve_cons_none hdir hnone] at hresolve
    simp only [List.isEmpty_nil, Bool.and_self, if_true, Except.ok.injEq, Prod.mk.injEq] at hresolve
    exact ⟨d, hresolve.1.symm, hd, hdir, hnone⟩

/--
A file that is added and removed leaves no trace.
-/
theorem sameTree_openWrite_removePath (helems : Path.elems p = parent ++ [.name n])
    (hopen : fs.openWrite p = .ok (fs', t)) (hmissing : ∀ l, fs.lresolve p ≠ .ok l)
    : SameTree fs (fs'.removePath p).2 := by
  obtain ⟨d, rfl, hparent, hdir, hnone⟩ := openWrite_of_missing helems hopen hmissing
  obtain ⟨-, -, rfl⟩ := openWrite_eq_ok_iff.mp hopen
  have hmono := fs.kind_put_mono (c := .file []) hdir (.inl hnone)
  have hnames : (fs.put (d ++ [n]) (.file [])).lresolve p = .ok (d ++ [n]) := by
    refine (lresolve_eq_ok_iff helems).mpr ⟨d, rfl, resolveElems_mono (fs.put_cwd _ _) hmono hparent, hmono _ _ hdir, ?_⟩
    simp [fs.kind_put _ hdir]
  have hremoved : ((fs.put (d ++ [n]) (.file [])).removePath p).2 = (fs.put (d ++ [n]) (.file [])).remove (d ++ [n]) := by
    simp [removePath, hnames, fs.node_put _ hdir, Node.entries]
  rw [hremoved]
  refine ⟨rfl, ?_⟩
  intro l
  by_cases hpre : d ++ [n] <+: l
  . have hbefore : fs.node l = none := by
      have hkind : fs.kind l = none := by
        by_contra hthere
        obtain ⟨k, hk⟩ := Option.ne_none_iff_exists'.mp hthere
        exact fs.isTree.of_isPrefix hpre hk hnone
      simpa [kind] using hkind
    have hafter : ((fs.put (d ++ [n]) (.file [])).remove (d ++ [n])).node l = none := by
      have hgone : ((fs.put (d ++ [n]) (.file [])).remove (d ++ [n])).kind l = none := by
        by_contra hthere
        obtain ⟨k, hk⟩ := Option.ne_none_iff_exists'.mp hthere
        exact isTree _ |>.of_isPrefix hpre hk (kind_remove _ (by simp))
      simpa [kind] using hgone
    rw [hbefore, hafter]
  . rw [remove, label_node_alter _ _ hpre, put, label_node_alter _ _ hpre]

/--
An entry that is named by the path of a file that is opened and removed is gone.
-/
theorem kind_openWrite_removePath (hp : p ≠ []) (helems : Path.elems p = parent ++ [.name n])
    (hopen : fs.openWrite p = .ok (fs', t)) (hnames : fs.lresolve p = .ok l)
    : (fs'.removePath p).2.kind l = none := by
  obtain ⟨d, rfl, hparent, hdir, hthere⟩ := (lresolve_eq_ok_iff helems).mp hnames
  obtain ⟨k, hk⟩ := Option.ne_none_iff_exists'.mp hthere
  have hwrites := (writes_of_openWrite hp hopen).1
  have hleaf : k ≠ .dir := by
    rintro rfl
    obtain ⟨-, left, hleads⟩ := fs.resolve_eq_ok_iff.mp (resolve_of_lresolve hp hnames hk (by simp))
    obtain ⟨⟨left', hresolve⟩, hnotdir, -⟩ := openWrite_eq_ok_iff.mp hopen
    rw [resolve_create_of_resolve hleads] at hresolve
    obtain ⟨rfl, -⟩ := Prod.mk.inj (Except.ok.inj hresolve)
    exact hnotdir hk
  have hnames' : fs'.lresolve p = .ok (d ++ [n]) := by
    refine (lresolve_eq_ok_iff helems).mpr
      ⟨d, rfl, resolveElems_mono hwrites.cwd hwrites.mono hparent, hwrites.mono _ _ hdir, ?_⟩
    simp [hwrites.mono _ _ hk]
  have hentries : (fs'.node (d ++ [n])).any (!·.entries.isEmpty) = false := by
    have hk' := hwrites.mono _ _ hk
    rw [kind] at hk'
    cases hnode : fs'.node (d ++ [n]) with
    | none => rfl
    | some c => cases c <;> simp_all [Node.kind, Node.entries]
  have hremoved : (fs'.removePath p).2 = fs'.remove (d ++ [n]) := by
    simp [removePath, hnames', hentries]
  rw [hremoved]
  exact kind_remove _ (by simp)

end FileSystem

namespace Module

section sameTree

variable {m : Module} {fs fs' : FileSystem} {base resolved walk path : Bytes} (h : FileSystem.SameTree fs fs')

include h

theorem symlinkWalk_of_sameTree (parts : List Bytes) : symlinkWalk fs' walk parts = symlinkWalk fs walk parts := by
  induction parts generalizing walk with
  | nil => rfl
  | cons part parts ih => simp only [symlinkWalk, h.exists, h.isSymlink, ih]

theorem resolvePath_of_sameTree : m.resolvePath fs' path = m.resolvePath fs path := by
  simp only [resolvePath, h.absolute, linkFree, symlinkWalk_of_sameTree h, checkCanonical, h.weaklyCanonical]

theorem resolveSafe_of_sameTree : m.resolveSafe fs' path = m.resolveSafe fs path := by
  simp only [resolveSafe, isPathSafe, isPathTraversal, resolvePath_of_sameTree h]

end sameTree

/--
Nothing changes but what a call with this path is asked for: the new entries are on the way along the
resolved path, and entries that were there stay what they are, except those in `written`.
-/
def ChangesAsked (m : Module) (fs fs' : FileSystem) (path : Bytes) (written : Bytes → Loc → Prop) : Prop :=
  FileSystem.SameTree fs fs'
    ∨ ∃ p, m.resolveSafe fs path = .ok (some p) ∧ fs.ChangesOnly fs' p (Path.elems p) (written p)

/--
The test file can be opened, and there is something of its name.
-/
def TestHits (m : Module) (host : Host) (fs : FileSystem) (path : Bytes) : Prop :=
  ∃ dir opened l, m.testDirectory fs path = .ok (some dir) ∧ host.canWrite (testPath dir) = true
    ∧ fs.openWrite (testPath dir) = .ok opened ∧ fs.lresolve (testPath dir) = .ok l

variable {m : Module} {host : Host} {fs : FileSystem} {path : Bytes}

theorem sameTree_checkWritePermission_iff
    : FileSystem.SameTree fs (m.checkWritePermission host fs path).2 ↔ ¬m.TestHits host fs path := by
  constructor
  . rintro hsame ⟨dir, ⟨fs₁, t⟩, l, hdir, hwrite, hopen, hnames⟩
    obtain ⟨es, n, helems⟩ := Path.elems_testPath dir
    have hgone := FileSystem.kind_openWrite_removePath (testPath_ne_nil dir) helems hopen hnames
    obtain ⟨d, rfl, -, -, hthere⟩ := (FileSystem.lresolve_eq_ok_iff helems).mp hnames
    have hafter : (m.checkWritePermission host fs path).2 = (fs₁.removePath (testPath dir)).2 := by
      rw [checkWritePermission_eq, hdir]
      simp only [hwrite, hopen]
      split <;> simp_all
    rw [hafter] at hsame
    rw [← hsame.kind, hgone] at hthere
    contradiction
  . intro hmisses
    rw [checkWritePermission_eq]
    split
    . exact .refl fs
    . exact .refl fs
    . next dir hdir =>
      split
      . next fs₁ t hwrite hopen =>
        obtain ⟨es, n, helems⟩ := Path.elems_testPath dir
        have hsame := FileSystem.sameTree_openWrite_removePath helems hopen
          fun l hnames => hmisses ⟨dir, _, l, hdir, hwrite, hopen, hnames⟩
        split <;> simp_all
      . exact .refl fs

theorem changesOnly_transfer {target : Bytes} (source : Bytes) (overwrite : Bool) (htarget : target ≠ [])
    : fs.ChangesOnly (transfer host fs source target path overwrite).2 target (Path.elems target)
      fun l => (transfer host fs source target path overwrite).2.resolve target = .ok l := by
  unfold transfer
  dsimp only
  cases hparent : fs.createParent target with
  | error => exact .refl ..
  | ok r =>
    obtain ⟨fs₁, made⟩ := r
    have hcopy := fs₁.changesOnly_copyFile (host.canRead source) (host.canWrite target) source overwrite htarget
    dsimp only
    generalize fs₁.copyFile (host.canRead source) (host.canWrite target) source target overwrite = result at hcopy ⊢
    obtain ⟨outcome, fs₂⟩ := result
    cases outcome <;> exact (FileSystem.changesOnly_createParent hparent).trans hcopy

section asked

variable (htest : FileSystem.SameTree fs (m.checkWritePermission host fs path).2)

include htest

theorem changesAsked_createDirectory (recursive : Bool)
    : m.ChangesAsked fs (m.createDirectory host fs path recursive).2 path fun _ _ => False := by
  unfold createDirectory
  split
  . exact .inl (.refl fs)
  . generalize m.checkWritePermission host fs path = result at htest ⊢
    obtain ⟨granted, fs₁⟩ := result
    match granted with
    | .error _ | .ok false => exact .inl htest
    | .ok true =>
      dsimp only
      split
      . exact .inl htest
      . exact .inl htest
      . next p hsafe =>
        rw [resolveSafe_of_sameTree htest] at hsafe
        refine .inr ⟨p, hsafe, .of_sameTree htest ?_⟩
        split
        . split
          . next hcreate => exact FileSystem.changesOnly_createDirectories hcreate
          . exact .refl ..
        . have hcreate := fs₁.changesOnly_createDirectory p
          split <;> simp_all

theorem changesAsked_transferFile (localPath : Bytes) (overwrite : Bool)
    : m.ChangesAsked fs (m.transferFile host fs localPath path overwrite).2 path
      fun p l => (m.transferFile host fs localPath path overwrite).2.resolve p = .ok l := by
  unfold transferFile
  split
  . exact .inl (.refl fs)
  . generalize m.checkWritePermission host fs path = result at htest ⊢
    obtain ⟨granted, fs₁⟩ := result
    match granted with
    | .error _ | .ok false => exact .inl htest
    | .ok true =>
      dsimp only
      split
      . exact .inl htest
      . exact .inl htest
      . split
        . exact .inl htest
        . exact .inl htest
        . next p hsafe =>
          have hp := resolveSafe_ne_nil hsafe
          rw [resolveSafe_of_sameTree htest] at hsafe
          exact .inr ⟨p, hsafe, .of_sameTree htest (changesOnly_transfer localPath overwrite hp)⟩

end asked

/--
The check for write permission leaves the file system as it was, and so leaves it to `createDirectory` and
`transferFile` to make changes, if and only if the test file does not hit an entry of its name. The
checks for the other permissions only read.
-/
theorem checks_observe_iff (m : Module) (host : Host) (fs : FileSystem) (path : Bytes)
    : (FileSystem.SameTree fs (m.checkWritePermission host fs path).2
          ∧ (∀ recursive,
            m.ChangesAsked fs (m.createDirectory host fs path recursive).2 path fun _ _ => False)
          ∧ ∀ localPath overwrite,
            m.ChangesAsked fs (m.transferFile host fs localPath path overwrite).2 path
              fun p l => (m.transferFile host fs localPath path overwrite).2.resolve p = .ok l)
        ↔
      ¬m.TestHits host fs path := by
  constructor
  . rintro ⟨hsame, -⟩
    exact sameTree_checkWritePermission_iff.mp hsame
  . intro hmisses
    have hsame := sameTree_checkWritePermission_iff.mpr hmisses
    exact ⟨hsame, changesAsked_createDirectory hsame, changesAsked_transferFile hsame⟩

theorem isName_test : IsName (bytes ".rsyncd_write_test") := by
  decide

/--
The root `/m` of a module, with a file that has the name of the test file.
-/
def occupied : FileSystem :=
  {
    entries := [
      (⟨bytes "m", isName_m⟩, .dir [(⟨bytes ".rsyncd_write_test", isName_test⟩, .file (bytes "data"))])
    ]
  }

/--
The check grants the permission and removes the file.
-/
theorem not_checks_observe_single
    : occupied.read (bytes "/m/.rsyncd_write_test") = some (bytes "data")
        ∧ ((Module.mk { path := bytes "/m" }).checkWritePermission {} occupied (bytes "f")).1 = .ok true
        ∧ ((Module.mk { path := bytes "/m" }).checkWritePermission {} occupied (bytes "f")).2.read
          (bytes "/m/.rsyncd_write_test") = none := by
  decide +kernel

end Module
end SimpleRsyncd
