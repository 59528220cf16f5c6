import SimpleRsyncd.FileSystem.Create
import SimpleRsyncd.Path.Spelling

/-!
This module contains what the creation of directories and files can change: a new entry lies where a
leading part of its path leads afterwards, and everything else is as before.
-/

namespace SimpleRsyncd
namespace FileSystem

open Resolve

/--
The same entries with the same content, in any order.
-/
structure SameTree (fs fs' : FileSystem) : Prop where
  cwd : fs'.cwd = fs.cwd
  label : ∀ l, (fs'.node l).map Node.label = (fs.node l).map Node.label

variable {fs fs' fs'' : FileSystem} {p : Bytes} {seen es : List Elem} {dir l : Loc} {made : List Loc}
  {written : Loc → Prop}

theorem SameTree.refl (fs : FileSystem) : SameTree fs fs :=
  ⟨rfl, fun _ => rfl⟩

theorem SameTree.kind (h : SameTree fs fs') : fs'.kind = fs.kind := by
  funext l
  rw [kind_eq_map_label, kind_eq_map_label, h.label]

section sameTree

variable (h : SameTree fs fs')

include h

theorem SameTree.resolveElems : fs'.resolveElems p es = fs.resolveElems p es := by
  simp only [FileSystem.resolveElems, start, h.kind, h.cwd]

theorem SameTree.resolve : fs'.resolve p = fs.resolve p := by
  simp only [FileSystem.resolve, h.resolveElems]

theorem SameTree.exists : fs'.exists p = fs.exists p := by
  simp only [FileSystem.exists, h.resolve]

theorem SameTree.isSymlink : fs'.isSymlink p = fs.isSymlink p := by
  simp only [FileSystem.isSymlink, lresolve, h.resolveElems, h.resolve, h.kind]

theorem SameTree.absolute : fs'.absolute p = fs.absolute p := by
  simp only [FileSystem.absolute, h.kind, h.cwd]

theorem SameTree.leading : fs'.leading p seen es = fs.leading p seen es := by
  induction es generalizing seen with
  | nil => simp only [FileSystem.leading, h.resolveElems]
  | cons e es ih => simp only [FileSystem.leading, h.resolveElems, ih]

theorem SameTree.weaklyCanonical : fs'.weaklyCanonical p = fs.weaklyCanonical p := by
  simp only [FileSystem.weaklyCanonical, h.leading]

end sameTree

/--
Nothing but the entries in `written` changes, and those that are new lie on the way along the elements of a
path.
-/
structure ChangesOnly (fs fs' : FileSystem) (p : Bytes) (es : List Elem) (written : Loc → Prop) : Prop where
  cwd : fs'.cwd = fs.cwd
  mono : ∀ l k, fs.kind l = some k → fs'.kind l = some k
  kept : ∀ l, fs.kind l ≠ none → ¬written l → (fs'.node l).map Node.label = (fs.node l).map Node.label
  made : ∀ l, fs.kind l = none → fs'.kind l ≠ none → ∃ xs, xs <+: es ∧ fs'.resolveElems p xs = .ok l

theorem resolveElems_mono (hcwd : fs'.cwd = fs.cwd) (hmono : ∀ l k, fs.kind l = some k → fs'.kind l = some k)
    (h : fs.resolveElems p es = .ok l)
    : fs'.resolveElems p es = .ok l := by
  obtain ⟨left, hresolve⟩ := fs.resolveElems_eq_ok_iff.mp h
  have hstart : fs'.start p = fs.start p := by rw [start, start, hcwd]
  rw [resolveElems_eq_ok_iff, hstart]
  exact ⟨left, Resolve.resolve_mono hmono hresolve⟩

theorem resolve_mono (hcwd : fs'.cwd = fs.cwd) (hmono : ∀ l k, fs.kind l = some k → fs'.kind l = some k)
    (h : fs.resolve p = .ok l)
    : fs'.resolve p = .ok l := by
  rw [resolve] at h ⊢
  split at h
  . contradiction
  . next hne =>
    rw [if_neg hne]
    exact resolveElems_mono hcwd hmono h

namespace ChangesOnly

theorem refl (fs : FileSystem) (p : Bytes) (es : List Elem) (written : Loc → Prop)
    : ChangesOnly fs fs p es written where
  cwd := rfl
  mono _ _ h := h
  kept _ _ _ := rfl
  made _ hnone hsome := absurd hnone hsome

theorem trans (h : ChangesOnly fs fs' p es fun _ => False) (h' : ChangesOnly fs' fs'' p es written)
    : ChangesOnly fs fs'' p es written where
  cwd := h'.cwd.trans h.cwd
  mono l k hk := h'.mono l k (h.mono l k hk)
  kept := by
    intro l hthere hwritten
    obtain ⟨k, hk⟩ := Option.ne_none_iff_exists'.mp hthere
    have hthere' : fs'.kind l ≠ none := by simp [h.mono l k hk]
    rw [h'.kept l hthere' hwritten, h.kept l hthere not_false]
  made := by
    intro l hnone hsome
    by_cases hbetween : fs'.kind l = none
    . exact h'.made l hbetween hsome
    . obtain ⟨xs, hxs, hleads⟩ := h.made l hnone hbetween
      exact ⟨xs, hxs, resolveElems_mono h'.cwd h'.mono hleads⟩

theorem mono_elems {es' : List Elem} (h : ChangesOnly fs fs' p es written) (hes : es <+: es')
    : ChangesOnly fs fs' p es' written where
  cwd := h.cwd
  mono := h.mono
  kept := h.kept
  made := by
    intro l hnone hsome
    obtain ⟨xs, hxs, hleads⟩ := h.made l hnone hsome
    exact ⟨xs, hxs.trans hes, hleads⟩

theorem of_sameTree (h : SameTree fs fs') (h' : ChangesOnly fs' fs'' p es written)
    : ChangesOnly fs fs'' p es written where
  cwd := h'.cwd.trans h.cwd
  mono l k hk := h'.mono l k (by rw [h.kind, hk])
  kept l hthere hwritten := (h'.kept l (by rwa [h.kind]) hwritten).trans (h.label l)
  made l hnone hsome := h'.made l (by rwa [h.kind]) hsome

theorem data_eq (h : ChangesOnly fs fs' p es written) {old : Bytes} (hold : fs.data l = some old) (hl : ¬written l)
    : fs'.data l = some old := by
  rw [← hold]
  apply fs.data_eq_of_label_eq
  exact h.kept l (by simp [fs.kind_of_data hold]) hl

/--
An entry that is added where a leading part of the path leads.
-/
theorem put_dir {n : Name} (hdir : fs.kind dir = some .dir) (hnone : fs.kind (dir ++ [n]) = none)
    (hleads : fs.resolveElems p es = .ok dir)
    : ChangesOnly fs (fs.put (dir ++ [n]) (.dir [])) p (es ++ [.name n]) (fun _ => False)
        ∧ (fs.put (dir ++ [n]) (.dir [])).resolveElems p (es ++ [.name n]) = .ok (dir ++ [n]) := by
  have hmono := fs.kind_put_mono (c := .dir []) hdir (.inl hnone)
  have hkind : (fs.put (dir ++ [n]) (.dir [])).kind (dir ++ [n]) = some .dir := fs.kind_put _ hdir
  have hleads' : (fs.put (dir ++ [n]) (.dir [])).resolveElems p (es ++ [.name n]) = .ok (dir ++ [n]) := by
    obtain ⟨left, hlast⟩ := resolve_concat (resolveElems_mono (fs.put_cwd _ _) hmono hleads) (.name n)
    rw [resolveElems, hlast, resolve_cons_entry (hmono _ _ hdir) hkind (by simp), resolve_nil]
    rfl
  refine ⟨?_, hleads'⟩
  exact {
    cwd := rfl
    mono := hmono
    kept := by
      intro l hthere _
      apply label_put_leaf hdir (by simp [hnone]) rfl
      rintro rfl
      exact hthere hnone
    made := by
      intro l hnone' hsome
      by_cases hl : l = dir ++ [n]
      . exact ⟨_, List.prefix_rfl, hl ▸ hleads'⟩
      . rw [(others_put_dir hdir hnone hl).1] at hsome
        exact absurd hnone' hsome
  }

end ChangesOnly

theorem changesOnly_mkdirs (hseen : fs.resolveElems p seen = .ok dir) (h : fs.mkdirs dir es = .ok (fs', made))
    : ChangesOnly fs fs' p (seen ++ es) fun _ => False := by
  induction es generalizing fs dir made seen with
  | nil =>
    obtain ⟨rfl, -⟩ := Prod.mk.inj (Except.ok.inj h)
    exact .refl ..
  | cons e es ih =>
    have hdir : fs.kind dir = some .dir := by
      by_contra hdir
      cases e <;> simp [mkdirs, hdir] at h
    have happ : seen ++ e :: es = seen ++ [e] ++ es := by simp
    obtain ⟨left, hlast⟩ := resolve_concat hseen e
    rw [happ]
    cases e with
    | name n =>
      rw [mkdirs, if_neg (by simp [hdir])] at h
      split at h
      . contradiction
      . next hnone =>
        simp only [ne_eq, Decidable.not_not] at hnone
        -- a new directory, and whatever is created below it
        obtain ⟨hput, hleads⟩ := ChangesOnly.put_dir hdir hnone hseen
        cases hrest : (fs.put (dir ++ [n]) (.dir [])).mkdirs (dir ++ [n]) es with
        | error => simp [hrest, bind, Except.bind] at h
        | ok r =>
          obtain ⟨rfl, -⟩ : r.1 = fs' ∧ _ := by simpa [hrest, bind, Except.bind] using h
          exact (hput.mono_elems (List.prefix_append _ _)).trans (ih hleads hrest)
    | dotdot =>
      rw [mkdirs, if_neg (by simp [hdir])] at h
      refine ih ?_ h
      rw [resolveElems, hlast, resolve_cons_dotdot hdir, resolve_nil]
      rfl
    | dot | empty =>
      rw [mkdirs, if_neg (by simp [hdir])] at h
      refine ih ?_ h
      rw [resolveElems, hlast, resolve_cons_stay hdir (by simp), resolve_nil]
      rfl

theorem changesOnly_createDirectories (h : fs.createDirectories p = .ok (fs', made))
    : ChangesOnly fs fs' p (Path.elems p) fun _ => False := by
  simp only [createDirectories, bind, Except.bind] at h
  split at h
  . contradiction
  . next r hleading =>
    obtain ⟨l, rest⟩ := r
    obtain ⟨xs, helems, hxs, -⟩ := leading_cases hleading
    rw [helems]
    exact changesOnly_mkdirs (by simpa using hxs) h

theorem changesOnly_createDirectory (fs : FileSystem) (p : Bytes)
    : ChangesOnly fs (fs.createDirectory p).2 p (Path.elems p) fun _ => False := by
  have hstripped : ((Path.elems p).reverse.dropWhile (· = .empty)).reverse <+: Path.elems p := by
    have := List.dropWhile_suffix (p := fun e => decide (e = Elem.empty)) (l := (Path.elems p).reverse)
    simpa using List.reverse_prefix.mpr this
  unfold createDirectory
  dsimp only
  generalize ((Path.elems p).reverse.dropWhile (· = .empty)).reverse = es at hstripped ⊢
  split
  . next n hlast =>
    obtain ⟨parent, rfl⟩ := List.getLast?_eq_some_iff.mp hlast
    rw [List.dropLast_concat]
    split
    . exact .refl ..
    . next dir hparent =>
      split
      . exact .refl ..
      . next hdir =>
        split
        . exact .refl ..
        . next hnone =>
          simp only [ne_eq, Decidable.not_not] at hdir hnone
          exact (ChangesOnly.put_dir hdir hnone hparent).1.mono_elems hstripped
  . exact .refl ..

theorem changesOnly_createParent (h : fs.createParent p = .ok (fs', made))
    : ChangesOnly fs fs' p (Path.elems p) fun _ => False := by
  simp only [createParent, bind, Except.bind] at h
  split at h
  . obtain ⟨rfl, -⟩ := Prod.mk.inj (Except.ok.inj h)
    exact .refl ..
  . next hparent =>
    obtain ⟨helems, habs⟩ := Path.elems_parentPath_prefix p
    have habs' := habs (by simpa using hparent)
    split at h
    . contradiction
    . split at h
      . obtain ⟨rfl, -⟩ := Prod.mk.inj (Except.ok.inj h)
        exact .refl ..
      . have hchanges := changesOnly_createDirectories h
        exact {
          cwd := hchanges.cwd
          mono := hchanges.mono
          kept := hchanges.kept
          made := by
            intro l hnone hsome
            obtain ⟨xs, hxs, hleads⟩ := hchanges.made l hnone hsome
            refine ⟨xs, hxs.trans helems, ?_⟩
            rw [← hleads, resolveElems, resolveElems, start, start, habs']
        }

end FileSystem
end SimpleRsyncd
