import SimpleRsyncd.FileSystem.Frame
import SimpleRsyncd.FileSystem.Remove
import SimpleRsyncd.FileSystem.Spelling

/-!
This module contains file systems in which nothing is created. What a path leads to is then there from the
beginning, so a path of which the end was removed leads nowhere any more.
-/

namespace SimpleRsyncd

/--
There is nothing in `fs'` which is not in `fs`.
-/
structure FileSystem.Shrinks (fs fs' : FileSystem) : Prop where
  cwd : fs'.cwd = fs.cwd
  kinds : ∀ l k, fs'.kind l = some k → fs.kind l = some k

namespace FileSystem

open Resolve

variable {fs fs' fs'' : FileSystem} {p : Bytes} {l : Loc}

theorem kind_of_remove {l' : Loc} {k : Kind} (hroot : l ≠ []) (h : (fs.remove l).kind l' = some k)
    : fs.kind l' = some k := by
  by_cases hbelow : l <+: l'
  . have hgone := (fs.remove l).isTree.of_isPrefix hbelow h
    exact absurd (kind_remove fs hroot) hgone
  . rwa [sameOutside_remove.kind hbelow] at h

/--
A path that leads somewhere names an entry, unless it ends like that of a directory.
-/
theorem exists_lresolve_of_resolve {t : Loc} (h : fs.resolve p = .ok t)
    : ∃ l, fs.lresolve p = .ok l ∧ fs.kind l ≠ none := by
  cases hlast : (Path.elems p).getLast? with
  | none =>
    refine ⟨t, by simpa only [lresolve, hlast] using h, ?_⟩
    rcases kind_of_resolve_eq_ok h with hk | hk <;> simp [hk]
  | some e =>
    cases e with
    | name n =>
      obtain ⟨es, hes⟩ := List.getLast?_eq_some_iff.mp hlast
      have hp : p ≠ [] := by
        rintro rfl
        simp [resolve] at h
      simp only [resolve, List.isEmpty_iff, hp, if_false, hes] at h
      obtain ⟨d, hd⟩ := fs.resolveElems_append h
      obtain ⟨left, hleft⟩ := resolveElems_append_of_ok hd
      rw [hleft] at h
      have hdir : fs.kind d = some .dir := by
        by_contra hdir
        simp [resolve_cons_of_not_dir hdir, Except.map] at h
      have hentry : fs.kind (d ++ [n]) ≠ none := by
        intro hnone
        simp [resolve_cons_none hdir hnone, Except.map] at h
      exact ⟨d ++ [n], (lresolve_eq_ok_iff hes).mpr ⟨d, rfl, hd, hdir, hentry⟩, hentry⟩
    | _ =>
      refine ⟨t, by simpa only [lresolve, hlast] using h, ?_⟩
      rcases kind_of_resolve_eq_ok h with hk | hk <;> simp [hk]

theorem lresolve_mono (hcwd : fs'.cwd = fs.cwd) (hmono : ∀ l k, fs.kind l = some k → fs'.kind l = some k)
    (h : fs.lresolve p = .ok l)
    : fs'.lresolve p = .ok l := by
  cases hlast : (Path.elems p).getLast? with
  | none =>
    simp only [lresolve, hlast] at h ⊢
    exact resolve_mono hcwd hmono h
  | some e =>
    cases e with
    | name n =>
      obtain ⟨es, hes⟩ := List.getLast?_eq_some_iff.mp hlast
      obtain ⟨d, rfl, hd, hdir, hentry⟩ := (lresolve_eq_ok_iff hes).mp h
      obtain ⟨k, hk⟩ := Option.ne_none_iff_exists'.mp hentry
      refine (lresolve_eq_ok_iff hes).mpr ⟨d, rfl, resolveElems_mono hcwd hmono hd, hmono _ _ hdir, ?_⟩
      simp [hmono _ _ hk]
    | _ =>
      simp only [lresolve, hlast] at h ⊢
      exact resolve_mono hcwd hmono h

namespace Shrinks

theorem refl (fs : FileSystem) : Shrinks fs fs :=
  ⟨rfl, fun _ _ h => h⟩

theorem trans (h : Shrinks fs fs') (h' : Shrinks fs' fs'') : Shrinks fs fs'' where
  cwd := h'.cwd.trans h.cwd
  kinds l k hk := h.kinds l k (h'.kinds l k hk)

theorem resolve (h : Shrinks fs fs') (hp : fs'.resolve p = .ok l) : fs.resolve p = .ok l :=
  resolve_mono h.cwd.symm h.kinds hp

theorem absolute {q : Bytes} (h : Shrinks fs fs') (hp : fs'.absolute p = .ok q) : fs.absolute p = .ok q := by
  simp only [FileSystem.absolute, h.cwd] at hp ⊢
  split at hp
  . contradiction
  . next hempty =>
    rw [if_neg hempty]
    split at hp
    . next habs => rwa [if_pos habs]
    . next habs =>
      rw [if_neg habs]
      split at hp
      . next hdir => rwa [if_pos (h.kinds _ _ hdir)]
      . contradiction

end Shrinks

theorem shrinks_remove (hroot : l ≠ []) : Shrinks fs (fs.remove l) where
  cwd := rfl
  kinds _ _ := kind_of_remove hroot

theorem shrinks_delete (fs : FileSystem) (recursive : Bool) (p : Bytes) : Shrinks fs (fs.delete recursive p).2 := by
  cases hl : fs.lresolve p with
  | error e =>
    rw [delete_of_error recursive (by simp [hl])]
    exact .refl fs
  | ok l =>
    rw [delete_of_lresolve recursive hl]
    split
    . refine ⟨rfl, fun l' k hk => ?_⟩
      cases l' with
      | nil =>
        rw [isTree { fs with entries := [] } |>.root] at hk
        rw [fs.isTree.root, hk]
      | cons n l' => simp [kind, node, root, Node.get, Node.entries] at hk
    . split
      . exact .refl fs
      . next hremoved =>
        simp only [not_or] at hremoved
        exact shrinks_remove hremoved.1

theorem shrinks_appendData (fs : FileSystem) (l : Loc) (d : Bytes) : Shrinks fs (fs.appendData l d) := by
  have hsame : SameBut (· = l) fs (fs.appendData l d) := sameBut_appendData l d
  cases hdata : fs.data l with
  | none =>
    rw [appendData, hdata]
    exact .refl fs
  | some old =>
    have hwrites := writes_appendData d hdata
    refine ⟨hwrites.cwd, fun l' k hk => ?_⟩
    by_cases hl : l' = l
    . subst hl
      rwa [kind_of_data _ hwrites.content, ← fs.kind_of_data hdata] at hk
    . rwa [kind_eq_map_label, hsame l' hl, ← kind_eq_map_label] at hk

/--
A path whose entry was removed leads nowhere.
-/
theorem not_resolve_remove (hroot : l ≠ []) (hl : fs.lresolve p = .ok l) (t : Loc)
    : (fs.remove l).resolve p ≠ .ok t := by
  intro ht
  obtain ⟨l', hl', hentry⟩ := exists_lresolve_of_resolve ht
  have hcwd : fs.cwd = (fs.remove l).cwd := rfl
  have hbefore : fs.lresolve p = .ok l' := lresolve_mono hcwd (fun _ _ => kind_of_remove hroot) hl'
  obtain rfl : l' = l := Except.ok.inj (hbefore.symm.trans hl)
  exact hentry (kind_remove fs hroot)

/--
A deletion that succeeds removes what its path leads to, or the link at its end.
-/
theorem delete_eq_ok_true {recursive : Bool} (h : fs.delete recursive p = (.ok true, fs'))
    : ∃ l, l ≠ [] ∧ fs.lresolve p = .ok l ∧ fs' = fs.remove l := by
  cases hl : fs.lresolve p with
  | error e => cases recursive <;> cases e <;> simp [delete, removePath, removeAll, hl] at h
  | ok l =>
    refine ⟨l, ?_⟩
    cases recursive with
    | false =>
      simp only [delete, Bool.false_eq_true, if_false, removePath, hl, List.isEmpty_iff] at h
      split at h
      . simp at h
      . next hroot =>
        split at h
        . simp at h
        . exact ⟨hroot, rfl, (Prod.mk.inj h).2.symm⟩
    | true =>
      simp only [delete, if_true, removeAll, hl, List.isEmpty_iff] at h
      split at h
      . simp at h
      . next hroot => exact ⟨hroot, rfl, (Prod.mk.inj h).2.symm⟩

end FileSystem
end SimpleRsyncd
