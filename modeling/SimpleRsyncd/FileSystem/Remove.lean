import SimpleRsyncd.FileSystem.File
import SimpleRsyncd.FileSystem.Preserve

/-!
This module contains what a removal takes away. Nothing outside the subtree that its path names changes,
and a directory with entries is only removed by `remove_all`.
-/

namespace SimpleRsyncd
namespace FileSystem

open Resolve

/--
All entries outside the subtree at a location are the same.
-/
structure SameOutside (below : Loc) (fs fs' : FileSystem) : Prop where
  cwd : fs'.cwd = fs.cwd
  entries : ∀ l, ¬below <+: l → (fs'.node l).map Node.label = (fs.node l).map Node.label

variable {fs : FileSystem} {p : Bytes} {l l' below : Loc}

theorem SameOutside.rfl : SameOutside below fs fs :=
  ⟨Eq.refl _, fun _ _ => Eq.refl _⟩

theorem SameOutside.kind {fs' : FileSystem} (h : SameOutside below fs fs') (hout : ¬below <+: l)
    : fs'.kind l = fs.kind l := by
  rw [kind_eq_map_label, kind_eq_map_label, h.entries l hout]

theorem sameOutside_remove : SameOutside l fs (fs.remove l) :=
  ⟨Eq.refl _, fun _ hout => fs.label_node_alter _ hout⟩

/--
`remove` and `remove_all`, as `deleteDirectory` chooses between them.
-/
def delete (fs : FileSystem) (recursive : Bool) (p : Bytes) : Except Errno Bool × FileSystem :=
  if recursive then fs.removeAll p else fs.removePath p

theorem delete_of_lresolve (recursive : Bool) (h : fs.lresolve p = .ok l)
    : (fs.delete recursive p).2
        =
      if recursive = true ∧ l = [] then
        { fs with entries := [] }
      else if l = [] ∨ recursive = false ∧ (fs.node l).any (!·.entries.isEmpty) = true then
        fs
      else
        fs.remove l := by
  cases recursive with
  | false =>
    simp only [delete, Bool.false_eq_true, if_false, removePath, h, false_and, true_and]
    by_cases hroot : l = []
    . simp [hroot]
    . by_cases hentries : (fs.node l).any (!·.entries.isEmpty) = true <;> simp [hroot, hentries]
  | true =>
    simp only [delete, if_true, removeAll, h, true_and]
    by_cases hroot : l = [] <;> simp [hroot]

theorem delete_of_error (recursive : Bool) (h : ∀ l, fs.lresolve p ≠ .ok l) : (fs.delete recursive p).2 = fs := by
  cases hl : fs.lresolve p with
  | ok l => exact absurd hl (h l)
  | error e =>
    cases recursive <;> simp only [delete, Bool.false_eq_true, if_false, if_true, removePath, removeAll, hl] <;>
      split <;> simp_all

theorem sameOutside_delete (recursive : Bool) (h : fs.lresolve p = .ok l)
    : SameOutside l fs (fs.delete recursive p).2 := by
  rw [delete_of_lresolve recursive h]
  split
  . next hroot => exact ⟨Eq.refl _, fun l' hout => absurd (hroot.2 ▸ List.nil_prefix) hout⟩
  . split
    . exact .rfl
    . exact sameOutside_remove

theorem delete_cases (fs : FileSystem) (recursive : Bool) (p : Bytes)
    : (fs.delete recursive p).2 = fs
        ∨ ∃ l, fs.lresolve p = .ok l ∧ SameOutside l fs (fs.delete recursive p).2 := by
  cases hl : fs.lresolve p with
  | ok l => exact .inr ⟨l, Eq.refl _, sameOutside_delete recursive hl⟩
  | error e => exact .inl (delete_of_error recursive (by simp [hl]))

theorem node_delete_of_entries (recursive : Bool) {e : Name × Node} {es : List (Name × Node)}
    (h : fs.lresolve p = .ok l) (hnode : fs.node l = some (.dir (e :: es)))
    : (fs.delete recursive p).2.node l = some (.dir (e :: es)) ↔ recursive = false := by
  rw [delete_of_lresolve recursive h, hnode]
  cases recursive with
  | false => simp [Node.entries, hnode]
  | true =>
    by_cases hroot : l = []
    . subst hroot
      simp [node, root, Node.get]
    . have hgone := kind_remove fs hroot
      rw [kind, Option.map_eq_none_iff] at hgone
      simp [hroot, hgone]

end FileSystem
end SimpleRsyncd
