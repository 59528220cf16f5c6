import SimpleRsyncd.FileSystem.Changes

/-!
This module contains what it means for a computation to have nothing to do with a file: nobody can tell
from it whether the file is there and what is in it, and it leaves the file as it is.
-/

namespace SimpleRsyncd
namespace FileSystem

open Resolve

/--
The file system with a regular file of that content at a location, or without one.
-/
def withFile (fs : FileSystem) (l : Loc) (content : Option Bytes) : FileSystem :=
  fs.alter l fun _ => content.map .file

/--
The outcome of a computation and what it does to everything else do not depend on the file at a
location, and the file stays what it is.
-/
structure Ignores {β : Type} (run : FileSystem → β × FileSystem) (fs : FileSystem) (l : Loc) : Prop where
  outcome : ∀ content content', (run (fs.withFile l content)).1 = (run (fs.withFile l content')).1
  elsewhere : ∀ content content' l', ¬l <+: l' →
    ((run (fs.withFile l content)).2.node l').map Node.label
      = ((run (fs.withFile l content')).2.node l').map Node.label
  untouched : ∀ content, (run (fs.withFile l content)).2.node l = (fs.withFile l content).node l

variable {fs : FileSystem} {l : Loc} {n : Name}

theorem node_withFile (content : Option Bytes) (h : fs.kind l = some .dir)
    : (fs.withFile (l ++ [n]) content).node (l ++ [n]) = content.map .file := by
  rw [node, withFile, root_alter]
  exact Node.get_alter_concat _ _ _ h

theorem data_withFile (content : Option Bytes) (h : fs.kind l = some .dir)
    : (fs.withFile (l ++ [n]) content).data (l ++ [n]) = content := by
  rw [data, node_withFile content h]
  cases content <;> rfl

theorem kind_withFile_of_not_isPrefix (content : Option Bytes) {l' : Loc} (h : ¬l <+: l')
    : (fs.withFile l content).kind l' = fs.kind l' := by
  rw [kind_eq_map_label, kind_eq_map_label, withFile, label_node_alter _ _ h]

theorem kind_of_below {names : Loc} (h : fs.kind (l ++ names) = some .dir) : fs.kind l = some .dir := by
  cases names with
  | nil => simpa using h
  | cons x names => exact fs.isTree.dir_of_append h

theorem node_of_dir (h : fs.kind l = some .dir) : ∃ es, fs.node l = some (.dir es) := by
  rw [kind] at h
  cases hn : fs.node l with
  | none => simp [hn] at h
  | some t => cases t <;> simp_all [Node.kind]

/--
There is nothing at the location, or a file.
-/
def IsFree (fs : FileSystem) (l : Loc) : Prop :=
  fs.kind l = none ∨ fs.kind l = some .file

theorem IsFree.of_kind {l' : Loc} (h : fs.IsFree l) (hpre : l <+: l') (hne : l' ≠ l) : fs.kind l' = none := by
  obtain ⟨m, rfl⟩ := hpre
  cases m with
  | nil => simp at hne
  | cons x m =>
    cases hk : fs.kind (l ++ x :: m) with
    | none => rfl
    | some k =>
      have hx := fs.isTree.of_isPrefix (l := l ++ [x]) ⟨m, by simp⟩ hk
      obtain ⟨k', hk'⟩ := Option.ne_none_iff_exists'.mp hx
      have hdir := fs.isTree.parent l x k' hk'
      rcases h with h | h <;> simp [h] at hdir

theorem isFree_withFile (content : Option Bytes) (h : fs.kind l = some .dir)
    : (fs.withFile (l ++ [n]) content).IsFree (l ++ [n]) := by
  rw [IsFree, kind, node_withFile content h]
  cases content with
  | none => exact .inl rfl
  | some => exact .inr rfl

theorem kind_withFile_of_ne (content : Option Bytes) (hdir : fs.kind l = some .dir) (hfree : fs.IsFree (l ++ [n]))
    {l' : Loc} (h : l' ≠ l ++ [n])
    : (fs.withFile (l ++ [n]) content).kind l' = fs.kind l' := by
  by_cases hpre : l ++ [n] <+: l'
  . rw [hfree.of_kind hpre h, (isFree_withFile content hdir).of_kind hpre h]
  . exact kind_withFile_of_not_isPrefix content hpre

/--
A path that leads to a directory leads there whether the file is there or not.
-/
theorem resolve_withFile (content : Option Bytes) (hdir : fs.kind l = some .dir) (hfree : fs.IsFree (l ++ [n]))
    {p : Bytes} {d : Loc} (h : fs.resolve p = .ok d) (hd : fs.kind d = some .dir)
    : (fs.withFile (l ++ [n]) content).resolve p = .ok d := by
  obtain ⟨hne, left, hresolve⟩ := fs.resolve_eq_ok_iff.mp h
  have hstart : (fs.withFile (l ++ [n]) content).start p = fs.start p := rfl
  rw [resolve_eq_ok_iff, hstart,
    Resolve.resolve_of_ne hfree (fun l' h => kind_withFile_of_ne content hdir hfree h) hresolve hd]
  exact ⟨hne, left, rfl⟩

/--
A path that leads to a file leads to the same one once there is one more file.
-/
theorem data_withFile_mono (content : Bytes) (hdir : fs.kind l = some .dir) {p : Bytes} {l' : Loc} {d : Bytes}
    (h : (fs.withFile (l ++ [n]) none).resolve p = .ok l')
    (hd : (fs.withFile (l ++ [n]) none).data l' = some d)
    : (fs.withFile (l ++ [n]) (some content)).resolve p = .ok l'
        ∧ (fs.withFile (l ++ [n]) (some content)).data l' = some d := by
  have habsent : (fs.withFile (l ++ [n]) none).kind (l ++ [n]) = none := by
    rw [kind, node_withFile none hdir]
    rfl
  have hother : ∀ l' k, (fs.withFile (l ++ [n]) none).kind l' = some k → ¬l ++ [n] <+: l' :=
    fun l' k hk hpre => (fs.withFile (l ++ [n]) none).isTree.of_isPrefix hpre hk habsent
  have hmono : ∀ l' k, (fs.withFile (l ++ [n]) none).kind l' = some k →
      (fs.withFile (l ++ [n]) (some content)).kind l' = some k := by
    intro l' k hk
    have hpre := hother l' k hk
    rw [kind_withFile_of_not_isPrefix _ hpre] at hk ⊢
    exact hk
  constructor
  . exact resolve_mono (by rfl) hmono h
  . have hpre := hother l' _ (kind_of_data _ hd)
    rw [← hd]
    apply data_eq_of_label_eq
    rw [withFile, withFile, label_node_alter _ _ hpre, label_node_alter _ _ hpre]

end FileSystem
end SimpleRsyncd
