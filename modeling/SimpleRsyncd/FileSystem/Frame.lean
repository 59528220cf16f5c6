import SimpleRsyncd.FileSystem.Preserve

/-!
This module contains what stays as it is when directories are created, and when a file is opened or written:
every location but those that are created or written to.
-/

namespace SimpleRsyncd

/--
Outside of some locations every entry is what it was.
-/
def FileSystem.SameBut (touched : Loc → Prop) (fs fs' : FileSystem) : Prop :=
  ∀ l, ¬touched l → (fs'.node l).map Node.label = (fs.node l).map Node.label

namespace FileSystem

variable {fs fs' fs'' : FileSystem} {p : Bytes} {es : List Elem} {dir l : Loc} {made : List Loc}
  {touched touched' : Loc → Prop}

namespace SameBut

theorem refl (touched : Loc → Prop) (fs : FileSystem) : SameBut touched fs fs := fun _ _ => rfl

theorem trans (h : SameBut touched fs fs') (h' : SameBut touched fs' fs'') : SameBut touched fs fs'' :=
  fun l hl => (h' l hl).trans (h l hl)

theorem mono (h : SameBut touched fs fs') (hmono : ∀ l, touched l → touched' l) : SameBut touched' fs fs' :=
  fun l hl => h l fun htouched => hl (hmono l htouched)

end SameBut

theorem sameBut_mkdirs (h : fs.mkdirs dir es = .ok (fs', made)) : SameBut (· ∈ made) fs fs' := by
  induction es generalizing fs dir made with
  | nil =>
    obtain ⟨rfl, -⟩ := Prod.mk.inj (Except.ok.inj h)
    exact .refl _ _
  | cons e es ih =>
    cases e with
    | name n =>
      obtain ⟨hdir, hnone, made', hrest, rfl⟩ := mkdirs_cons_eq_ok h
      intro l hl
      simp only [List.mem_cons, not_or] at hl
      rw [ih hrest l hl.2]
      exact label_put_leaf hdir (by simp [hnone]) rfl hl.1
    | dotdot | dot | empty =>
      rw [mkdirs] at h
      split at h
      . contradiction
      . exact ih h

theorem sameBut_createDirectories (h : fs.createDirectories p = .ok (fs', made)) : SameBut (· ∈ made) fs fs' := by
  simp only [createDirectories, bind, Except.bind] at h
  split at h
  . contradiction
  . exact sameBut_mkdirs h

theorem sameBut_createParent (h : fs.createParent p = .ok (fs', made)) : SameBut (· ∈ made) fs fs' := by
  simp only [createParent, bind, Except.bind] at h
  split at h
  . obtain ⟨rfl, -⟩ := Prod.mk.inj (Except.ok.inj h)
    exact .refl _ _
  . split at h
    . contradiction
    . split at h
      . obtain ⟨rfl, -⟩ := Prod.mk.inj (Except.ok.inj h)
        exact .refl _ _
      . exact sameBut_createDirectories h

theorem sameBut_openWrite (hp : p ≠ []) (h : fs.openWrite p = .ok (fs', l)) : SameBut (· = l) fs fs' := by
  obtain ⟨d, n, rfl, hdir, hleaf⟩ := openWrite_place (kind_start_of_openWrite hp h) h
  obtain ⟨-, hnotdir, rfl⟩ := openWrite_eq_ok_iff.mp h
  exact fun l' hne => label_put_leaf hdir hnotdir rfl hne

theorem sameBut_appendData (l : Loc) (d : Bytes) : SameBut (· = l) fs (fs.appendData l d) := by
  unfold appendData
  split
  . next old hold =>
    have hkind := fs.kind_of_data hold
    cases l using List.reverseRecOn with
    | nil => simp [kind, node, root, Node.get, Node.kind] at hkind
    | append_singleton l n =>
      exact fun l' hne => label_put_leaf (fs.isTree.parent _ _ _ hkind) (by simp [hkind]) rfl hne
  . exact .refl _ _

end FileSystem
end SimpleRsyncd
