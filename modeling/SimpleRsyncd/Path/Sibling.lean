import SimpleRsyncd.Bytes.Decimal
import SimpleRsyncd.Path.Parent

/-!
This module contains the paths next to a file: its parent path with another name, and the names that are
made of its stem, a number and its extension.
-/

namespace SimpleRsyncd
namespace Path

/--
The path of another name in the directory of `p`.
-/
def sibling (p name : Bytes) : Bytes :=
  if (parentPath p).isEmpty then name else parentPath p ++ bytes "/" ++ name

variable {p : Bytes} {es : List Elem} {n : Name}

theorem sibling_append (p name t : Bytes) : sibling p (name ++ t) = sibling p name ++ t := by
  unfold sibling
  split <;> simp

theorem parentPath_of_notMem (h : slash ∉ p) : parentPath p = [] := by
  have hall : p.reverse.dropWhile (· ≠ slash) = [] := List.dropWhile_eq_nil_iff.mpr (forall_reverse_ne_slash h)
  have habs : isAbsolute p = false := by
    cases p with
    | nil => rfl
    | cons c p =>
      rw [isAbsolute, List.head?_cons, decide_eq_false_iff_not]
      rintro heq
      simp [Option.some.inj heq] at h
  unfold parentPath
  rw [hall]
  simp [habs]

theorem pieces_parentPath (s : Bytes) {b : Bytes} (hb : slash ∉ b)
    : pieces (parentPath (s ++ slash :: b)) = pieces s := by
  rw [parentPath_append_slash s hb]
  split
  . next h =>
    have hnil : s.rdropWhile (· = slash) = [] := by
      rw [Bool.and_eq_true, List.isEmpty_iff] at h
      exact h.1
    rw [← pieces_rdropWhile s, hnil]
    decide
  . exact pieces_rdropWhile s

theorem parentPath_ne_nil (s : Bytes) {b : Bytes} (hb : slash ∉ b) : parentPath (s ++ slash :: b) ≠ [] := by
  rw [parentPath_append_slash s hb]
  split
  . simp
  . next h =>
    intro hnil
    have hslashes := List.rdropWhile_eq_nil_iff.mp hnil
    cases s <;> simp_all [isAbsolute]

/--
A path whose last element is a name is that name, or ends in a slash and that name.
-/
theorem eq_of_elems (h : elems p = es ++ [.name n])
    : (p = n.toBytes ∧ es = []) ∨ ∃ s, p = s ++ slash :: n.toBytes ∧ es = (pieces s).map Elem.ofBytes := by
  have hlast : ∀ {b : Bytes} (es' : List Elem), slash ∉ b → es' ++ [Elem.ofBytes b] = es ++ [.name n] →
      b = n.toBytes ∧ es = es' := by
    intro b es' hb heq
    obtain ⟨hinit, hname⟩ := List.append_inj' heq rfl
    have hbytes := Elem.toBytes_ofBytes hb
    rw [List.cons.inj hname |>.1] at hbytes
    exact ⟨hbytes.symm, hinit.symm⟩
  have hpiece : ∀ {b : Bytes}, slash ∉ b → b ≠ [] → b.getLast? ≠ some slash := fun hb _ hlast =>
    hb (List.mem_of_getLast? hlast)
  -- the last name starts behind the last slash of the path, if it has one
  by_cases hslash : slash ∈ p
  . obtain ⟨s, b, rfl, hb⟩ := exists_last_slash hslash
    by_cases hnil : b = []
    . subst hnil
      have hpieces : pieces (s ++ [slash]) = pieces s := by
        rw [pieces_append_slash]
        simp [pieces]
      rw [elems, hasTrailingSlash, hpieces] at h
      by_cases hs : pieces s = []
      . simp [hs] at h
      . simp [hs] at h
    . right
      have hend : (s ++ slash :: b).getLast? = b.getLast? := by
        rw [List.append_cons, List.getLast?_append_of_ne_nil _ hnil]
      rw [elems, hasTrailingSlash, pieces_append_slash, pieces_of_notMem hb hnil, hend,
        decide_eq_false (hpiece hb hnil)] at h
      obtain ⟨rfl, rfl⟩ := hlast ((pieces s).map Elem.ofBytes) hb (by simpa using h)
      exact ⟨s, rfl, rfl⟩
  . left
    by_cases hnil : p = []
    . simp [hnil, elems, hasTrailingSlash, pieces] at h
    . rw [elems, hasTrailingSlash, pieces_of_notMem hslash hnil, decide_eq_false (hpiece hslash hnil)] at h
      exact hlast [] hslash (by simpa using h)

/--
Another name next to a path that ends in a name.
-/
theorem elems_sibling (h : elems p = es ++ [.name n]) (m : Name)
    : elems (sibling p m.toBytes) = es ++ [.name m] ∧ isAbsolute (sibling p m.toBytes) = isAbsolute p := by
  rcases eq_of_elems h with ⟨rfl, rfl⟩ | ⟨s, rfl, rfl⟩
  . have hself : sibling n.toBytes m.toBytes = m.toBytes := by simp [sibling, parentPath_of_notMem n.isName.2.1]
    rw [hself, isAbsolute_name, isAbsolute_name]
    exact ⟨elems_name m, rfl⟩
  . have hne := parentPath_ne_nil s n.isName.2.1
    have hslash : bytes "/" = [slash] := by decide
    have hsibling : sibling (s ++ slash :: n.toBytes) m.toBytes
        = parentPath (s ++ slash :: n.toBytes) ++ slash :: m.toBytes := by
      simp [sibling, hne, hslash]
    rw [hsibling, elems_append_name, pieces_parentPath s n.isName.2.1]
    refine ⟨rfl, ?_⟩
    rw [← (elems_parentPath s n.isName.2.1).2]
    cases hparent : parentPath (s ++ slash :: n.toBytes) with
    | nil => exact absurd hparent hne
    | cons c q => rfl

theorem filename_of_elems (h : elems p = es ++ [.name n]) : filename p = n.toBytes := by
  rcases eq_of_elems h with ⟨rfl, -⟩ | ⟨s, rfl, -⟩
  . exact filename_of_notMem n.isName.2.1
  . exact filename_append_slash s n.isName.2.1

theorem stem_append_extension (p : Bytes) : stem p ++ extension p = filename p := by
  have hsuffix : extension p <:+ filename p := by
    unfold extension
    dsimp only
    have hsplit := List.takeWhile_append_dropWhile (p := (· ≠ 46)) (l := (filename p).reverse)
    have hhead := List.head?_dropWhile_not (· ≠ (46 : UInt8)) (filename p).reverse
    generalize (filename p).reverse.takeWhile (· ≠ 46) = after at hsplit ⊢
    generalize (filename p).reverse.dropWhile (· ≠ 46) = before at hsplit hhead
    have hname : filename p = before.reverse ++ after.reverse := by
      have := congrArg List.reverse hsplit
      rw [List.reverse_reverse, List.reverse_append] at this
      exact this.symm
    rw [hname]
    cases before with
    | nil => simp
    | cons c before =>
      obtain rfl : c = 46 := by simpa using hhead
      split
      . exact List.nil_suffix
      . exact ⟨before.reverse, by simp⟩
  obtain ⟨t, ht⟩ := hsuffix
  rw [stem, ← ht]
  simp

theorem extension_cases (p : Bytes) : extension p = [] ∨ ∃ after, extension p = 46 :: after := by
  unfold extension
  dsimp only
  split
  . exact .inl rfl
  . exact .inr ⟨_, rfl⟩

end Path
end SimpleRsyncd
