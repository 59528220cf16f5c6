import SimpleRsyncd.Path.Basic

/-!
This module relates the string of a path to its elements: what splitting does to a joined path, how
absolute locations are written and read back, and when a string prefix is a directory prefix.
-/

namespace SimpleRsyncd
theorem Name.toBytes_injective : Function.Injective Name.toBytes := by
  rintro ⟨b, hb⟩ ⟨b', hb'⟩ h
  simpa using h

namespace Path

theorem pieces_append_slash (p q : Bytes) : pieces (p ++ slash :: q) = pieces p ++ pieces q := by
  simp [pieces, List.splitOn_append_cons_self]

@[simp]
theorem pieces_slash_cons (q : Bytes) : pieces (slash :: q) = pieces q := by
  simpa [pieces] using pieces_append_slash [] q

theorem pieces_of_notMem {b : Bytes} (h : slash ∉ b) (hne : b ≠ []) : pieces b = [b] := by
  simp [pieces, List.splitOn_eq_singleton h, hne]

@[simp]
theorem pieces_name (n : Name) : pieces n.toBytes = [n.toBytes] :=
  pieces_of_notMem n.isName.2.1 n.isName.1

theorem notMem_of_mem_splitOn {p : Bytes} : ∀ b ∈ p.splitOn slash, slash ∉ b := by
  induction p with
  | nil => simp
  | cons c p ih =>
    rw [List.splitOn_cons_eq_if_modifyHead]
    split
    . simpa using ih
    . next hc =>
      cases hsplit : p.splitOn slash with
      | nil => simp
      | cons x xs =>
        rw [hsplit] at ih
        simp only [List.modifyHead_cons, List.forall_mem_cons] at ih ⊢
        refine ⟨?_, ih.2⟩
        intro hmem
        cases List.mem_cons.mp hmem with
        | inl heq => simp [← heq] at hc
        | inr hmem => exact ih.1 hmem

theorem notMem_of_mem_pieces {p : Bytes} : ∀ b ∈ pieces p, slash ∉ b := by
  intro b hb
  simp only [pieces, List.mem_filter] at hb
  exact notMem_of_mem_splitOn b hb.1

theorem ofLoc_of_ne_nil {l : Loc} (h : l ≠ []) : ofLoc l = l.flatMap fun n => slash :: n.toBytes := by
  cases l with
  | nil => contradiction
  | cons => rfl

@[simp]
theorem pieces_flatMap_slash (l : Loc)
    : pieces (l.flatMap fun n => slash :: n.toBytes) = l.map Name.toBytes := by
  induction l with
  | nil => simp [pieces]
  | cons n l ih =>
    cases l with
    | nil => simp
    | cons m l =>
      simp only [List.flatMap_cons, List.cons_append, pieces_slash_cons, pieces_append_slash] at ih ⊢
      simp [ih]

@[simp]
theorem pieces_ofLoc (l : Loc) : pieces (ofLoc l) = l.map Name.toBytes := by
  cases l with
  | nil => decide
  | cons => exact pieces_flatMap_slash _

@[simp]
theorem isAbsolute_ofLoc (l : Loc) : isAbsolute (ofLoc l) = true := by
  cases l <;> simp [ofLoc, isAbsolute]

theorem ofLoc_concat (l : Loc) (n : Name) : ofLoc (l ++ [n]) = (l.flatMap fun n => slash :: n.toBytes) ++ slash :: n.toBytes := by
  simp [ofLoc_of_ne_nil]

theorem getLast?_slash_name (n : Name) : (slash :: n.toBytes).getLast? ≠ some slash := by
  obtain ⟨b, hne, hslash, -⟩ := n
  rw [List.getLast?_cons_of_ne_nil hne]
  intro h
  exact hslash (List.mem_of_getLast? h)

@[simp]
theorem hasTrailingSlash_ofLoc (l : Loc) : hasTrailingSlash (ofLoc l) = false := by
  cases l using List.reverseRecOn with
  | nil => decide
  | append_singleton l n =>
    simp [hasTrailingSlash, ofLoc_concat, getLast?_slash_name]

@[simp]
theorem elems_ofLoc (l : Loc) : elems (ofLoc l) = l.map .name := by
  simp [elems, Function.comp_def]

@[simp]
theorem elements_ofLoc (l : Loc) : elements (ofLoc l) = [slash] :: l.map Name.toBytes := by
  simp [elements, Function.comp_def, Elem.toBytes]

theorem ofLoc_injective {l l' : Loc} (h : ofLoc l = ofLoc l') : l = l' := by
  have := congrArg pieces h
  simpa [List.map_inj_right Name.toBytes_injective] using this

theorem foldl_push_names (p : Normal) (l : List Name)
    : (l.map .name).foldl Normal.push p
        =
      { p with names := p.names ++ l, trailing := l.isEmpty && p.trailing } := by
  induction l generalizing p with
  | nil => simp
  | cons n l ih => simp [Normal.push, ih]

@[simp]
theorem normalise_names (absolute : Bool) (l : List Name)
    : normalise absolute (l.map .name) = { absolute, ups := 0, names := l, trailing := false } := by
  simp [normalise, foldl_push_names, Normal.empty]

@[simp]
theorem push_absolute (p : Normal) (e : Elem) : (p.push e).absolute = p.absolute := by
  cases e <;> simp only [Normal.push]
  split
  . split <;> rfl
  . rfl

theorem foldl_push_absolute (p : Normal) (es : List Elem)
    : (es.foldl Normal.push p).absolute = p.absolute := by
  induction es generalizing p with
  | nil => rfl
  | cons e es ih => simp [ih]

@[simp]
theorem normalise_absolute (absolute : Bool) (es : List Elem)
    : (normalise absolute es).absolute = absolute := by
  simp [normalise, foldl_push_absolute, Normal.empty]

theorem isAbsolute_append {p q : Bytes} (h : isAbsolute p) : isAbsolute (append p q) = true := by
  unfold append
  split
  . assumption
  . split <;> simp_all [isAbsolute, List.head?_append]

theorem isAbsolute_render {p : Normal} (h : p.absolute = true) : isAbsolute p.render = true := by
  have := isAbsolute_ofLoc p.names
  simp_all [Normal.render, isAbsolute, List.head?_append]

theorem elements_eq (p : Bytes)
    : elements p
        =
      (if isAbsolute p then [[slash]] else []) ++ pieces p ++ (if hasTrailingSlash p then [[]] else [])
    := by
  have hmap : (pieces p).map (Elem.toBytes ∘ Elem.ofBytes) = pieces p := by
    rw [List.map_congr_left (g := id), List.map_id]
    intro b hb
    exact Elem.toBytes_ofBytes (notMem_of_mem_pieces b hb)
  rw [elements, elems, List.map_append, List.map_map, hmap, List.append_assoc]
  congr 2
  split <;> rfl

theorem splitOn_append_of_notMem {x : Bytes} (h : slash ∉ x) (y : Bytes)
    : (x ++ y).splitOn slash = (y.splitOn slash).modifyHead (x ++ ·) := by
  induction x with
  | nil => cases hsplit : y.splitOn slash <;> simp [hsplit]
  | cons c x ih =>
    simp only [List.mem_cons, not_or] at h
    rw [List.cons_append, List.splitOn_cons_eq_if_modifyHead, ih h.2]
    simp [Ne.symm h.1, List.modifyHead_modifyHead, Function.comp_def]

theorem pieces_name_append (n : Name) {c : UInt8} (hc : c ≠ slash) (y : Bytes)
    : ∃ x xs, pieces (n.toBytes ++ c :: y) = (n.toBytes ++ c :: x) :: xs := by
  have hslash : slash ∉ n.toBytes ++ [c] := by
    simp [n.isName.2.1, Ne.symm hc]
  cases hsplit : y.splitOn slash with
  | nil => exact absurd hsplit (List.splitOn_ne_nil _ _)
  | cons x xs =>
    refine ⟨x, xs.filter (· ≠ []), ?_⟩
    have := splitOn_append_of_notMem hslash y
    simp only [List.append_assoc, List.singleton_append] at this
    simp [pieces, this, hsplit]

theorem not_isWithin_of_lookAlike {l : Loc} {p : Bytes} (h : LookAlike (ofLoc l) p)
    : ¬IsWithin (ofLoc l) p := by
  obtain ⟨hroot, ⟨rest, rfl⟩, hne, hslash⟩ := h
  cases l using List.reverseRecOn with
  | nil => exact absurd rfl hroot
  | append_singleton l n =>
    cases rest with
    | nil => simp at hne
    | cons c rest =>
      have hc : c ≠ slash := by
        rintro rfl
        exact hslash ⟨rest, by simp⟩
      obtain ⟨x, xs, hx⟩ := pieces_name_append n hc rest
      have hpieces : pieces (ofLoc (l ++ [n]) ++ c :: rest)
          = l.map Name.toBytes ++ (n.toBytes ++ c :: x) :: xs := by
        rw [ofLoc_concat, List.append_assoc, List.cons_append, pieces_append_slash, hx]
        simp
      have habs : isAbsolute (ofLoc (l ++ [n]) ++ c :: rest) = true := by
        rw [ofLoc_concat]
        cases l <;> simp [isAbsolute]
      rw [IsWithin, elements_ofLoc, elements_eq, hpieces, habs]
      simp only [List.map_append, List.map_cons, List.map_nil, ↓reduceIte, List.cons_append,
        List.nil_append, List.append_assoc, List.cons_prefix_cons, true_and,
        List.prefix_append_right_inj]
      simp

theorem isWithin_of_not_lookAlike {l : Loc} {p : Bytes} (hpre : ofLoc l <+: p)
    (h : ¬LookAlike (ofLoc l) p)
    : IsWithin (ofLoc l) p := by
  obtain ⟨rest, rfl⟩ := hpre
  have habs : isAbsolute (ofLoc l ++ rest) = true := by
    have := isAbsolute_ofLoc l
    simp_all [isAbsolute, List.head?_append]
  rw [IsWithin, elements_ofLoc, elements_eq, habs]
  by_cases hroot : ofLoc l = [slash]
  . have : l = [] := ofLoc_injective hroot
    simp [this]
  . by_cases hrest : rest = []
    . simp [hrest]
    . have hslash : ofLoc l ++ [slash] <+: ofLoc l ++ rest := by
        by_contra hslash
        exact h ⟨hroot, ⟨rest, rfl⟩, by simpa using hrest, hslash⟩
      obtain ⟨tail, rfl⟩ := (List.prefix_append_right_inj _).mp hslash
      simp [pieces_append_slash, List.append_assoc]

/--
Below an absolute location a string prefix is a directory prefix except for look-alikes.
-/
theorem isWithin_iff_not_lookAlike {l : Loc} {p : Bytes} (hpre : ofLoc l <+: p)
    : IsWithin (ofLoc l) p ↔ ¬LookAlike (ofLoc l) p := by
  constructor
  . intro hwithin hlook
    exact not_isWithin_of_lookAlike hlook hwithin
  . exact isWithin_of_not_lookAlike hpre

end Path
end SimpleRsyncd
