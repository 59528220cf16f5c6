import SimpleRsyncd.Path.Parent

/-!
This module contains the elements of a path that play no part in where it leads: single dots and empty
elements, but for the last one, which asks for a directory.
-/

namespace SimpleRsyncd

namespace Elem

/--
Whether a resolution stays where it is at this element.
-/
def stays : Elem → Bool
  | .empty | .dot => true
  | .dotdot | .name _ => false

end Elem

namespace Path

def strip (es : List Elem) : List Elem :=
  es.filter (!·.stays)

/--
Whether the last element asks for a directory.
-/
def endsInside (es : List Elem) : Bool :=
  es.getLast?.any Elem.stays

/--
The elements that play a part.
-/
def compact (es : List Elem) : List Elem :=
  strip es ++ if endsInside es then [.empty] else []

section elements

variable {e : Elem} {es : List Elem}

theorem endsInside_cons (h : es ≠ []) : endsInside (e :: es) = endsInside es := by
  obtain ⟨e', es', rfl⟩ := List.exists_cons_of_ne_nil h
  simp [endsInside]

theorem compact_cons_of_stays (he : e.stays = true) (h : es ≠ []) : compact (e :: es) = compact es := by
  simp [compact, strip, he, endsInside_cons h]

theorem compact_cons_of_not_stays (he : e.stays = false) : compact (e :: es) = e :: compact es := by
  cases es with
  | nil => simp [compact, strip, endsInside, he]
  | cons e' es => simp [compact, strip, he, endsInside_cons]

theorem compact_ne_nil (h : es ≠ []) : compact es ≠ [] := by
  induction es with
  | nil => contradiction
  | cons e es ih =>
    cases he : e.stays with
    | false => simp [compact_cons_of_not_stays he]
    | true =>
      by_cases hes : es = []
      . simp [hes, compact, endsInside, he]
      . rw [compact_cons_of_stays he hes]
        exact ih hes

theorem exists_strip_eq_names (h : .dotdot ∉ es) : ∃ names : Loc, strip es = names.map .name := by
  induction es with
  | nil => exact ⟨[], rfl⟩
  | cons e es ih =>
    rw [List.mem_cons, not_or] at h
    obtain ⟨names, hnames⟩ := ih h.2
    cases e with
    | name n => exact ⟨n :: names, by simpa [strip, Elem.stays] using hnames⟩
    | dotdot => exact absurd rfl h.1
    | dot | empty => exact ⟨names, by simpa [strip, Elem.stays] using hnames⟩

/--
Without `..` the normal form consists of the names of a path.
-/
theorem normalise_of_notMem (absolute : Bool) {names : Loc} (h : .dotdot ∉ es) (hnames : strip es = names.map .name)
    : normalise absolute es
        =
      { absolute, ups := 0, names, trailing := endsInside es && !names.isEmpty } := by
  induction es using List.reverseRecOn generalizing names with
  | nil =>
    obtain rfl : names = [] := by simpa [strip] using hnames.symm
    rfl
  | append_singleton es e ih =>
    rw [List.mem_append, not_or] at h
    obtain ⟨before, hbefore⟩ := exists_strip_eq_names h.1
    have hstrip : strip (es ++ [e]) = strip es ++ strip [e] := by simp [strip]
    rw [hstrip, hbefore] at hnames
    rw [normalise, List.foldl_append, ← normalise, ih h.1 hbefore]
    have hinjective : Function.Injective Elem.name := fun n n' h => by injection h
    cases e with
    | name n =>
      obtain rfl : before ++ [n] = names := by
        apply (List.map_inj_right hinjective).mp
        simpa [strip, Elem.stays] using hnames
      simp [Normal.push, endsInside, Elem.stays]
    | dotdot => simp at h
    | dot | empty =>
      obtain rfl : before = names := by
        apply (List.map_inj_right hinjective).mp
        simpa [strip, Elem.stays] using hnames
      simp [Normal.push, endsInside, Elem.stays]

end elements

theorem elems_ofLoc_append_slash {l : Loc} (h : l ≠ []) : elems (ofLoc l ++ [slash]) = l.map .name ++ [.empty] := by
  have hpieces : pieces (ofLoc l ++ [slash]) = l.map Name.toBytes := by
    rw [pieces_append_slash, pieces_ofLoc]
    simp [pieces]
  have htrailing : hasTrailingSlash (ofLoc l ++ [slash]) = true := by
    simp [hasTrailingSlash, hpieces, h]
  simp [elems, hpieces, htrailing, Function.comp_def]

theorem elems_render {names : Loc} {trailing : Bool} (h : trailing = true → names ≠ [])
    : elems (Normal.render { absolute := true, ups := 0, names, trailing })
      = names.map .name ++ if trailing then [.empty] else [] := by
  cases trailing with
  | false => simp [Normal.render]
  | true => simpa [Normal.render] using elems_ofLoc_append_slash (h rfl)

theorem isInfix_of_mem_splitOn {p b : Bytes} (h : b ∈ p.splitOn slash) : b <:+: p := by
  have hp : [slash].intercalate (p.splitOn slash) = p := List.intercalate_splitOn slash
  rw [← hp]
  generalize p.splitOn slash = parts at h
  induction parts with
  | nil => simp at h
  | cons part parts ih =>
    cases parts with
    | nil => simp_all
    | cons next parts =>
      rw [List.intercalate_cons_cons]
      rcases List.mem_cons.mp h with rfl | h
      . rw [List.append_assoc]
        exact (List.prefix_append _ _).isInfix
      . exact (ih h).trans (List.suffix_append _ _).isInfix

theorem dotdot_notMem_elems {p : Bytes} (h : ¬dotDot <:+: p) : .dotdot ∉ elems p := by
  intro hmem
  rw [elems, List.mem_append] at hmem
  rcases hmem with hmem | hmem
  . obtain ⟨b, hb, heq⟩ := List.mem_map.mp hmem
    have hbytes := congrArg Elem.toBytes heq
    rw [Elem.toBytes_ofBytes (notMem_of_mem_pieces b hb)] at hbytes
    apply h
    rw [← show b = dotDot from hbytes]
    exact isInfix_of_mem_splitOn (List.mem_of_mem_filter hb)
  . split at hmem <;> simp at hmem

theorem pieces_ne_nil {p : Bytes} (hp : p ≠ []) (habs : isAbsolute p = false) : pieces p ≠ [] := by
  cases p with
  | nil => contradiction
  | cons c p =>
    have hc : c ≠ slash := by simpa [isAbsolute] using habs
    rw [pieces, List.splitOn_cons_eq_if_modifyHead, if_neg (by simpa using hc)]
    cases hsplit : p.splitOn slash with
    | nil => exact absurd hsplit (List.splitOn_ne_nil _ _)
    | cons b bs => simp

theorem elems_append {p q : Bytes} (hp : p ≠ []) (hq : q ≠ []) (habs : isAbsolute q = false)
    : elems (append p q) = (pieces p).map Elem.ofBytes ++ elems q ∧ isAbsolute (append p q) = isAbsolute p := by
  obtain ⟨s, happend, hpieces, habs'⟩ : ∃ s, append p q = s ++ slash :: q ∧ pieces s = pieces p
      ∧ isAbsolute (s ++ slash :: q) = isAbsolute p := by
    rw [append, habs]
    rcases List.eq_nil_or_concat' p with rfl | ⟨s, b, rfl⟩
    . contradiction
    . by_cases hb : b = slash
      . subst hb
        refine ⟨s, by simp [hasFilename], by rw [pieces_append_slash]; simp [pieces], ?_⟩
        cases s <;> simp [isAbsolute]
      . refine ⟨s ++ [b], by simp [hasFilename, hb], rfl, ?_⟩
        cases s <;> simp [isAbsolute]
  have hne := pieces_ne_nil hq habs
  have htrailing : hasTrailingSlash (s ++ slash :: q) = hasTrailingSlash q := by
    have hlast : (s ++ slash :: q).getLast? = q.getLast? := by
      rw [List.getLast?_append_of_ne_nil _ (by simp), List.getLast?_cons_of_ne_nil hq]
    have hsome : (pieces q).isEmpty = false := by simpa using hne
    have hboth : (pieces s ++ pieces q).isEmpty = false := by simpa using fun _ => hne
    rw [hasTrailingSlash, hasTrailingSlash, pieces_append_slash, hsome, hboth, hlast]
  rw [happend, habs', elems, pieces_append_slash, hpieces, htrailing, elems]
  simp

theorem elems_append_ofLoc {cwd : Loc} {q : Bytes} (hq : q ≠ []) (habs : isAbsolute q = false)
    : elems (append (ofLoc cwd) q) = cwd.map .name ++ elems q := by
  have hne : ofLoc cwd ≠ [] := by cases cwd <;> simp [ofLoc]
  rw [(elems_append hne hq habs).1]
  simp [Function.comp_def]

/--
The elements of the parent path come first.
-/
theorem elems_parentPath_prefix (p : Bytes)
    : elems (parentPath p) <+: elems p ∧ (parentPath p ≠ [] → isAbsolute (parentPath p) = isAbsolute p) := by
  by_cases hslash : slash ∈ p
  . obtain ⟨s, b, rfl, hb⟩ := exists_last_slash hslash
    obtain ⟨helems, habs⟩ := elems_parentPath s hb
    refine ⟨?_, fun _ => habs⟩
    rw [helems, elems, pieces_append_slash, List.map_append, List.append_assoc]
    exact List.prefix_append _ _
  . have hnil : parentPath p = [] := by
      have hdrop : p.reverse.dropWhile (· ≠ slash) = [] := by
        rw [List.dropWhile_eq_nil_iff]
        intro c hc
        rw [decide_eq_true_eq]
        rintro rfl
        exact hslash (List.mem_reverse.mp hc)
      have habs : isAbsolute p = false := by
        cases p <;> simp_all [isAbsolute]
      unfold parentPath
      dsimp only
      rw [hdrop, habs]
      rfl
    rw [hnil]
    exact ⟨List.nil_prefix, fun hne => absurd rfl hne⟩

end Path
end SimpleRsyncd
