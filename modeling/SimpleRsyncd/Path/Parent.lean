import Mathlib.Data.List.DropRight
import SimpleRsyncd.Path.Lemmas

/-!
This module contains what the normal form of a path to a file looks like: its elements, its parent
path, and how it is read back from the string.
-/

namespace SimpleRsyncd
namespace Path

/--
The string of a list of components, each after a slash.
-/
def joined (xs : List Bytes) : Bytes := xs.flatMap (slash :: ·)

theorem ofLoc_eq_joined {l : Loc} (h : l ≠ []) : ofLoc l = joined (l.map Name.toBytes) := by
  simp [ofLoc_of_ne_nil h, joined, List.flatMap_map]

theorem pieces_joined {xs : List Bytes} (h : ∀ b ∈ xs, slash ∉ b ∧ b ≠ []) : pieces (joined xs) = xs := by
  induction xs using List.reverseRecOn with
  | nil => simp [joined, pieces]
  | append_singleton xs b ih =>
    have hb := h b (by simp)
    have hlast : joined (xs ++ [b]) = joined xs ++ slash :: b := by simp [joined]
    rw [hlast, pieces_append_slash, ih fun b hmem => h b (List.mem_append_left _ hmem),
      pieces_of_notMem hb.1 hb.2]

theorem slash_cons_intercalate {xs : List Bytes} (h : xs ≠ [])
    : slash :: [slash].intercalate xs = joined xs := by
  induction xs with
  | nil => contradiction
  | cons b xs ih =>
    cases xs with
    | nil => simp [joined]
    | cons c xs =>
      rw [List.intercalate_cons_cons, List.append_assoc, List.singleton_append, ih (by simp)]
      simp [joined]

theorem exists_last_slash {p : Bytes} (h : slash ∈ p) : ∃ s b, p = s ++ slash :: b ∧ slash ∉ b := by
  obtain ⟨b, s, hp, hb⟩ := List.eq_append_cons_of_mem (List.mem_reverse.mpr h)
  refine ⟨s.reverse, b.reverse, ?_, by simpa using hb⟩
  have := congrArg List.reverse hp
  simpa using this

theorem pieces_rdropWhile (s : Bytes) : pieces (s.rdropWhile (· = slash)) = pieces s := by
  induction s using List.reverseRecOn with
  | nil => rfl
  | append_singleton s c ih =>
    rw [List.rdropWhile_concat]
    split
    . next hc =>
      obtain rfl : c = slash := by simpa using hc
      rw [ih, pieces_append_slash]
      simp [pieces]
    . rfl

theorem elems_append_name (s : Bytes) (n : Name)
    : elems (s ++ slash :: n.toBytes) = (pieces s).map Elem.ofBytes ++ [.name n] := by
  simp [elems, hasTrailingSlash, getLast?_slash_name, pieces_append_slash]

theorem forall_reverse_ne_slash {b : Bytes} (h : slash ∉ b) : ∀ c ∈ b.reverse, decide (c ≠ slash) = true := by
  intro c hc
  rw [decide_eq_true_eq]
  rintro rfl
  exact h (List.mem_reverse.mp hc)

theorem filename_of_notMem {b : Bytes} (h : slash ∉ b) : filename b = b := by
  rw [filename, List.takeWhile_eq_self_iff.mpr (forall_reverse_ne_slash h), List.reverse_reverse]

theorem filename_append_slash (s : Bytes) {b : Bytes} (h : slash ∉ b) : filename (s ++ slash :: b) = b := by
  rw [filename, List.reverse_append, List.reverse_cons, List.append_assoc,
    List.takeWhile_append_of_pos (forall_reverse_ne_slash h)]
  simp

theorem elems_name (n : Name) : elems n.toBytes = [.name n] := by
  have htrailing : n.toBytes.getLast? ≠ some slash := fun h => n.isName.2.1 (List.mem_of_getLast? h)
  rw [elems, hasTrailingSlash, pieces_name, decide_eq_false htrailing]
  simp

theorem parentPath_append_slash (s : Bytes) {b : Bytes} (hb : slash ∉ b)
    : parentPath (s ++ slash :: b)
        =
      if (s.rdropWhile (· = slash)).isEmpty && isAbsolute (s ++ slash :: b) then
        [slash]
      else
        s.rdropWhile (· = slash) := by
  have hdrop : ((s ++ slash :: b).reverse.dropWhile (· ≠ slash)).dropWhile (· = slash)
      = s.reverse.dropWhile (· = slash) := by
    rw [List.reverse_append, List.reverse_cons, List.append_assoc,
      List.dropWhile_append_of_pos (forall_reverse_ne_slash hb)]
    simp
  unfold parentPath
  dsimp only
  rw [hdrop]
  simp [List.rdropWhile]

/--
The parent path of a path with a slash starts where the path does.
-/
theorem elems_parentPath (s : Bytes) {b : Bytes} (hb : slash ∉ b)
    : elems (parentPath (s ++ slash :: b)) = (pieces s).map Elem.ofBytes
        ∧ isAbsolute (parentPath (s ++ slash :: b)) = isAbsolute (s ++ slash :: b) := by
  rw [parentPath_append_slash s hb]
  by_cases hempty : s.rdropWhile (· = slash) = []
  . have hpieces := pieces_rdropWhile s
    have habs : isAbsolute (s ++ slash :: b) = true := by
      have hslashes := List.rdropWhile_eq_nil_iff.mp hempty
      cases s <;> simp_all [isAbsolute]
    rw [hempty] at hpieces ⊢
    rw [habs, ← hpieces]
    decide
  . have hlast : (s.rdropWhile (· = slash)).getLast? ≠ some slash := by
      rw [List.getLast?_eq_getLast_of_ne_nil hempty]
      have := List.rdropWhile_last_not (· = slash) s hempty
      simpa using this
    rw [if_neg (by simp [hempty])]
    refine ⟨by simp [elems, hasTrailingSlash, hlast, pieces_rdropWhile], ?_⟩
    obtain ⟨rest, hrest⟩ := List.rdropWhile_prefix (· = slash) s
    generalize s.rdropWhile (· = slash) = before at hempty hrest
    rw [← hrest]
    simp [isAbsolute, List.head?_append, List.head?_eq_some_head hempty]

/--
The file `n` below some directories, which are found by going up from `base` and then down.
-/
def fullPath (base : Loc) (ups : Nat) (names : Loc) (n : Name) : Bytes :=
  joined (base.map Name.toBytes ++ List.replicate ups dotDot ++ names.map Name.toBytes) ++ slash :: n.toBytes

/--
The elements of the directories of a full path.
-/
def fullParent (base : Loc) (ups : Nat) (names : Loc) : List Elem :=
  base.map .name ++ List.replicate ups .dotdot ++ names.map .name

section

variable (base : Loc) (ups : Nat) (names : Loc) (n : Name)

theorem pieces_full
    : (pieces (joined (base.map Name.toBytes ++ List.replicate ups dotDot ++ names.map Name.toBytes))).map
        Elem.ofBytes
      =
    fullParent base ups names := by
  rw [pieces_joined]
  . have hup : Elem.ofBytes dotDot = .dotdot := by decide
    simp [fullParent, Function.comp_def, hup]
  . intro b hmem
    simp only [List.mem_append, List.mem_map, List.mem_replicate] at hmem
    rcases hmem with (⟨n, -, rfl⟩ | ⟨-, rfl⟩) | ⟨n, -, rfl⟩
    . exact ⟨n.isName.2.1, n.isName.1⟩
    . decide
    . exact ⟨n.isName.2.1, n.isName.1⟩

theorem elems_fullPath : elems (fullPath base ups names n) = fullParent base ups names ++ [.name n] := by
  rw [fullPath, elems_append_name, pieces_full]

theorem isAbsolute_fullPath : isAbsolute (fullPath base ups names n) = true := by
  unfold fullPath
  generalize base.map Name.toBytes ++ List.replicate ups dotDot ++ names.map Name.toBytes = xs
  cases xs <;> simp [joined, isAbsolute]

theorem elems_parentPath_fullPath
    : elems (parentPath (fullPath base ups names n)) = fullParent base ups names := by
  rw [fullPath, (elems_parentPath _ n.isName.2.1).1, pieces_full]

theorem isAbsolute_parentPath_fullPath : isAbsolute (parentPath (fullPath base ups names n)) = true :=
  (elems_parentPath _ n.isName.2.1).2.trans (isAbsolute_fullPath base ups names n)

theorem fullPath_zero : fullPath base 0 names n = ofLoc (base ++ names ++ [n]) := by
  rw [ofLoc_eq_joined (by simp)]
  simp [fullPath, joined]

end

/--
A suffix that is too long for a special entry makes a file name.
-/
theorem elems_append_suffix (s : Bytes) {t : Bytes} (hslash : slash ∉ t) (hlength : 2 < t.length)
    : ∃ es n, elems (s ++ t) = es ++ [.name n] := by
  have hname : ∀ b, slash ∉ b → IsName (b ++ t) := by
    intro b hb
    refine ⟨?_, by simp [hb, hslash], ?_, ?_⟩
    . rintro h
      simp [(List.append_eq_nil_iff.mp h).2] at hlength
    . intro h
      have := congrArg List.length h
      simp [bytes] at this
      omega
    . intro h
      have := congrArg List.length h
      simp [dotDot, bytes] at this
      omega
  by_cases hs : slash ∈ s
  . obtain ⟨s', b, rfl, hb⟩ := exists_last_slash hs
    have := elems_append_name s' ⟨b ++ t, hname b hb⟩
    exact ⟨_, _, by simpa using this⟩
  . exact ⟨[], ⟨s ++ t, hname s hs⟩, elems_name ⟨s ++ t, hname s hs⟩⟩

theorem normalise_concat (absolute : Bool) (es : List Elem) (n : Name)
    : normalise absolute (es ++ [.name n])
        =
      {
        absolute
        ups := (normalise absolute es).ups
        names := (normalise absolute es).names ++ [n]
        trailing := false
      } := by
  have habs := normalise_absolute absolute es
  simp only [normalise, List.foldl_append, List.foldl_cons, List.foldl_nil] at habs ⊢
  simp [Normal.push, habs]

section render

variable {ups : Nat} {names : Loc} {trailing : Bool}

theorem slash_cons_render (h : ups ≠ 0 ∨ names ≠ [])
    : slash :: Normal.render { absolute := false, ups, names, trailing }
      = joined (List.replicate ups dotDot ++ names.map Name.toBytes) ++ if trailing then [slash] else [] := by
  have hne : List.replicate ups dotDot ++ names.map Name.toBytes ≠ [] := by
    rcases h with h | h <;> simp [h]
  have hempty : (decide (ups = 0) && names.isEmpty) = false := by
    rcases h with h | h <;> simp [h]
  rw [← slash_cons_intercalate hne]
  simp only [Normal.render, hempty, Bool.false_eq_true, if_false, List.cons_append]

theorem isAbsolute_intercalate {x : Bytes} (xs : List Bytes) (rest : Bytes) (hslash : slash ∉ x) (hne : x ≠ [])
    : isAbsolute ([slash].intercalate (x :: xs) ++ rest) = false := by
  cases x with
  | nil => contradiction
  | cons c x =>
    have hc : c ≠ slash := by
      rintro rfl
      simp at hslash
    cases xs <;> simp [isAbsolute, hc]

theorem isAbsolute_render_relative
    : isAbsolute (Normal.render { absolute := false, ups, names, trailing }) = false := by
  simp only [Normal.render, Bool.false_eq_true, if_false]
  split
  . decide
  . next hne =>
    cases ups with
    | succ ups => exact isAbsolute_intercalate _ _ (by decide) (by decide)
    | zero =>
      cases names with
      | nil => simp at hne
      | cons n names => exact isAbsolute_intercalate _ _ n.isName.2.1 n.isName.1

theorem render_relative (ups : Nat) (names : Loc) (n : Name)
    : slash :: Normal.render { absolute := false, ups, names := names ++ [n], trailing := false }
        =
      fullPath [] ups names n := by
  rw [slash_cons_render (.inr (by simp))]
  simp [fullPath, joined]

end render

/--
The working directory in front of a relative path.
-/
theorem append_ofLoc {cwd : Loc} {q : Bytes} (h : isAbsolute q = false)
    : append (ofLoc cwd) q = joined (cwd.map Name.toBytes) ++ slash :: q := by
  cases cwd using List.reverseRecOn with
  | nil => simp [append, h, ofLoc, hasFilename, joined]
  | append_singleton cwd n =>
    have hname : hasFilename (ofLoc (cwd ++ [n])) = true := by
      have hlast := getLast?_slash_name n
      rw [List.getLast?_eq_some_getLast (by simp)] at hlast
      simp only [hasFilename, ofLoc_concat, List.getLast?_append]
      rw [List.getLast?_eq_some_getLast (by simp)]
      simpa using hlast
    simp only [append, h, Bool.false_eq_true, ↓reduceIte, hname]
    rw [ofLoc_eq_joined (by simp)]

theorem append_append (p q t : Bytes) : ∃ s, append p (q ++ t) = s ++ t := by
  unfold append
  split
  . exact ⟨q, rfl⟩
  . split
    . exact ⟨p ++ slash :: q, by simp⟩
    . exact ⟨p ++ q, by simp⟩

/--
The normal form of a path that ends in such a suffix.
-/
theorem lexicallyNormal_append_suffix (s : Bytes) {t : Bytes} (hslash : slash ∉ t) (hlength : 2 < t.length)
    : ∃ ups names n,
        (isAbsolute (s ++ t) = true ∧ lexicallyNormal (s ++ t) = fullPath [] 0 names n)
          ∨ isAbsolute (lexicallyNormal (s ++ t)) = false
            ∧ slash :: lexicallyNormal (s ++ t) = fullPath [] ups names n := by
  obtain ⟨es, n, helems⟩ := elems_append_suffix s hslash hlength
  have hempty : (s ++ t).isEmpty = false := by
    rw [List.isEmpty_eq_false_iff]
    rintro h
    simp [(List.append_eq_nil_iff.mp h).2] at hlength
  have hnormal : lexicallyNormal (s ++ t)
      = (normalise (isAbsolute (s ++ t)) (es ++ [.name n])).render := by
    simp [lexicallyNormal, hempty, helems]
  rw [hnormal, normalise_concat]
  refine ⟨(normalise (isAbsolute (s ++ t)) es).ups, (normalise (isAbsolute (s ++ t)) es).names, n, ?_⟩
  cases habs : isAbsolute (s ++ t) with
  | true =>
    refine .inl ⟨rfl, ?_⟩
    rw [fullPath_zero]
    simp [Normal.render]
  | false => exact .inr ⟨isAbsolute_render_relative, render_relative _ _ _⟩

theorem joined_fullPath (base : Loc) (ups : Nat) (names : Loc) (n : Name)
    : joined (base.map Name.toBytes) ++ fullPath [] ups names n = fullPath base ups names n := by
  simp [fullPath, joined]

theorem isAbsolute_name (n : Name) : isAbsolute n.toBytes = false := by
  have hslash := n.isName.2.1
  cases hn : n.toBytes with
  | nil => rfl
  | cons b bs =>
    rw [hn] at hslash
    have : b ≠ slash := fun h => hslash (by simp [h])
    simpa [isAbsolute] using this

theorem isAbsolute_append_name {p : Bytes} (n : Name) (hp : p ≠ [])
    : isAbsolute (append p n.toBytes) = isAbsolute p := by
  cases p with
  | nil => contradiction
  | cons b p =>
    rw [append, isAbsolute_name]
    simp only [Bool.false_eq_true, if_false]
    split <;> rfl

/--
`p / n` is `p` with the name after exactly one slash.
-/
theorem append_name {p : Bytes} (n : Name) (hp : p ≠ [])
    : ∃ s, append p n.toBytes = s ++ slash :: n.toBytes ∧ pieces s = pieces p := by
  rw [append, isAbsolute_name]
  rcases List.eq_nil_or_concat' p with rfl | ⟨s, b, rfl⟩
  . contradiction
  . by_cases hb : b = slash
    . subst hb
      refine ⟨s, by simp [hasFilename], ?_⟩
      rw [pieces_append_slash]
      simp [pieces]
    . exact ⟨s ++ [b], by simp [hasFilename, hb], rfl⟩

theorem filename_append_name (p : Bytes) (n : Name) : filename (append p n.toBytes) = n.toBytes := by
  by_cases hp : p = []
  . have happend : append p n.toBytes = n.toBytes := by simp [append, isAbsolute_name, hp, hasFilename]
    rw [happend, filename_of_notMem n.isName.2.1]
  . obtain ⟨s, hs, -⟩ := append_name n hp
    rw [hs, filename_append_slash s n.isName.2.1]

/--
Names that are appended one after the other are the last elements of the path.
-/
theorem append_names {p : Bytes} (names : List Name) (hp : p ≠ [])
    : isAbsolute (names.foldl (fun p n => append p n.toBytes) p) = isAbsolute p
        ∧ (names ≠ [] → elems (names.foldl (fun p n => append p n.toBytes) p)
          = (pieces p).map Elem.ofBytes ++ names.map .name) := by
  induction names generalizing p with
  | nil => simp
  | cons n names ih =>
    obtain ⟨s, heq, hpieces⟩ := append_name n hp
    have hne : append p n.toBytes ≠ [] := by simp [heq]
    rw [List.foldl_cons, ← isAbsolute_append_name n hp]
    refine ⟨(ih hne).1, fun _ => ?_⟩
    cases names with
    | nil => rw [List.foldl_nil, heq, elems_append_name, hpieces, List.map_singleton]
    | cons m names =>
      rw [(ih hne).2 (by simp), heq, pieces_append_slash, hpieces]
      simp

end Path
end SimpleRsyncd
