import Mathlib.Data.List.DropRight
import SimpleRsyncd.Bytes.Basic

/-!
This module contains the part of `std::string` and `std::getline` that the line based files of the
daemon are read and written with: searching, cutting at a separator, trimming and splitting into
fields.
-/

namespace SimpleRsyncd

def newline : UInt8 := 10

def comma : UInt8 := 44

def colon : UInt8 := 58

namespace Bytes

/--
`haystack.find(needle)`, `none` is `npos`.
-/
def find (needle : Bytes) : Bytes → Option Nat
  | [] => if needle.isEmpty then some 0 else none
  | c :: s => if needle.isPrefixOf (c :: s) then some 0 else (find needle s).map (· + 1)

/--
The parts of a string before and after the first `delim`, `none` if there is no `delim` in it.
-/
def cut (delim : UInt8) (s : Bytes) : Option (Bytes × Bytes) :=
  if delim ∈ s then
    some (s.takeWhile (· ≠ delim), (s.dropWhile (· ≠ delim)).tail)
  else
    none

/--
The successive results of `std::getline(stream, item, delim)` on a fresh stream.
-/
def getlines (delim : UInt8) (s : Bytes) : List Bytes :=
  let parts := s.splitOn delim
  if parts.getLast? = some [] then parts.dropLast else parts

/--
`stream >> word`: the word and what is left in the stream, `none` if only white space is left.
-/
def extract (s : Bytes) : Option (Bytes × Bytes) :=
  let s := s.dropWhile isspace
  if s.isEmpty then none else some (s.takeWhile (!isspace ·), s.dropWhile (!isspace ·))

def isblank (c : UInt8) : Bool :=
  c == 32 || c == 9

/--
`s.erase(0, s.find_first_not_of(" \t"))`.
-/
def trimLeft (s : Bytes) : Bytes :=
  s.dropWhile isblank

/--
`s.erase(s.find_last_not_of(" \t") + 1)`.
-/
def trimRight (s : Bytes) : Bytes :=
  s.rdropWhile isblank

def hexDigit (n : UInt8) : UInt8 :=
  if n < 10 then 48 + n else 87 + n

/--
Two lower case digits for each byte.
-/
def hex (s : Bytes) : Bytes :=
  s.flatMap fun c => [hexDigit (c / 16), hexDigit (c % 16)]

section find

variable {needle s : Bytes}

theorem find_eq_none_iff : find needle s = none ↔ ¬needle <:+: s := by
  induction s with
  | nil => simp [find]
  | cons c s ih =>
    rw [find, List.infix_cons_iff]
    split
    . next h => simp [List.isPrefixOf_iff_prefix.mp h]
    . next h =>
      have hnot : ¬needle <+: c :: s := by simpa using h
      simp [hnot, ih]

theorem find_append_of_notInfix {a b : Bytes}
    (h : ∀ i < a.length, ¬needle <+: a.drop i ++ b)
    : find needle (a ++ b) = (find needle b).map (a.length + ·) := by
  induction a with
  | nil => simp
  | cons c a ih =>
    have hhead : ¬needle <+: c :: (a ++ b) := h 0 (by simp)
    have htail : ∀ i < a.length, ¬needle <+: a.drop i ++ b := by
      intro i hi
      exact h (i + 1) (by simpa using hi)
    rw [List.cons_append, find, if_neg (by simpa using hhead), ih htail]
    rw [Option.map_map]
    congr 1
    funext n
    simp only [Function.comp_apply, List.length_cons]
    omega

theorem find_eq_zero (h : needle <+: s) : find needle s = some 0 := by
  cases s with
  | nil => simp_all [find]
  | cons c s => rw [find, if_pos (by simpa using h)]

theorem prefix_drop_of_find {i : Nat} (h : find needle s = some i) : needle <+: s.drop i := by
  induction s generalizing i with
  | nil => simp_all [find]
  | cons c s ih =>
    rw [find] at h
    split at h
    . next hpre =>
      obtain rfl : 0 = i := by simpa using h
      simpa using hpre
    . obtain ⟨j, hj, rfl⟩ := Option.map_eq_some_iff.mp h
      simpa using ih hj

/--
A match gives the first position at which the pattern occurs.
-/
theorem exists_find_le {i : Nat} (h : needle <+: s.drop i) : ∃ j ≤ i, find needle s = some j := by
  induction s generalizing i with
  | nil =>
    have hempty : needle = [] := by simpa using h
    exact ⟨0, by simp, by simp [find, hempty]⟩
  | cons c s ih =>
    rw [find]
    split
    . exact ⟨0, by simp, rfl⟩
    . next hnot =>
      cases i with
      | zero => exact absurd (List.isPrefixOf_iff_prefix.mpr h) hnot
      | succ i =>
        obtain ⟨j, hj, hfind⟩ := ih h
        exact ⟨j + 1, by omega, by simp [hfind]⟩

theorem find_of_find_append {a b : Bytes} {i : Nat} (h : find needle (a ++ b) = some i) (hi : a.length ≤ i)
    : find needle b = some (i - a.length) := by
  induction a generalizing i with
  | nil => simpa using h
  | cons c a ih =>
    rw [List.cons_append, find] at h
    split at h
    . obtain rfl : 0 = i := by simpa using h
      simp at hi
    . obtain ⟨j, hj, rfl⟩ := Option.map_eq_some_iff.mp h
      rw [ih hj (by simpa using hi)]
      simp

/--
A pattern without a separator that occurs right before the separator ends there.
-/
theorem prefix_of_prefix_append_cons {p a b : Bytes} {c : UInt8} (hc : c ∉ p) (h : p <+: a ++ c :: b)
    : p <+: a := by
  induction a generalizing p with
  | nil =>
    cases p with
    | nil => simp
    | cons d p => simp_all
  | cons d a ih =>
    cases p with
    | nil => simp
    | cons e p =>
      rw [List.cons_append, List.cons_prefix_cons] at h
      exact List.cons_prefix_cons.mpr ⟨h.1, ih (by simp_all) h.2⟩

/--
A pattern without a separator does not reach over it.
-/
theorem infix_or_infix_of_infix_append_cons {p a b : Bytes} {c : UInt8} (hc : c ∉ p) (h : p <:+: a ++ c :: b)
    : p <:+: a ∨ p <:+: b := by
  induction a with
  | nil =>
    rcases List.infix_cons_iff.mp h with h | h
    . exact .inl (prefix_of_prefix_append_cons (a := []) hc h).isInfix
    . exact .inr h
  | cons d a ih =>
    rcases List.infix_cons_iff.mp h with h | h
    . exact .inl (prefix_of_prefix_append_cons (a := d :: a) hc h).isInfix
    . rcases ih h with h | h
      . exact .inl (h.trans (List.suffix_cons d a).isInfix)
      . exact .inr h

theorem find_append_cons {a b : Bytes} {c : UInt8} (hc : c ∉ needle) (h : ¬needle <:+: a)
    : find needle (a ++ c :: b) = (find needle b).map (a.length + 1 + ·) := by
  have hnot : ∀ i < (a ++ [c]).length, ¬needle <+: (a ++ [c]).drop i ++ b := by
    intro i hi hpre
    have hi : i ≤ a.length := by simpa [Nat.lt_succ_iff] using hi
    rw [List.drop_append_of_le_length hi, List.append_assoc] at hpre
    have hpre := prefix_of_prefix_append_cons hc hpre
    exact h (hpre.isInfix.trans (List.drop_suffix i a).isInfix)
  have hfind := find_append_of_notInfix hnot
  simpa using hfind

theorem find_lt_of_infix {a b : Bytes} (hne : needle ≠ []) (h : needle <:+: a)
    : ∃ i < a.length, find needle (a ++ b) = some i := by
  obtain ⟨p, q, rfl⟩ := h
  have hpre : needle <+: (p ++ needle ++ q ++ b).drop p.length := by
    simp [List.append_assoc]
  obtain ⟨i, hi, hfind⟩ := exists_find_le hpre
  have hpos : 0 < needle.length := List.length_pos_iff.mpr hne
  refine ⟨i, ?_, hfind⟩
  simp only [List.length_append]
  omega

/--
A pattern does not start where its first byte is missing.
-/
theorem not_prefix_drop_append {u : Bytes} {c : UInt8} (needle s : Bytes) (h : c ∉ u)
    : ∀ i < u.length, ¬(c :: needle) <+: u.drop i ++ s := by
  intro i hi
  rw [List.drop_eq_getElem_cons hi, List.cons_append, List.cons_prefix_cons]
  rintro ⟨rfl, -⟩
  exact h (List.getElem_mem hi)

theorem find_singleton_append {a : Bytes} {c : UInt8} (b : Bytes) (h : c ∉ a) : find [c] (a ++ c :: b) = some a.length := by
  have hpre : [c] <+: c :: b := List.prefix_append [c] b
  rw [find_append_of_notInfix (not_prefix_drop_append [] _ h), find_eq_zero hpre]
  rfl

theorem find_singleton_eq_none_iff {c : UInt8} : find [c] s = none ↔ c ∉ s := by
  rw [find_eq_none_iff, List.singleton_infix_iff]

theorem notMem_take_of_find {c : UInt8} {n : Nat} (h : find [c] s = some n) : c ∉ s.take n := by
  intro hmem
  obtain ⟨i, hi, hget⟩ := List.mem_iff_getElem.mp hmem
  rw [List.length_take] at hi
  rw [List.getElem_take] at hget
  have hpre : [c] <+: s.drop i := by
    rw [List.drop_eq_getElem_cons (by omega), hget]
    exact List.prefix_append [c] _
  obtain ⟨j, hj, hfind⟩ := exists_find_le hpre
  rw [h] at hfind
  obtain rfl := Option.some.inj hfind
  omega

/--
A pattern without a separator does not reach over the end of whole lines.
-/
theorem find_append_of_lines {a : Bytes} {c : UInt8} (b : Bytes) (hend : a = [] ∨ a.getLast? = some c) (hc : c ∉ needle)
    (h : ¬needle <:+: a)
    : find needle (a ++ b) = (find needle b).map (a.length + ·) := by
  rcases hend with rfl | hlast
  . simp
  . obtain ⟨a, rfl⟩ := List.getLast?_eq_some_iff.mp hlast
    have hnot : ¬needle <:+: a := fun hin => h (hin.trans (List.prefix_append a [c]).isInfix)
    rw [List.append_assoc, List.singleton_append, find_append_cons hc hnot, List.length_append, List.length_singleton]

end find

section extract

variable {s w r : Bytes}

/--
What a successful extraction skips, takes and leaves.
-/
theorem extract_eq_some (h : extract s = some (w, r))
    : ∃ blanks, s = blanks ++ w ++ r ∧ w ≠ [] ∧ (∀ c ∈ blanks, isspace c = true)
      ∧ (∀ c ∈ w, isspace c = false) ∧ ∀ c ∈ r.head?, isspace c = true := by
  simp only [extract] at h
  split at h
  . simp at h
  . next hne =>
    obtain ⟨rfl, rfl⟩ : _ = w ∧ _ = r := by simpa using h
    refine ⟨s.takeWhile isspace, ?_, ?_, ?_, ?_, ?_⟩
    . rw [List.append_assoc, List.takeWhile_append_dropWhile, List.takeWhile_append_dropWhile]
    . cases hs : s.dropWhile isspace with
      | nil => simp [hs] at hne
      | cons c t =>
        have hc : isspace c = false := by
          have hcons : s.dropWhile isspace ≠ [] := by simp [hs]
          have hhead := List.head_dropWhile_not isspace hcons
          simpa [hs] using hhead
        simp [hc]
    . intro c hc
      exact List.mem_takeWhile_imp hc
    . intro c hc
      simpa using List.mem_takeWhile_imp hc
    . intro c hc
      have := List.head?_dropWhile_not (!isspace ·) (s.dropWhile isspace)
      simp_all

theorem extract_cons (c : UInt8) (s : Bytes) (h : isspace c = true) : extract (c :: s) = extract s := by
  simp [extract, h]

theorem extract_append (hw : w ≠ []) (hspace : ∀ c ∈ w, isspace c = false)
    (hr : ∀ c ∈ r.head?, isspace c = true)
    : extract (w ++ r) = some (w, r) := by
  cases w with
  | nil => exact absurd rfl hw
  | cons c w =>
    have hc : isspace c = false := hspace c (by simp)
    have hall : ∀ a ∈ c :: w, (!isspace a) = true := by
      intro a ha
      simp [hspace a ha]
    have hhead : (c :: w ++ r).dropWhile isspace = c :: w ++ r := by
      simp [hc]
    have hstop : r.takeWhile (!isspace ·) = [] ∧ r.dropWhile (!isspace ·) = r := by
      cases r with
      | nil => simp
      | cons d r => simp_all
    simp only [extract, hhead]
    rw [List.takeWhile_append_of_pos hall, List.dropWhile_append_of_pos hall, hstop.1, hstop.2]
    simp

end extract

section cut

variable {delim : UInt8} {a b s : Bytes}

theorem cut_append (h : delim ∉ a) : cut delim (a ++ delim :: b) = some (a, b) := by
  have hne : ∀ c ∈ a, decide (c ≠ delim) = true := by
    intro c hc
    simp only [decide_eq_true_eq]
    rintro rfl
    exact h hc
  rw [cut, if_pos (by simp), List.takeWhile_append_of_pos hne, List.dropWhile_append_of_pos hne]
  simp

theorem cut_eq_none (h : delim ∉ s) : cut delim s = none := by
  rw [cut, if_neg h]

theorem cut_eq_some_iff : cut delim s = some (a, b) ↔ delim ∉ a ∧ s = a ++ delim :: b := by
  constructor
  . intro h
    by_cases hmem : delim ∈ s
    . obtain ⟨a', b', rfl, ha'⟩ := List.eq_append_cons_of_mem hmem
      rw [cut_append ha'] at h
      obtain ⟨rfl, rfl⟩ := Prod.mk.inj (Option.some.inj h)
      exact ⟨ha', rfl⟩
    . rw [cut_eq_none hmem] at h
      contradiction
  . rintro ⟨ha, rfl⟩
    exact cut_append ha

end cut

section getlines

variable {delim : UInt8}

theorem notMem_of_mem_splitOn {s part : Bytes} (h : part ∈ s.splitOn delim) : delim ∉ part := by
  induction s generalizing part with
  | nil => simp_all
  | cons c s ih =>
    rw [List.splitOn_cons_eq_if_modifyHead] at h
    split at h
    . rcases List.mem_cons.mp h with rfl | h
      . simp
      . exact ih h
    . next hne =>
      obtain ⟨first, rest, hsplit⟩ := List.exists_cons_of_ne_nil (List.splitOn_ne_nil delim s)
      rw [hsplit] at h ih
      rcases List.mem_cons.mp h with rfl | h
      . have hc : delim ≠ c := fun heq => hne (by simp [heq])
        simp [hc, ih]
      . exact ih (by simp [h])

theorem notMem_of_mem_getlines {s line : Bytes} (h : line ∈ getlines delim s) : delim ∉ line := by
  unfold getlines at h
  dsimp only at h
  split at h
  . exact notMem_of_mem_splitOn (List.mem_of_mem_dropLast h)
  . exact notMem_of_mem_splitOn h

/--
Lines without newlines that were written one after the other are read back.
-/
theorem getlines_flatMap {lines : List Bytes} (h : ∀ line ∈ lines, delim ∉ line)
    : getlines delim (lines.flatMap (· ++ [delim])) = lines := by
  have hjoin : lines.flatMap (· ++ [delim]) = [delim].intercalate (lines ++ [[]]) := by
    clear h
    induction lines with
    | nil => rfl
    | cons line lines ih =>
      rw [List.flatMap_cons, ih]
      cases lines <;> simp [List.intercalate]
  have hsplit : (lines.flatMap (· ++ [delim])).splitOn delim = lines ++ [[]] := by
    rw [hjoin, List.splitOn_intercalate delim _ (by simp)]
    intro line hline
    rcases List.mem_append.mp hline with hline | hline
    . exact h line hline
    . simp_all
  simp [getlines, hsplit]

theorem getLast?_flatMap_lines (lines : List Bytes)
    : lines.flatMap (· ++ [delim]) = [] ∨ (lines.flatMap (· ++ [delim])).getLast? = some delim := by
  induction lines using List.reverseRecOn with
  | nil => exact .inl rfl
  | append_singleton lines line _ => simp [List.flatMap_append]

theorem count_flatMap_lines (lines : List Bytes)
    : (lines.flatMap (· ++ [delim])).count delim = lines.length + lines.flatten.count delim := by
  induction lines with
  | nil => rfl
  | cons line lines ih =>
    rw [List.flatMap_cons, List.count_append, ih, List.flatten_cons, List.count_append, List.length_cons]
    simp
    omega

/--
Lines without a separator in them are told apart from all others of their number.
-/
theorem flatMap_lines_inj {lines lines' : List Bytes} (h : ∀ line ∈ lines, delim ∉ line)
    (hlength : lines.length = lines'.length)
    (heq : lines.flatMap (· ++ [delim]) = lines'.flatMap (· ++ [delim]))
    : lines = lines' := by
  have hcount := congrArg (List.count delim) heq
  rw [count_flatMap_lines, count_flatMap_lines, ← hlength] at hcount
  have hzero : lines.flatten.count delim = 0 := by
    rw [List.count_eq_zero, List.mem_flatten]
    rintro ⟨line, hline, hmem⟩
    exact h line hline hmem
  have h' : ∀ line ∈ lines', delim ∉ line := by
    have hzero' : lines'.flatten.count delim = 0 := by omega
    intro line hline hmem
    exact List.count_eq_zero.mp hzero' (List.mem_flatten_of_mem hline hmem)
  rw [← getlines_flatMap h, heq, getlines_flatMap h']

/--
Non-empty items that were written with separators between them are read back.
-/
theorem getlines_intercalate {items : List Bytes} (h : ∀ item ∈ items, delim ∉ item)
    (hne : ∀ item ∈ items, item ≠ []) (hitems : items ≠ [])
    : getlines delim ([delim].intercalate items) = items := by
  have hlast : items.getLast? ≠ some [] := by
    intro hlast
    exact hne _ (List.mem_of_getLast? hlast) rfl
  simp [getlines, List.splitOn_intercalate delim h hitems, hlast]

end getlines

theorem takeWhile_ne_eq_self {c : UInt8} {s : Bytes} (h : c ∉ s) : s.takeWhile (· ≠ c) = s := by
  rw [List.takeWhile_eq_self_iff]
  intro d hd
  simp only [decide_eq_true_eq]
  rintro rfl
  exact h hd

theorem mem_of_mem_intercalate {c delim : UInt8} {items : List Bytes} (h : c ∈ [delim].intercalate items)
    : c = delim ∨ ∃ item ∈ items, c ∈ item := by
  induction items with
  | nil => simp [List.intercalate] at h
  | cons item items ih =>
    cases items with
    | nil =>
      have hitem : c ∈ item := by simpa [List.intercalate] using h
      exact .inr ⟨item, by simp, hitem⟩
    | cons item' items =>
      have hcases : c ∈ item ∨ c = delim ∨ c ∈ [delim].intercalate (item' :: items) := by
        simpa [List.intercalate] using h
      rcases hcases with hitem | hdelim | hrest
      . exact .inr ⟨item, by simp, hitem⟩
      . exact .inl hdelim
      . rcases ih hrest with hdelim | ⟨i, hi, hc⟩
        . exact .inl hdelim
        . exact .inr ⟨i, List.mem_cons_of_mem _ hi, hc⟩

theorem getLast?_eq_of_suffix {s t : Bytes} (h : t <:+ s) (hne : t ≠ []) : s.getLast? = t.getLast? := by
  obtain ⟨a, rfl⟩ := h
  rw [List.getLast?_append, List.getLast?_eq_some_getLast hne]
  rfl

theorem trimLeft_eq_self {s : Bytes} (h : ∀ c ∈ s.head?, isblank c = false) : trimLeft s = s := by
  cases s with
  | nil => rfl
  | cons c s => simp [trimLeft, h c (by simp)]

theorem trimRight_eq_self {s : Bytes} (h : ∀ c ∈ s.getLast?, isblank c = false) : trimRight s = s := by
  rw [trimRight, List.rdropWhile_eq_self_iff]
  intro hne
  have := h _ (List.getLast?_eq_some_getLast hne)
  simp [this]

theorem isblank_of_not_isspace {c : UInt8} (h : isspace c = false) : isblank c = false := by
  simp only [isspace, Bool.or_eq_false_iff, beq_eq_false_iff_ne] at h
  obtain ⟨hspace, hrange⟩ := h
  have htab : c ≠ 9 := by
    rintro rfl
    simp at hrange
  simp [isblank, hspace, htab]

end Bytes
end SimpleRsyncd
