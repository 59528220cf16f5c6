import Mathlib.Data.List.Infix

/-!
This module contains the part of C++'s `std::string` and `std::istringstream` that a line based
protocol needs. Strings are lists of bytes, `isspace` and `toupper` are those of the C locale.
-/

namespace SimpleRsyncd

abbrev Bytes := List UInt8

/--
The bytes of a string literal, all literals of the development are ASCII.
-/
def bytes (s : String) : Bytes :=
  s.toList.map fun c => UInt8.ofNat c.toNat

namespace Bytes

/--
What is asked of each byte of a text is decided for these bytes only, not for every byte there is.
-/
instance decidableForallMem (s : Bytes) (p : UInt8 → Prop) [DecidablePred p] : Decidable (∀ c ∈ s, p c) :=
  List.decidableBAll p s

/--
`haystack.find(needle) != npos`.
-/
def contains (haystack needle : Bytes) : Bool :=
  decide (needle <:+: haystack)

/--
`s.find(pre) == 0`.
-/
def startsWith (s pre : Bytes) : Bool :=
  decide (pre <+: s)

@[simp]
theorem contains_iff (haystack needle : Bytes) : contains haystack needle ↔ needle <:+: haystack := by
  simp [contains]

@[simp]
theorem startsWith_iff (s pre : Bytes) : startsWith s pre ↔ pre <+: s := by
  simp [startsWith]

def isspace (c : UInt8) : Bool :=
  c == 32 || (9 ≤ c && c ≤ 13)

def toupper (c : UInt8) : UInt8 :=
  if 97 ≤ c && c ≤ 122 then c - 32 else c

/--
The successive results of `stream >> word` on a fresh stream.
-/
def words (s : Bytes) : List Bytes :=
  (s.splitOnP isspace).filter (· ≠ [])

/--
`std::getline(stream, line)`: the line and what is left in the stream, `none` if nothing is left
to extract.
-/
def getline (s : Bytes) : Option (Bytes × Bytes) :=
  if s.isEmpty then none else some (s.takeWhile (· ≠ 10), (s.dropWhile (· ≠ 10)).tail)

def ofNat (n : Nat) : Bytes :=
  bytes (toString n)

/--
`std::to_string` on a signed number.
-/
def ofInt (n : Int) : Bytes :=
  bytes (toString n)

theorem not_isspace_of_mem_words {s w : Bytes} (h : w ∈ words s) : ∀ c ∈ w, isspace c = false := by
  simp only [words, List.mem_filter] at h
  suffices hsplit : ∀ t acc : Bytes, (∀ c ∈ acc, isspace c = false) →
      ∀ v ∈ t.splitOnPPrepend isspace acc, ∀ c ∈ v, isspace c = false by
    exact hsplit s [] (by simp) w h.1
  intro t
  induction t with
  | nil => intro acc hacc v hv c hc; simp_all
  | cons a t ih =>
    intro acc hacc
    rw [List.splitOnPPrepend_cons_eq_if]
    split
    . intro v hv
      cases List.mem_cons.mp hv with
      | inl heq => intro c hc; apply hacc; simpa [heq] using hc
      | inr hmem => exact ih [] (by simp) v hmem
    . apply ih
      simp_all

/--
An occurrence of a pattern that ends in a byte the tail does not have lies before that tail.
-/
theorem infix_of_infix_append_of_notMem {p s t : Bytes} {c : UInt8} (h : p ++ [c] <:+: s ++ t)
    (ht : c ∉ t) : p ++ [c] <:+: s := by
  obtain ⟨pre, post, hpost⟩ := h
  rw [← List.append_assoc, List.append_assoc (pre ++ p)] at hpost
  rw [List.append_eq_append_iff] at hpost
  rcases hpost with ⟨u, hs, hcu⟩ | ⟨u, hpre, ht'⟩
  . cases u with
    | nil =>
      simp only [List.nil_append] at hcu
      exact absurd (by simp [← hcu]) ht
    | cons d u =>
      simp only [List.cons_append, List.nil_append, List.cons.injEq] at hcu
      exact ⟨pre, u, by simp [hs, hcu.1]⟩
  . exact absurd (by simp [ht']) ht

end Bytes
end SimpleRsyncd
