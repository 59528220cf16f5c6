import SimpleRsyncd.Bytes.Decimal

/-!
This module contains what `strtol` and its relatives read of a text: white space, a sign and digits. What
comes after the digits is not looked at.
-/

namespace SimpleRsyncd
namespace Bytes

def isDigit (c : UInt8) : Bool :=
  48 ≤ c && c ≤ 57

/--
The number that these digits stand for.
-/
def numeral (digits : Bytes) : Nat :=
  digits.foldl (fun n c => 10 * n + (c - 48).toNat) 0

/--
Whether there is a minus sign, and the number after it, `none` if there are no digits.
-/
def readNumber (s : Bytes) : Option (Bool × Nat) :=
  let s := s.dropWhile isspace
  let (negative, s) :=
    match s with
    | 43 :: s => (false, s)
    | 45 :: s => (true, s)
    | s => (false, s)
  let digits := s.takeWhile isDigit
  if digits.isEmpty then none else some (negative, numeral digits)

def signText : Option Bool → Bytes
  | none => []
  | some false => [43]
  | some true => [45]

/--
A text that a number can be read from.
-/
structure NumberText where
  blanks : Bytes
  sign : Option Bool
  digits : Bytes
  rest : Bytes
  isspace_blanks : ∀ c ∈ blanks, isspace c = true
  digits_ne_nil : digits ≠ []
  isDigit_digits : ∀ c ∈ digits, isDigit c = true
  not_isDigit_rest : ∀ c ∈ rest.head?, isDigit c = false

theorem isDigit_iff {c : UInt8} : isDigit c = true ↔ 48 ≤ c ∧ c ≤ 57 := by
  simp [isDigit]

theorem isDigit_of_mem_ofNat {n : Nat} {c : UInt8} (h : c ∈ ofNat n) : isDigit c = true :=
  isDigit_iff.mpr (range_of_mem_ofNat h)

theorem numeral_ofNat (n : Nat) : numeral (ofNat n) = n :=
  foldl_ofNat n

theorem not_isspace_of_isDigit {c : UInt8} (h : isDigit c = true) : isspace c = false ∧ c ≠ 43 ∧ c ≠ 45 := by
  simp only [isDigit_iff, UInt8.le_iff_toNat_le, UInt8.reduceToNat] at h
  refine ⟨?_, by rintro rfl; simp at h, by rintro rfl; simp at h⟩
  have hspace : c ≠ 32 := by rintro rfl; simp at h
  have hrange : ¬c ≤ 13 := by
    intro hle
    have hle' : c.toNat ≤ 13 := UInt8.le_iff_toNat_le.mp hle
    omega
  simp [isspace, hspace, hrange]

namespace NumberText

variable (t : NumberText)

def text : Bytes :=
  t.blanks ++ (signText t.sign ++ (t.digits ++ t.rest))

def negative : Bool :=
  t.sign = some true

/--
The number that is read.
-/
def value : Int :=
  if t.negative then -(numeral t.digits : Int) else numeral t.digits

theorem takeWhile_digits : (t.digits ++ t.rest).takeWhile isDigit = t.digits := by
  rw [List.takeWhile_append_of_pos t.isDigit_digits]
  cases hrest : t.rest with
  | nil => simp
  | cons c rest => simp [t.not_isDigit_rest c (by simp [hrest])]

theorem readNumber_text : readNumber t.text = some (t.negative, numeral t.digits) := by
  obtain ⟨d, digits, hdigits⟩ := List.exists_cons_of_ne_nil t.digits_ne_nil
  obtain ⟨hspace, hplus, hminus⟩ := not_isspace_of_isDigit (t.isDigit_digits d (by simp [hdigits]))
  have htake := t.takeWhile_digits
  have hempty : t.digits.isEmpty = false := by simp [hdigits]
  unfold readNumber text negative
  rw [List.dropWhile_append_of_pos t.isspace_blanks]
  rcases hsign : t.sign with _ | _ | _
  . have hdrop : (signText none ++ (t.digits ++ t.rest)).dropWhile isspace = t.digits ++ t.rest := by
      simp [signText, hdigits, hspace]
    rw [hdrop]
    simp only []
    split
    . next heq => simp [hdigits, hplus] at heq
    . next heq => simp [hdigits, hminus] at heq
    . simp [htake, hempty]
  . simp [signText, htake, hempty, show isspace 43 = false from by decide]
  . simp [signText, htake, hempty, show isspace 45 = false from by decide]

/--
A text of digits only is the number and nothing else.
-/
theorem forall_isDigit_text_iff
    : (∀ c ∈ t.text, isDigit c = true) ↔ t.text = t.digits := by
  constructor
  . intro h
    have hblanks : t.blanks = [] := by
      rw [List.eq_nil_iff_forall_not_mem]
      intro c hc
      have hdigit := not_isspace_of_isDigit (h c (by simp [text, hc]))
      simp [t.isspace_blanks c hc] at hdigit
    have hsign : signText t.sign = [] := by
      rcases hsign : t.sign with _ | _ | _
      . rfl
      . exact absurd (h 43 (by simp [text, hsign, signText])) (by decide)
      . exact absurd (h 45 (by simp [text, hsign, signText])) (by decide)
    have hrest : t.rest = [] := by
      cases hrest : t.rest with
      | nil => rfl
      | cons c rest =>
        have hdigit := h c (by simp [text, hrest])
        simp [t.not_isDigit_rest c (by simp [hrest])] at hdigit
    rw [text, hblanks, hsign, hrest]
    simp
  . intro h
    rw [h]
    exact t.isDigit_digits

end NumberText

/--
The digits with nothing around them.
-/
def NumberText.ofDigits {digits : Bytes} (hne : digits ≠ []) (h : ∀ c ∈ digits, isDigit c = true) : NumberText where
  blanks := []
  sign := none
  digits := digits
  rest := []
  isspace_blanks := by simp
  digits_ne_nil := hne
  isDigit_digits := h
  not_isDigit_rest := by simp

theorem NumberText.text_ofDigits {digits : Bytes} (hne : digits ≠ []) (h : ∀ c ∈ digits, isDigit c = true)
    : (ofDigits hne h).text = digits := by
  simp [ofDigits, text, signText]

theorem NumberText.value_ofDigits {digits : Bytes} (hne : digits ≠ []) (h : ∀ c ∈ digits, isDigit c = true)
    : (ofDigits hne h).value = numeral digits := rfl

theorem head?_dropWhile {p : UInt8 → Bool} {s : Bytes} : ∀ c ∈ (s.dropWhile p).head?, p c = false := by
  intro c hc
  have hnot := List.head?_dropWhile_not p s
  simp_all

/--
A number is only read from such a text.
-/
theorem exists_numberText {s : Bytes} {r : Bool × Nat} (h : readNumber s = some r)
    : ∃ t : NumberText, t.text = s := by
  suffices ∃ sign rest, s.dropWhile isspace = signText sign ++ rest ∧ rest.takeWhile isDigit ≠ [] by
    obtain ⟨sign, rest, hrest, hdigits⟩ := this
    refine ⟨⟨s.takeWhile isspace, sign, rest.takeWhile isDigit, rest.dropWhile isDigit,
      fun c => List.mem_takeWhile_imp, hdigits, fun c => List.mem_takeWhile_imp, head?_dropWhile⟩, ?_⟩
    rw [NumberText.text, List.takeWhile_append_dropWhile, ← hrest, List.takeWhile_append_dropWhile]
  have hne : ∀ {digits : Bytes} {negative : Bool},
      (if digits.isEmpty then none else some (negative, numeral digits)) = some r → digits ≠ [] := by
    rintro digits negative h rfl
    contradiction
  simp only [readNumber] at h
  generalize s.dropWhile isspace = s at h ⊢
  split at h
  . next rest => exact ⟨some false, rest, rfl, hne h⟩
  . next rest => exact ⟨some true, rest, rfl, hne h⟩
  . exact ⟨none, s, rfl, hne h⟩

end Bytes
end SimpleRsyncd
