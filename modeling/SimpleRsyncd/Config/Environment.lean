import SimpleRsyncd.Auth.PasswordHasher
import SimpleRsyncd.Bytes.Numeral

/-!
This module contains what a `Configuration` does to a value before it is used: references to
environment variables are replaced, and numbers are read with `std::stoul`.
-/

namespace SimpleRsyncd

namespace Bytes

/--
`s.substr(start, end - start)`.
-/
def slice (s : Bytes) (start stop : Nat) : Bytes :=
  (s.drop start).take (stop - start)

/--
`s.replace(start, end - start, t)`.
-/
def replace (s : Bytes) (start stop : Nat) (t : Bytes) : Bytes :=
  s.take start ++ t ++ s.drop stop

/--
`s.find(needle, start)`.
-/
def findFrom (needle s : Bytes) (start : Nat) : Option Nat :=
  (find needle (s.drop start)).map (start + ·)

end Bytes

namespace Configuration

variable (getenv : Bytes → Option Bytes)

/--
`std::getenv(name.c_str())`.
-/
def getVariable (name : Bytes) : Option Bytes :=
  getenv (name.takeWhile (· ≠ 0))

/--
The loop for `${VAR}` and `${VAR:default}`. An iteration leaves less of the buffer to be looked at, so
that its length at the start bounds the iterations.
-/
def substituteBraced : Nat → Bytes → Nat → Bytes
  | 0, result, _ => result
  | left + 1, result, startPos =>
    match Bytes.findFrom (bytes "$\x7b") result startPos with
    | none => result
    | some startPos =>
      match Bytes.findFrom (bytes "\x7d") result (startPos + 2) with
      | none => result
      | some endPos =>
        let reference := Bytes.slice result (startPos + 2) endPos
        let (varName, defaultValue) := (Bytes.cut colon reference).getD (reference, [])
        let varValue :=
          match getVariable getenv varName with
          | some envValue => some envValue
          | none => if defaultValue.isEmpty then none else some defaultValue
        match varValue with
        | some varValue =>
          substituteBraced left (Bytes.replace result startPos (endPos + 1) varValue)
            (startPos + varValue.length)
        | none => substituteBraced left result (endPos + 1)

def isNameChar (c : UInt8) : Bool :=
  PasswordPolicyValidator.isalnum c || c == 95

/--
The loop for `$VAR`.
-/
def substitutePlain : Nat → Bytes → Nat → Bytes
  | 0, result, _ => result
  | left + 1, result, startPos =>
    match Bytes.findFrom (bytes "$") result startPos with
    | none => result
    | some startPos =>
      if startPos + 1 ≥ result.length then
        result
      else if result[startPos + 1]? = some 123 then
        substitutePlain left result (startPos + 2)
      else
        let varStart := startPos + 1
        let varName := (result.drop varStart).takeWhile isNameChar
        let varEnd := varStart + varName.length
        if varEnd > varStart then
          match getVariable getenv varName with
          | some envValue =>
            substitutePlain left (Bytes.replace result startPos varEnd envValue)
              (startPos + envValue.length)
          | none => substitutePlain left result varEnd
        else
          substitutePlain left result (startPos + 1)

def substituteEnvironmentVariables (value : Bytes) : Bytes :=
  let result := substituteBraced getenv value.length value 0
  substitutePlain getenv result.length result 0

/--
`std::stoul(value)`, `none` if it throws. A minus sign negates the number modulo 2^64.
-/
def stoul (value : Bytes) : Option Nat :=
  let value := value.dropWhile Bytes.isspace
  let (negative, value) :=
    match value with
    | 43 :: value => (false, value)
    | 45 :: value => (true, value)
    | value => (false, value)
  let digits := value.takeWhile PasswordPolicyValidator.isdigit
  if digits.isEmpty then
    none
  else
    let n := digits.foldl (fun n c => 10 * n + (c - 48).toNat) 0
    if n ≥ 18446744073709551616 then
      none
    else if negative then
      some ((18446744073709551616 - n) % 18446744073709551616)
    else
      some n

variable {getenv}

theorem findFrom_eq_none {needle s : Bytes} {c : UInt8} (hc : c ∈ needle) (h : c ∉ s) (start : Nat)
    : Bytes.findFrom needle s start = none := by
  have hnot : ¬needle <:+: s.drop start := by
    intro hin
    exact h (List.mem_of_mem_drop (hin.subset hc))
  simp [Bytes.findFrom, Bytes.find_eq_none_iff.mpr hnot]

theorem substituteBraced_of_notMem {s : Bytes} (h : 36 ∉ s) (left start : Nat)
    : substituteBraced getenv left s start = s := by
  cases left with
  | zero => rfl
  | succ left => rw [substituteBraced, findFrom_eq_none (c := 36) (by decide) h]

theorem substitutePlain_of_notMem {s : Bytes} (h : 36 ∉ s) (left start : Nat)
    : substitutePlain getenv left s start = s := by
  cases left with
  | zero => rfl
  | succ left => rw [substitutePlain, findFrom_eq_none (c := 36) (by decide) h]

/--
A value without a dollar sign refers to no variables.
-/
theorem substituteEnvironmentVariables_of_notMem {s : Bytes} (h : 36 ∉ s)
    : substituteEnvironmentVariables getenv s = s := by
  rw [substituteEnvironmentVariables, substituteBraced_of_notMem h, substitutePlain_of_notMem h]

/--
What `std::stoul` makes of the number that it reads.
-/
theorem stoul_eq (value : Bytes)
    : stoul value = (Bytes.readNumber value).bind fun (negative, n) =>
        if n ≥ 18446744073709551616 then
          none
        else if negative then
          some ((18446744073709551616 - n) % 18446744073709551616)
        else
          some n := by
  have hisdigit : PasswordPolicyValidator.isdigit = Bytes.isDigit := rfl
  simp only [stoul, Bytes.readNumber, hisdigit]
  rw [apply_ite (Option.bind · _)]
  rfl

/--
A number that fits into 64 bits is read back.
-/
theorem stoul_ofNat {n : Nat} (h : n < 2 ^ 64) : stoul (Bytes.ofNat n) = some n := by
  have hread := Bytes.NumberText.readNumber_text
    (.ofDigits (Bytes.ofNat_ne_nil n) fun c => Bytes.isDigit_of_mem_ofNat)
  rw [Bytes.NumberText.text_ofDigits] at hread
  have hsmall : ¬n ≥ 18446744073709551616 := by omega
  rw [stoul_eq, hread]
  simp [Bytes.NumberText.ofDigits, Bytes.NumberText.negative, Bytes.numeral_ofNat, hsmall]

end Configuration
end SimpleRsyncd
