import SimpleRsyncd.Config.Substitution
import SimpleRsyncd.Transition.Loop

/-!
This module bounds the two loops of `substituteEnvironmentVariables` and the positions that they hand to `substr`
and `replace`. The buffer can grow in every iteration, what gets shorter is the part that is not looked at yet.
-/

namespace SimpleRsyncd
namespace Configuration

/--
The characters that a call of `substr` or `replace` is about, it gets their number instead of the end.
-/
structure CharRange where
  text : Bytes
  start : Nat
  stop : Nat

/--
The number does not wrap around, and there are as many characters.
-/
def CharRange.InBounds (range : CharRange) : Prop :=
  range.start ≤ range.stop ∧ range.stop ≤ range.text.length

variable (getenv : Bytes → Option Bytes)

/--
The ranges of the default value and of the name in a reference with a colon.
-/
def referenceRanges (reference : Bytes) : List CharRange :=
  match Bytes.find [colon] reference with
  | none => []
  | some colonPos => [⟨reference, colonPos + 1, reference.length⟩, ⟨reference, 0, colonPos⟩]

/--
What the loop for `${VAR}` does with the buffer from a position on, and the ranges that it needs for this.
-/
def bracedTurn : Bytes × Nat → List CharRange × Turn (Bytes × Nat) Bytes :=
  fun (result, startPos) =>
    match Bytes.findFrom (bytes "$\x7b") result startPos with
    | none => ([], .exit result)
    | some startPos =>
      match Bytes.findFrom (bytes "\x7d") result (startPos + 2) with
      -- a malformed reference ends the loop
      | none => ([], .leave result)
      | some endPos =>
        let reference := Bytes.slice result (startPos + 2) endPos
        let ranges := ⟨result, startPos + 2, endPos⟩ :: referenceRanges reference
        match bracedValue getenv reference with
        | some varValue =>
          (
            ranges ++ [⟨result, startPos, endPos + 1⟩],
            .next (Bytes.replace result startPos (endPos + 1) varValue, startPos + varValue.length)
          )
        -- neither set nor given a default, the reference stays
        | none => (ranges, .next (result, endPos + 1))

/--
What the loop for `$VAR` does, in the same way.
-/
def plainTurn : Bytes × Nat → List CharRange × Turn (Bytes × Nat) Bytes :=
  fun (result, startPos) =>
    match Bytes.findFrom (bytes "$") result startPos with
    | none => ([], .exit result)
    | some startPos =>
      if startPos + 1 ≥ result.length then
        ([], .leave result)
      else if result[startPos + 1]? = some 123 then
        -- the first loop has left it, or it came with a value
        ([], .next (result, startPos + 2))
      else
        let varStart := startPos + 1
        let varName := (result.drop varStart).takeWhile isNameChar
        let varEnd := varStart + varName.length
        if varEnd > varStart then
          match getVariable getenv varName with
          | some envValue =>
            (
              [⟨result, varStart, varEnd⟩, ⟨result, startPos, varEnd⟩],
              .next (Bytes.replace result startPos varEnd envValue, startPos + envValue.length)
            )
          | none => ([⟨result, varStart, varEnd⟩], .next (result, varEnd))
        else
          ([], .next (result, startPos + 1))

def bracedLoop : Loop (Bytes × Nat) Bytes :=
  fun s => (bracedTurn getenv s).2

def plainLoop : Loop (Bytes × Nat) Bytes :=
  fun s => (plainTurn getenv s).2

variable {getenv}

theorem le_of_findFrom {needle s : Bytes} {start i : Nat} (h : Bytes.findFrom needle s start = some i)
    (hne : needle ≠ [])
    : start ≤ i ∧ i + needle.length ≤ s.length := by
  obtain ⟨n, hfind, rfl⟩ := Option.map_eq_some_iff.mp h
  have hfound := (Bytes.prefix_drop_of_find hfind).length_le
  have hpos := List.length_pos_of_ne_nil hne
  simp only [List.length_drop] at hfound
  omega

/--
The position behind a replacement is as far from the end as the one behind what was replaced.
-/
theorem length_replace {s : Bytes} {start stop : Nat} (t : Bytes) (hstart : start ≤ s.length)
    : (Bytes.replace s start stop t).length = start + t.length + (s.length - stop) := by
  rw [Bytes.replace, List.length_append, List.length_append, List.length_take, List.length_drop, Nat.min_eq_left hstart]

theorem inBounds_referenceRanges (reference : Bytes) : ∀ range ∈ referenceRanges reference, range.InBounds := by
  unfold referenceRanges
  cases hfind : Bytes.find [colon] reference with
  | none => simp
  | some colonPos =>
    have hlength := (Bytes.prefix_drop_of_find hfind).length_le
    simp only [List.length_singleton, List.length_drop] at hlength
    simp only [List.mem_cons, List.not_mem_nil, or_false]
    rintro range (rfl | rfl)
    . exact ⟨by dsimp only; omega, Nat.le_refl _⟩
    . exact ⟨Nat.zero_le _, by dsimp only; omega⟩

/--
An iteration stays within the buffer and leaves less of it to be looked at.
-/
structure Shortens (s : Bytes × Nat) (turn : List CharRange × Turn (Bytes × Nat) Bytes) : Prop where
  inBounds : ∀ range ∈ turn.1, range.InBounds
  leave : ∀ r, turn.2 = .leave r → 0 < s.1.length - s.2
  next : ∀ s', turn.2 = .next s' → s'.1.length - s'.2 < s.1.length - s.2

namespace Shortens

variable {result : Bytes} {pos startPos stop : Nat} {ranges : List CharRange}

theorem exit (r : Bytes) : Shortens (result, pos) ([], .exit r) := by
  constructor <;> simp

theorem of_leave (r : Bytes) (h : pos < result.length) : Shortens (result, pos) ([], .leave r) := by
  constructor
  . simp
  . intros
    dsimp only
    omega
  . simp

/--
The buffer stays as it is, and the loop goes on behind the position.
-/
theorem of_advance (hranges : ∀ range ∈ ranges, range.InBounds) (h : pos < result.length) (hstop : pos < stop)
    : Shortens (result, pos) (ranges, .next (result, stop)) := by
  refine ⟨hranges, by simp, ?_⟩
  rintro _ ⟨⟩
  dsimp only
  omega

/--
The loop goes on behind what it has put into the buffer.
-/
theorem of_replace (t : Bytes) (hranges : ∀ range ∈ ranges, range.InBounds) (hpos : pos ≤ startPos)
    (hstart : startPos < stop) (hstop : stop ≤ result.length)
    : Shortens (result, pos) (ranges, .next (Bytes.replace result startPos stop t, startPos + t.length)) := by
  refine ⟨hranges, by simp, ?_⟩
  rintro _ ⟨⟩
  rw [length_replace t (by omega)]
  dsimp only
  omega

end Shortens

theorem shortens_bracedTurn (s : Bytes × Nat) : Shortens s (bracedTurn getenv s) := by
  obtain ⟨result, pos⟩ := s
  unfold bracedTurn
  simp only
  cases hopen : Bytes.findFrom (bytes "$\x7b") result pos with
  | none => exact .exit result
  | some startPos =>
    obtain ⟨hstart, hopened⟩ := le_of_findFrom hopen (by decide)
    have hopenLength : (bytes "$\x7b").length = 2 := by decide
    simp only
    cases hclose : Bytes.findFrom (bytes "\x7d") result (startPos + 2) with
    | none => exact .of_leave result (by omega)
    | some endPos =>
      obtain ⟨hend, hclosed⟩ := le_of_findFrom hclose (by decide)
      have hcloseLength : (bytes "\x7d").length = 1 := by decide
      have hreference : ∀ range ∈ (⟨result, startPos + 2, endPos⟩ : CharRange)
          :: referenceRanges (Bytes.slice result (startPos + 2) endPos), range.InBounds :=
        List.forall_mem_cons.mpr ⟨⟨hend, by dsimp only; omega⟩, inBounds_referenceRanges _⟩
      have hreplaced : (⟨result, startPos, endPos + 1⟩ : CharRange).InBounds :=
        ⟨by dsimp only; omega, by dsimp only; omega⟩
      simp only
      cases bracedValue getenv (Bytes.slice result (startPos + 2) endPos) with
      | none => exact .of_advance hreference (by omega) (by omega)
      | some varValue =>
        refine .of_replace varValue ?_ hstart (by omega) (by omega)
        rw [List.forall_mem_append]
        exact ⟨hreference, by simpa using hreplaced⟩

theorem shortens_plainTurn (s : Bytes × Nat) : Shortens s (plainTurn getenv s) := by
  obtain ⟨result, pos⟩ := s
  unfold plainTurn
  simp only
  cases hdollar : Bytes.findFrom (bytes "$") result pos with
  | none => exact .exit result
  | some startPos =>
    obtain ⟨hstart, hfound⟩ := le_of_findFrom hdollar (by decide)
    have hlength : (bytes "$").length = 1 := by decide
    have hname := (List.takeWhile_prefix (l := result.drop (startPos + 1)) isNameChar).length_le
    rw [List.length_drop] at hname
    simp only
    generalize (result.drop (startPos + 1)).takeWhile isNameChar = varName at hname
    by_cases hlast : startPos + 1 ≥ result.length
    . rw [if_pos hlast]
      exact .of_leave result (by omega)
    . rw [if_neg hlast]
      by_cases hbrace : result[startPos + 1]? = some 123
      . rw [if_pos hbrace]
        exact .of_advance (by simp) (by omega) (by omega)
      . rw [if_neg hbrace]
        by_cases hempty : startPos + 1 + varName.length > startPos + 1
        . have hread : (⟨result, startPos + 1, startPos + 1 + varName.length⟩ : CharRange).InBounds :=
            ⟨by dsimp only; omega, by dsimp only; omega⟩
          have hreplaced : (⟨result, startPos, startPos + 1 + varName.length⟩ : CharRange).InBounds :=
            ⟨by dsimp only; omega, by dsimp only; omega⟩
          rw [if_pos hempty]
          cases getVariable getenv varName with
          | none => exact .of_advance (by simpa using hread) (by omega) (by omega)
          | some envValue => exact .of_replace envValue (by simp [hread, hreplaced]) hstart (by omega) (by omega)
        . rw [if_neg hempty]
          exact .of_advance (by simp) (by omega) (by omega)

theorem decreases_bracedLoop : (bracedLoop getenv).Decreases fun s => s.1.length - s.2 :=
  ⟨fun s => (shortens_bracedTurn s).leave, fun s => (shortens_bracedTurn s).next⟩

theorem decreases_plainLoop : (plainLoop getenv).Decreases fun s => s.1.length - s.2 :=
  ⟨fun s => (shortens_plainTurn s).leave, fun s => (shortens_plainTurn s).next⟩

theorem follows_substituteBraced : (bracedLoop getenv).Follows fun left s => substituteBraced getenv left s.1 s.2 := by
  constructor
  . rintro ⟨result, pos⟩ r hexit
    simp only [bracedLoop, bracedTurn] at hexit
    split at hexit
    . exact Turn.exit.inj hexit
    . split at hexit
      . contradiction
      . split at hexit <;> contradiction
  . rintro left ⟨result, pos⟩
    simp only [substituteBraced_succ, bracedLoop, bracedTurn]
    cases Bytes.findFrom (bytes "$\x7b") result pos with
    | none => rfl
    | some startPos =>
      simp only
      cases Bytes.findFrom (bytes "\x7d") result (startPos + 2) with
      | none => rfl
      | some endPos =>
        simp only
        cases bracedValue getenv (Bytes.slice result (startPos + 2) endPos) <;> rfl

theorem follows_substitutePlain : (plainLoop getenv).Follows fun left s => substitutePlain getenv left s.1 s.2 := by
  constructor
  . rintro ⟨result, pos⟩ r hexit
    simp only [plainLoop, plainTurn] at hexit
    split at hexit
    . exact Turn.exit.inj hexit
    . simp only [apply_ite Prod.snd] at hexit
      split at hexit
      . contradiction
      . split at hexit
        . contradiction
        . split at hexit
          . split at hexit <;> contradiction
          . contradiction
  . rintro left ⟨result, pos⟩
    simp only [substitutePlain, plainLoop, plainTurn]
    cases Bytes.findFrom (bytes "$") result pos with
    | none => rfl
    | some startPos =>
      simp only
      generalize (result.drop (startPos + 1)).takeWhile isNameChar = varName
      by_cases hlast : startPos + 1 ≥ result.length
      . rw [if_pos hlast, if_pos hlast]
      . rw [if_neg hlast, if_neg hlast]
        by_cases hbrace : result[startPos + 1]? = some 123
        . rw [if_pos hbrace, if_pos hbrace]
        . rw [if_neg hbrace, if_neg hbrace]
          by_cases hempty : startPos + 1 + varName.length > startPos + 1
          . rw [if_pos hempty, if_pos hempty]
            cases getVariable getenv varName <;> rfl
          . rw [if_neg hempty, if_neg hempty]

/--
Neither loop makes more iterations than the buffer had characters when it started, whatever has been put into the
buffer since, and no position is behind the end of the text it is used in.
-/
theorem substituteEnvironmentVariables_terminates (getenv : Bytes → Option Bytes) (value : Bytes)
    : ∃ n m result, (bracedLoop getenv).Ends (value, 0) n result ∧ n ≤ value.length
      ∧ (plainLoop getenv).Ends (result, 0) m (substituteEnvironmentVariables getenv value) ∧ m ≤ result.length
      ∧ ∀ s, (∀ range ∈ (bracedTurn getenv s).1, range.InBounds) ∧ ∀ range ∈ (plainTurn getenv s).1, range.InBounds := by
  obtain ⟨n, hbraced, hn⟩ := follows_substituteBraced.ends (s := (value, 0)) decreases_bracedLoop value.length (Nat.le_refl _)
  obtain ⟨m, hplain, hm⟩ := follows_substitutePlain.ends (s := (substituteBraced getenv value.length value 0, 0))
    decreases_plainLoop _ (Nat.le_refl _)
  exact ⟨n, m, _, hbraced, hn, hplain, hm, fun s => ⟨(shortens_bracedTurn s).inBounds, (shortens_plainTurn s).inBounds⟩⟩

end Configuration
end SimpleRsyncd
