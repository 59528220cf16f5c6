import Mathlib.Computability.Language

/-!
This module contains the meaning of patterns in which one symbol, the star, stands for any string.
-/

namespace SimpleRsyncd
namespace Glob

variable {α : Type} [DecidableEq α] (star : α)

/--
The strings that result from a pattern if some string is put in for each of its stars.
-/
def language (pattern : List α) : Language α :=
  (pattern.map fun c => if c = star then ⊤ else {[c]}).prod

variable {star} {pattern s : List α}

theorem mem_language_append {before after : List α}
    : s ∈ language star (before ++ after) ↔ ∃ x ∈ language star before, ∃ y ∈ language star after, x ++ y = s := by
  rw [language, List.map_append, List.prod_append]
  exact Language.mem_mul

theorem mem_language_star_cons
    : s ∈ language star (star :: pattern) ↔ ∃ inserted, ∃ y ∈ language star pattern, inserted ++ y = s := by
  rw [language, List.map_cons, List.prod_cons, if_pos rfl, Language.mem_mul]
  constructor
  . rintro ⟨inserted, -, h⟩
    exact ⟨inserted, h⟩
  . rintro ⟨inserted, h⟩
    exact ⟨inserted, trivial, h⟩

theorem mem_language_cons {c : α} (h : c ≠ star)
    : s ∈ language star (c :: pattern) ↔ ∃ y ∈ language star pattern, c :: y = s := by
  rw [language, List.map_cons, List.prod_cons, if_neg h, Language.mem_mul]
  constructor
  . rintro ⟨_, rfl, y, hy, rfl⟩
    exact ⟨y, hy, rfl⟩
  . rintro ⟨y, hy, rfl⟩
    exact ⟨[c], rfl, y, hy, rfl⟩

/--
A pattern without a star stands for itself only.
-/
theorem mem_language_of_notMem (h : star ∉ pattern) : s ∈ language star pattern ↔ s = pattern := by
  induction pattern generalizing s with
  | nil => exact Language.mem_one s
  | cons c pattern ih =>
    rw [List.mem_cons, not_or] at h
    rw [mem_language_cons (Ne.symm h.1)]
    constructor
    . rintro ⟨y, hy, rfl⟩
      rw [(ih h.2).mp hy]
    . rintro rfl
      exact ⟨pattern, (ih h.2).mpr rfl, rfl⟩

/--
Any string can be put in for a star, also the star itself and the empty string.
-/
theorem self_mem_language (star : α) (pattern : List α) : pattern ∈ language star pattern := by
  induction pattern with
  | nil => exact (Language.mem_one _).mpr rfl
  | cons c pattern ih =>
    by_cases hc : c = star
    . subst hc
      exact mem_language_star_cons.mpr ⟨[c], pattern, ih, rfl⟩
    . exact (mem_language_cons hc).mpr ⟨pattern, ih, rfl⟩

theorem filter_mem_language (star : α) (pattern : List α) : pattern.filter (· ≠ star) ∈ language star pattern := by
  induction pattern with
  | nil => exact (Language.mem_one _).mpr rfl
  | cons c pattern ih =>
    by_cases hc : c = star
    . subst hc
      exact mem_language_star_cons.mpr ⟨[], _, ih, by simp⟩
    . exact (mem_language_cons hc).mpr ⟨_, ih, by simp [hc]⟩

/--
Up to its first star a pattern stands for itself.
-/
theorem mem_language_append_star {before after : List α} (h : star ∉ before)
    : s ∈ language star (before ++ star :: after)
        ↔
      ∃ inserted, ∃ y ∈ language star after, before ++ (inserted ++ y) = s := by
  rw [mem_language_append]
  constructor
  . rintro ⟨x, hx, y, hy, rfl⟩
    obtain rfl := (mem_language_of_notMem h).mp hx
    obtain ⟨inserted, z, hz, rfl⟩ := mem_language_star_cons.mp hy
    exact ⟨inserted, z, hz, rfl⟩
  . rintro ⟨inserted, y, hy, rfl⟩
    exact ⟨before, (mem_language_of_notMem h).mpr rfl, _, mem_language_star_cons.mpr ⟨inserted, y, hy, rfl⟩, rfl⟩

end Glob
end SimpleRsyncd
