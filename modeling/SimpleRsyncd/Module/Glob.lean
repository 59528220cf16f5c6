import SimpleRsyncd.Module.Filter
import SimpleRsyncd.Pattern.Glob

/-!
This module determines for which patterns `matchesPattern` is right. Everything after the first star has to
occur in a file name as it is written, so a second star only stands for itself.
-/

namespace SimpleRsyncd
namespace ModuleConfig

open Glob

def star : UInt8 := 42

variable {filename pattern : Bytes}

/--
What a file name begins and ends with.
-/
theorem exists_inserted_iff {before after : Bytes}
    : (∃ inserted, before ++ (inserted ++ after) = filename)
        ↔
      before.length + after.length ≤ filename.length ∧ before <+: filename
        ∧ filename.drop (filename.length - after.length) = after := by
  constructor
  . rintro ⟨inserted, rfl⟩
    refine ⟨by simp, List.prefix_append _ _, ?_⟩
    rw [← List.append_assoc]
    have hlength : (before ++ inserted ++ after).length - after.length = (before ++ inserted).length := by
      rw [List.length_append, Nat.add_sub_cancel]
    rw [hlength, List.drop_left]
  . rintro ⟨hlength, ⟨rest, rfl⟩, hdrop⟩
    have hsuffix : after <:+ before ++ rest := hdrop ▸ List.drop_suffix _ _
    obtain ⟨inserted, rfl⟩ : after <:+ rest :=
      List.suffix_of_suffix_length_le hsuffix (List.suffix_append _ _) (by simpa using hlength)
    exact ⟨inserted, rfl⟩

/--
The file name is the pattern with a string put in for its first star.
-/
def FillsFirst (filename pattern : Bytes) : Prop :=
  ∃ before after, (star ∉ before ∧ pattern = before ++ star :: after)
    ∧ ∃ inserted, before ++ (inserted ++ after) = filename

theorem matchesPattern_eq_true_iff
    : matchesPattern filename pattern = true ↔ pattern = filename ∨ FillsFirst filename pattern := by
  unfold matchesPattern
  by_cases h : pattern = bytes "*" ∨ pattern = filename
  . rw [if_pos (by simpa using h)]
    refine iff_of_true rfl (h.symm.imp_right ?_)
    rintro rfl
    exact ⟨[], [], ⟨by simp, rfl⟩, filename, by simp⟩
  . rw [if_neg (by simpa using h)]
    rw [or_iff_right (not_or.mp h).2]
    cases hcut : Bytes.cut star pattern with
    | none =>
      have hstar : star ∉ pattern := by
        intro hmem
        rw [Bytes.cut, if_pos hmem] at hcut
        contradiction
      refine iff_of_false (by simp [show Bytes.cut 42 pattern = none from hcut]) ?_
      rintro ⟨before, after, ⟨-, rfl⟩, -⟩
      simp at hstar
    | some parts =>
      obtain ⟨before, after⟩ := parts
      -- only the first star is cut at: later ones are matched as themselves
      have hfirst : FillsFirst filename pattern ↔ ∃ inserted, before ++ (inserted ++ after) = filename := by
        constructor
        . rintro ⟨before', after', hparts, h⟩
          rw [Bytes.cut_eq_some_iff.mpr hparts] at hcut
          obtain ⟨rfl, rfl⟩ := Prod.mk.inj (Option.some.inj hcut)
          exact h
        . exact fun h => ⟨before, after, Bytes.cut_eq_some_iff.mp hcut, h⟩
      rw [hfirst, exists_inserted_iff, show Bytes.cut 42 pattern = some (before, after) from hcut]
      simp only
      split
      . next hlength => simp [Nat.not_le.mpr hlength]
      . next hlength => simp [Nat.not_lt.mp hlength, Bytes.startsWith_iff]

theorem mem_language_of_matchesPattern (h : matchesPattern filename pattern = true)
    : filename ∈ language star pattern := by
  rcases matchesPattern_eq_true_iff.mp h with rfl | ⟨before, after, ⟨hbefore, rfl⟩, inserted, rfl⟩
  . exact self_mem_language star pattern
  . exact (mem_language_append_star hbefore).mpr ⟨inserted, after, self_mem_language star after, rfl⟩

theorem fillsFirst_of_mem_language (hcount : pattern.count star ≤ 1) (h : filename ∈ language star pattern)
    : pattern = filename ∨ FillsFirst filename pattern := by
  by_cases hstar : star ∈ pattern
  . obtain ⟨before, after, rfl, hbefore⟩ := List.eq_append_cons_of_mem hstar
    have hafter : star ∉ after := by
      rw [← List.count_eq_zero]
      rw [List.count_append, List.count_cons_self] at hcount
      omega
    obtain ⟨inserted, y, hy, rfl⟩ := (mem_language_append_star hbefore).mp h
    obtain rfl := (mem_language_of_notMem hafter).mp hy
    exact .inr ⟨before, y, ⟨hbefore, rfl⟩, inserted, rfl⟩
  . exact .inl ((mem_language_of_notMem hstar).mp h).symm

/--
If there are two stars in a pattern, the file name without any is missed.
-/
theorem not_fillsFirst_filter (hcount : 1 < pattern.count star)
    : ¬(pattern = pattern.filter (· ≠ star) ∨ FillsFirst (pattern.filter (· ≠ star)) pattern) := by
  have hfilter : star ∉ pattern.filter (· ≠ star) := by simp
  rintro (h | ⟨before, after, ⟨hbefore, hpattern⟩, inserted, h⟩)
  . rw [← h, ← List.count_eq_zero] at hfilter
    omega
  . rw [← h] at hfilter
    rw [hpattern, List.count_append, List.count_cons_self, List.count_eq_zero.mpr hbefore] at hcount
    have hafter : star ∈ after := List.count_pos_iff.mp (by omega)
    exact hfilter (by simp [hafter])

/--
A pattern matches the right file names if and only if there is at most one star in it. It never matches a wrong one,
and it misses the file names that take more than a string for the first star.
-/
theorem matchesPattern_iff_mem_language (pattern : Bytes)
    : ((∀ filename, matchesPattern filename pattern = true ↔ filename ∈ language star pattern)
          ↔
        pattern.count star ≤ 1)
        ∧ ∀ filename,
          (matchesPattern filename pattern = true ↔ filename ∈ language star pattern)
            ↔
          (filename ∈ language star pattern → pattern.count star ≤ 1 ∨ FillsFirst filename pattern) := by
  have hone : ∀ filename,
      (matchesPattern filename pattern = true ↔ filename ∈ language star pattern)
        ↔
      (filename ∈ language star pattern → pattern.count star ≤ 1 ∨ FillsFirst filename pattern) := by
    intro filename
    constructor
    . intro h hmem
      rcases matchesPattern_eq_true_iff.mp (h.mpr hmem) with rfl | hfirst
      . by_cases hstar : star ∈ pattern
        . obtain ⟨before, after, hpattern, hbefore⟩ := List.eq_append_cons_of_mem hstar
          exact .inr ⟨before, after, ⟨hbefore, hpattern⟩, [star], hpattern.symm⟩
        . rw [List.count_eq_zero.mpr hstar]
          exact .inl (Nat.zero_le _)
      . exact .inr hfirst
    . intro h
      refine ⟨mem_language_of_matchesPattern, fun hmem => matchesPattern_eq_true_iff.mpr ?_⟩
      rcases h hmem with hcount | hfirst
      . exact fillsFirst_of_mem_language hcount hmem
      . exact .inr hfirst
  refine ⟨⟨fun h => ?_, fun hcount filename => (hone filename).mpr fun _ => .inl hcount⟩, hone⟩
  by_contra hcount
  exact not_fillsFirst_filter (Nat.not_le.mp hcount)
    (matchesPattern_eq_true_iff.mp ((h _).mpr (filter_mem_language star pattern)))

/--
A pattern with two stars misses a file below the directory it names.
-/
theorem not_matchesPattern_iff_single
    : bytes "a/temp/b" ∈ language star (bytes "*/temp/*")
        ∧ matchesPattern (bytes "a/temp/b") (bytes "*/temp/*") = false := by
  refine ⟨mem_language_star_cons.mpr ⟨bytes "a", bytes "/temp/b", ?_, by decide⟩, by decide⟩
  refine mem_language_append.mpr ⟨bytes "/temp/", self_mem_language _ _, bytes "b", ?_, by decide⟩
  exact mem_language_star_cons.mpr ⟨bytes "b", [], self_mem_language _ _, by decide⟩

end ModuleConfig
end SimpleRsyncd
