import Mathlib.Tactic.IntervalCases
import SimpleRsyncd.Bytes.Text

/-!
This module contains what a decimal number looks like and that it can be read back: from the number
itself, and from a text that goes on with something that is no digit.
-/

namespace SimpleRsyncd
namespace Bytes

theorem ofNat_eq_map (n : Nat) : ofNat n = (Nat.toDigits 10 n).map fun c => UInt8.ofNat c.toNat := by
  simp [ofNat, bytes, Nat.toList_repr]

theorem range_of_isDigit {c : Char} (h : c.isDigit = true)
    : (48 ≤ UInt8.ofNat c.toNat ∧ UInt8.ofNat c.toNat ≤ 57)
        ∧ (UInt8.ofNat c.toNat - 48).toNat = c.toNat - 48 := by
  have hrange : 48 ≤ c.toNat ∧ c.toNat ≤ 57 := by
    simpa [Char.isDigit, UInt32.le_iff_toNat_le] using h
  obtain ⟨hlow, hhigh⟩ := hrange
  generalize c.toNat = n at hlow hhigh ⊢
  interval_cases n <;> decide

theorem range_of_mem_ofNat {n : Nat} {c : UInt8} (h : c ∈ ofNat n) : 48 ≤ c ∧ c ≤ 57 := by
  rw [ofNat_eq_map, List.mem_map] at h
  obtain ⟨d, hd, rfl⟩ := h
  exact (range_of_isDigit (Nat.isDigit_of_mem_toDigits (by decide) (by decide) hd)).1

theorem foldl_digits {l : List Char} (h : ∀ c ∈ l, c.isDigit = true) (n : Nat)
    : (l.map fun c => UInt8.ofNat c.toNat).foldl (fun n c => 10 * n + (c - 48).toNat) n
      = Nat.ofDigitChars 10 l n := by
  induction l generalizing n with
  | nil => simp
  | cons c l ih =>
    rw [List.map_cons, List.foldl_cons, Nat.ofDigitChars_cons, ih fun d hd => h d (List.mem_cons_of_mem _ hd),
      (range_of_isDigit (h c List.mem_cons_self)).2]
    rfl

theorem foldl_ofNat (n : Nat) : (ofNat n).foldl (fun n c => 10 * n + (c - 48).toNat) 0 = n := by
  rw [ofNat_eq_map, foldl_digits fun c => Nat.isDigit_of_mem_toDigits (by decide) (by decide)]
  exact Nat.ofDigitChars_toDigits (by decide) (by decide)

theorem ofNat_injective : Function.Injective ofNat := by
  intro n m h
  rw [← foldl_ofNat n, h, foldl_ofNat]

theorem ofNat_ne_nil (n : Nat) : ofNat n ≠ [] := by
  simp [ofNat_eq_map]

/--
What comes before the first separator and what comes after it.
-/
theorem append_cons_inj {c : UInt8} {a b s t : Bytes} (ha : c ∉ a) (hb : c ∉ b)
    (h : a ++ c :: s = b ++ c :: t)
    : a = b ∧ s = t := by
  have hcut := congrArg (cut c) h
  rw [cut_append ha, cut_append hb] at hcut
  exact Prod.mk.inj (Option.some.inj hcut)

/--
A number ends where its digits end.
-/
theorem ofNat_append_inj {c : UInt8} (hc : ¬(48 ≤ c ∧ c ≤ 57)) {n m : Nat} {s t : Bytes}
    (h : ofNat n ++ c :: s = ofNat m ++ c :: t)
    : n = m ∧ s = t := by
  have hnot : ∀ n, c ∉ ofNat n := fun n hmem => hc (range_of_mem_ofNat hmem)
  obtain ⟨hnumber, hrest⟩ := append_cons_inj (hnot n) (hnot m) h
  exact ⟨ofNat_injective hnumber, hrest⟩

/--
A number at the end begins after the last separator.
-/
theorem append_cons_ofNat_inj {c : UInt8} (hc : ¬(48 ≤ c ∧ c ≤ 57)) {n m : Nat} {a b : Bytes}
    (h : a ++ c :: ofNat n = b ++ c :: ofNat m)
    : a = b ∧ n = m := by
  have hnot : ∀ n, c ∉ (ofNat n).reverse := fun n hmem => hc (range_of_mem_ofNat (List.mem_reverse.mp hmem))
  have hreverse : (ofNat n).reverse ++ c :: a.reverse = (ofNat m).reverse ++ c :: b.reverse := by
    simpa using congrArg List.reverse h
  obtain ⟨hnumber, hbefore⟩ := append_cons_inj (hnot n) (hnot m) hreverse
  exact ⟨List.reverse_injective hbefore, ofNat_injective (List.reverse_injective hnumber)⟩

end Bytes
end SimpleRsyncd
