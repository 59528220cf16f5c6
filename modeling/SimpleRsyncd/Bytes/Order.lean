import SimpleRsyncd.Bytes.Basic
import SimpleRsyncd.Container.OrderedMap

/-!
This module contains the order of `std::string`, the one a `std::map` with string keys iterates in.
-/

namespace SimpleRsyncd
namespace Bytes

/--
`a < b`: byte by byte, a proper prefix comes first.
-/
def lt : Bytes → Bytes → Bool
  | _, [] => false
  | [], _ :: _ => true
  | a :: as, b :: bs => decide (a < b) || (a == b && lt as bs)

theorem lt_irrefl (a : Bytes) : lt a a = false := by
  induction a with
  | nil => rfl
  | cons c a ih => simp [lt, ih]

theorem lt_trans {a b c : Bytes} (hab : lt a b = true) (hbc : lt b c = true) : lt a c = true := by
  induction a generalizing b c with
  | nil =>
    cases b with
    | nil => simp [lt] at hab
    | cons y b => cases c <;> simp [lt] at hbc ⊢
  | cons x a ih =>
    cases b with
    | nil => simp [lt] at hab
    | cons y b =>
      cases c with
      | nil => simp [lt] at hbc
      | cons z c =>
        simp only [lt, Bool.or_eq_true, decide_eq_true_eq, Bool.and_eq_true, beq_iff_eq] at hab hbc ⊢
        rcases hab with hxy | ⟨rfl, hab⟩
        . rcases hbc with hyz | ⟨rfl, -⟩
          . exact .inl (UInt8.lt_trans hxy hyz)
          . exact .inl hxy
        . rcases hbc with hyz | ⟨rfl, hbc⟩
          . exact .inl hyz
          . exact .inr ⟨rfl, ih hab hbc⟩

theorem lt_total {a b : Bytes} (h : a ≠ b) : lt a b = true ∨ lt b a = true := by
  induction a generalizing b with
  | nil =>
    cases b with
    | nil => exact absurd rfl h
    | cons y b => exact .inl rfl
  | cons x a ih =>
    cases b with
    | nil => exact .inr rfl
    | cons y b =>
      simp only [lt, Bool.or_eq_true, decide_eq_true_eq, Bool.and_eq_true, beq_iff_eq]
      by_cases hxy : x = y
      . subst hxy
        have hab : a ≠ b := by simpa using h
        rcases ih hab with hlt | hlt
        . exact .inl (.inr ⟨rfl, hlt⟩)
        . exact .inr (.inr ⟨rfl, hlt⟩)
      . rcases UInt8.lt_or_lt_of_ne hxy with hlt | hlt
        . exact .inl (.inl hlt)
        . exact .inr (.inl hlt)

instance : KeyOrder Bytes where
  less := lt
  less_irrefl := lt_irrefl
  less_trans := lt_trans
  less_total := lt_total

end Bytes
end SimpleRsyncd
