import Mathlib.Data.List.Basic

/-!
This module contains the transmission of a list in chunks: a reader takes a chunk off what is left
and a writer delivers some of it. What a short write does not deliver is lost.
-/

namespace SimpleRsyncd

variable {α : Type}

/--
What is left to read and what has been delivered.
-/
structure Transmission (α : Type) where
  rest : List α
  delivered : List α := []

namespace Transmission

/--
Read up to `n` elements and deliver the first `k` of them.
-/
def chunk (t : Transmission α) (n k : Nat) : Transmission α :=
  {
    rest := t.rest.drop n
    delivered := t.delivered ++ (t.rest.take n).take k
  }

/--
Nothing has been lost so far.
-/
def Lossless (content : List α) (t : Transmission α) : Prop :=
  t.delivered ++ t.rest = content

/--
Nothing has been lost, or too much for the lengths ever to add up.
-/
def Honest (content : List α) (t : Transmission α) : Prop :=
  t.Lossless content ∨ t.delivered.length + t.rest.length < content.length

variable {content : List α} {t : Transmission α} {n k : Nat}

theorem lossless_start : Lossless content { rest := content } := rfl

theorem Lossless.chunk (h : t.Lossless content) (hk : (t.rest.take n).length ≤ k)
    : (t.chunk n k).Lossless content := by
  simp only [Lossless, Transmission.chunk] at *
  rw [List.take_of_length_le hk, List.append_assoc, List.take_append_drop, h]

theorem Lossless.length (h : t.Lossless content)
    : t.delivered.length + t.rest.length = content.length := by
  simp only [Lossless] at h
  simp [← h]

theorem Honest.length_le (h : t.Honest content)
    : t.delivered.length + t.rest.length ≤ content.length := by
  cases h with
  | inl h =>
    have := h.length
    omega
  | inr h => omega

theorem Honest.chunk (h : t.Honest content) : (t.chunk n k).Honest content := by
  by_cases hk : (t.rest.take n).length ≤ k
  . cases h with
    | inl h => exact .inl (h.chunk hk)
    | inr h =>
      right
      simp only [Transmission.chunk, List.length_append, List.length_take, List.length_drop] at *
      omega
  . right
    have := h.length_le
    simp only [Transmission.chunk, List.length_append, List.length_take, List.length_drop] at *
    omega

/--
A transmission that has delivered as much as there is has delivered what there is.
-/
theorem Honest.eq_of_length (h : t.Honest content) (hlength : t.delivered.length = content.length)
    : t.delivered = content := by
  cases h with
  | inl h =>
    have hrest : t.rest = [] := by
      have := h.length
      rw [← List.length_eq_zero_iff]
      omega
    simpa [Lossless, hrest] using h
  | inr h => omega

theorem Lossless.delivered_isPrefix (h : t.Lossless content) : t.delivered <+: content :=
  ⟨t.rest, h⟩

end Transmission
end SimpleRsyncd
