import Mathlib.Logic.Function.Basic
import Mathlib.Data.List.Basic

/-!
This module contains cells that hold an item or nothing, and the loop that makes room in the first of some
numbered cells: from the last one down, every item is moved to the next cell.
-/

namespace SimpleRsyncd
namespace Slots

variable {ι α : Type} [DecidableEq ι] {slot : Nat → ι} {cells : ι → Option α} {i j : ι}

/--
The item of one cell replaces the one of another, an empty cell replaces nothing.
-/
def move (cells : ι → Option α) (i j : ι) : ι → Option α :=
  if (cells i).isSome then Function.update (Function.update cells i none) j (cells i) else cells

theorem move_source (cells : ι → Option α) (h : i ≠ j) : move cells i j i = none := by
  unfold move
  split
  . simp [h]
  . simp_all

theorem move_target (cells : ι → Option α) (i j : ι) : move cells i j j = (cells i).or (cells j) := by
  unfold move
  cases cells i <;> simp

theorem move_other {k : ι} (hi : k ≠ i) (hj : k ≠ j) : move cells i j k = cells k := by
  unfold move
  split <;> simp [hi, hj]

/--
The moves from a slot to the next one, the last move is the one from the first slot.
-/
def shift (slot : Nat → ι) : Nat → (ι → Option α) → ι → Option α
  | 0, cells => cells
  | n + 1, cells => shift slot n (move cells (slot n) (slot (n + 1)))

theorem shift_other (h : ∀ k, i ≠ slot k) (n : Nat) (cells : ι → Option α) : shift slot n cells i = cells i := by
  induction n generalizing cells with
  | zero => rfl
  | succ n ih => rw [shift, ih, move_other (h n) (h (n + 1))]

/--
What the moves leave in the slots after the first one.
-/
theorem shift_slot_succ (hslot : Function.Injective slot) (n : Nat) (cells : ι → Option α) (k : Nat)
    : shift slot n cells (slot (k + 1))
        =
      if k + 1 < n then
        cells (slot k)
      else if k + 1 = n then
        (cells (slot k)).or (cells (slot (k + 1)))
      else
        cells (slot (k + 1)) := by
  induction n generalizing cells with
  | zero => rfl
  | succ n ih =>
    have hother : ∀ {k}, k ≠ n → k ≠ n + 1 → move cells (slot n) (slot (n + 1)) (slot k) = cells (slot k) :=
      fun hn hsucc => move_other (hslot.ne hn) (hslot.ne hsucc)
    rw [shift, ih]
    rcases Nat.lt_trichotomy k n with hlt | rfl | hgt
    . rw [if_pos (by omega : k + 1 < n + 1), hother (k := k) (by omega) (by omega)]
      by_cases hlast : k + 1 = n
      . subst hlast
        rw [if_neg (by omega), if_pos rfl, move_source _ (hslot.ne (by omega)), Option.or_none]
      . rw [if_pos (by omega)]
    . rw [if_neg (by omega), if_neg (by omega), if_neg (by omega), if_pos rfl, move_target]
    . rw [if_neg (by omega), if_neg (by omega), if_neg (by omega), if_neg (by omega),
        hother (by omega) (by omega)]

/--
Slots that hold a list hold it with one more item in front after the moves, as far as there is room.
-/
theorem update_shift (hslot : Function.Injective slot) (xs : List α) {n : Nat} (hlength : xs.length ≤ n + 1)
    (hcells : ∀ k, cells (slot k) = xs[k]?) (x : α) (k : Nat)
    : Function.update (shift slot n cells) (slot 0) (some x) (slot k) = ((x :: xs).take (n + 1))[k]? := by
  cases k with
  | zero => simp
  | succ k =>
    rw [Function.update_of_ne (hslot.ne (by omega)), shift_slot_succ hslot, List.take_succ_cons,
      List.getElem?_cons_succ, hcells, hcells]
    rcases Nat.lt_trichotomy (k + 1) n with hlt | heq | hgt
    . rw [if_pos hlt, List.getElem?_take_of_lt (by omega)]
    . rw [if_neg (by omega), if_pos heq, List.getElem?_take_of_lt (by omega)]
      cases hk : xs[k]? with
      | some y => rfl
      | none =>
        have hsucc : xs[k + 1]? = none := by
          rw [List.getElem?_eq_none_iff] at hk ⊢
          omega
        rw [hsucc]
        rfl
    . have hbeyond : xs[k + 1]? = none ∧ (xs.take n)[k]? = none := by
        simp only [List.getElem?_eq_none_iff, List.length_take]
        omega
      rw [if_neg (by omega), if_neg (by omega), hbeyond.1, hbeyond.2]

end Slots
end SimpleRsyncd
