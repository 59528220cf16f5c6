import Mathlib.Algebra.BigOperators.Fin

/-!
This module contains what a fixed number of threads have in their hands together, and how a step of
one thread changes it.
-/

namespace SimpleRsyncd
namespace Threads

variable {n : Nat} {τ : Type} (amount : τ → Nat) (threads : Fin n → τ)

/--
The amount that all threads have together.
-/
def total : Nat := ∑ i, amount (threads i)

theorem total_eq_add_others (i : Fin n)
    : total amount threads = amount (threads i) + ∑ j ∈ Finset.univ.erase i, amount (threads j) :=
  (Finset.add_sum_erase _ _ (Finset.mem_univ i)).symm

/--
A step of one thread changes the total by as much as what this thread has.
-/
theorem total_eq_of_others {threads threads' : Fin n → τ} (i : Fin n)
    (h : ∀ j, j ≠ i → threads' j = threads j)
    : total amount threads' + amount (threads i) = total amount threads + amount (threads' i) := by
  have hothers : ∑ j ∈ Finset.univ.erase i, amount (threads' j)
      = ∑ j ∈ Finset.univ.erase i, amount (threads j) := by
    apply Finset.sum_congr rfl
    intro j hmem
    rw [h j (Finset.ne_of_mem_erase hmem)]
  rw [total_eq_add_others amount threads' i, total_eq_add_others amount threads i, hothers]
  omega

theorem total_update (i : Fin n) (t : τ)
    : total amount (Function.update threads i t) + amount (threads i) = total amount threads + amount t := by
  have := total_eq_of_others amount i fun j hne => Function.update_of_ne hne t threads
  rwa [Function.update_self] at this

theorem le_total (i : Fin n) : amount (threads i) ≤ total amount threads := by
  rw [total_eq_add_others amount threads i]
  omega

/--
Two threads have no more together than all of them.
-/
theorem add_le_total {i j : Fin n} (h : i ≠ j)
    : amount (threads i) + amount (threads j) ≤ total amount threads := by
  have hmem : j ∈ Finset.univ.erase i := Finset.mem_erase.mpr ⟨h.symm, Finset.mem_univ j⟩
  rw [total_eq_add_others amount threads i, ← Finset.add_sum_erase _ _ hmem]
  omega

theorem exists_of_total_pos (h : 0 < total amount threads) : ∃ i, 0 < amount (threads i) := by
  by_contra hnone
  simp only [not_exists, Nat.not_lt, Nat.le_zero] at hnone
  simp [total, hnone] at h

theorem total_eq_zero (h : ∀ i, amount (threads i) = 0) : total amount threads = 0 := by
  simp [total, h]

end Threads
end SimpleRsyncd
