import Mathlib.Order.WellFounded
import SimpleRsyncd.Transition.Basic

/-!
This module contains infinite executions. There are none where every step makes a measure smaller. In those in
which every thread makes a step again and again, what is owed happens if there is always a thread whose steps
bring it closer while the steps of the others take it no further away.
-/

namespace SimpleRsyncd

structure Execution {σ α : Type} (step : Transition σ α) where
  state : Nat → σ
  action : Nat → α
  next : ∀ t, step (state t) (action t) (state (t + 1))

namespace Execution

variable {σ α ι ρ : Type} {step : Transition σ α} (e : Execution step) {t : Nat}

theorem invariant {I : σ → Prop} (hinit : I (e.state 0)) (hstep : ∀ s a s', I s → step s a s' → I s') (t : Nat)
    : I (e.state t) := by
  induction t with
  | zero => exact hinit
  | succ t ih => exact hstep _ _ _ ih (e.next t)

/--
Every thread makes a step again and again.
-/
def Fair (owner : ι → α → Prop) : Prop :=
  ∀ i t, ∃ t', t ≤ t' ∧ owner i (e.action t')

/--
`owed r i s` means that in state `s` thread `i` can bring the goal closer, and `r` tells how far away it is. A step
reaches the goal, or comes closer to it, or it is one of another thread and nothing is lost.
-/
def Helps (step : Transition σ α) (owner : ι → α → Prop) (goal : σ → α → Prop) (lt : ρ → ρ → Prop)
    (owed : ρ → ι → σ → Prop) : Prop :=
  ∀ r i s a s', owed r i s → step s a s' →
    goal s a ∨ (∃ r' i', lt r' r ∧ owed r' i' s') ∨ ¬owner i a ∧ owed r i s'

/--
An execution that goes round in a circle.
-/
def cycle {length : Nat} (state : Nat → σ) (action : Nat → α) (hlength : 0 < length)
    (hclosed : state length = state 0) (hnext : ∀ k < length, step (state k) (action k) (state (k + 1)))
    : Execution step where
  state t := state (t % length)
  action t := action (t % length)
  next t := by
    have hlt := Nat.mod_lt t hlength
    have hstep := hnext (t % length) hlt
    have hstate : state (t % length + 1) = state ((t + 1) % length) := by
      rw [← Nat.mod_add_mod]
      by_cases hlast : t % length + 1 = length
      . rw [hlast, hclosed, Nat.mod_self]
      . rw [Nat.mod_eq_of_lt (Nat.lt_of_le_of_ne hlt hlast)]
    rwa [hstate] at hstep

variable {e}

theorem fair_cycle {owner : ι → α → Prop} {length : Nat} {state : Nat → σ} {action : Nat → α} {hlength : 0 < length}
    {hclosed : state length = state 0} {hnext : ∀ k < length, step (state k) (action k) (state (k + 1))}
    (howner : ∀ i, ∃ k < length, owner i (action k))
    : (cycle state action hlength hclosed hnext).Fair owner := by
  intro i t
  obtain ⟨k, hk, howner⟩ := howner i
  refine ⟨length * t + k, ?_, ?_⟩
  . have := Nat.le_mul_of_pos_left t hlength
    omega
  . change owner i (action ((length * t + k) % length))
    rwa [Nat.mul_add_mod, Nat.mod_eq_of_lt hk]

theorem Fair.eventually {owner : ι → α → Prop} {goal : σ → α → Prop} {lt : ρ → ρ → Prop} {owed : ρ → ι → σ → Prop}
    (hfair : e.Fair owner) (hwf : WellFounded lt) (hhelps : Helps step owner goal lt owed) {r : ρ} {i : ι}
    (howed : owed r i (e.state t))
    : ∃ t', t ≤ t' ∧ goal (e.state t') (e.action t') := by
  induction r using hwf.induction generalizing i t with
  | _ r ih =>
    obtain ⟨u, hu, howner⟩ := hfair i t
    -- until the thread itself makes its step nothing is lost
    obtain ⟨d, rfl⟩ := Nat.exists_eq_add_of_le hu
    induction d generalizing t with
    | zero =>
      rcases hhelps r i _ _ _ howed (e.next t) with hgoal | ⟨r', i', hlt, hcloser⟩ | ⟨hother, -⟩
      . exact ⟨t, Nat.le_refl t, hgoal⟩
      . obtain ⟨t', ht', hgoal⟩ := ih r' hlt hcloser
        exact ⟨t', Nat.le_of_succ_le ht', hgoal⟩
      . exact absurd howner hother
    | succ d ihd =>
      rcases hhelps r i _ _ _ howed (e.next t) with hgoal | ⟨r', i', hlt, hcloser⟩ | ⟨-, hstill⟩
      . exact ⟨t, Nat.le_refl t, hgoal⟩
      . obtain ⟨t', ht', hgoal⟩ := ih r' hlt hcloser
        exact ⟨t', Nat.le_of_succ_le ht', hgoal⟩
      . have hlater : t + (d + 1) = t + 1 + d := by omega
        rw [hlater] at howner
        obtain ⟨t', ht', hgoal⟩ := ihd hstill (by omega) howner
        exact ⟨t', Nat.le_of_succ_le ht', hgoal⟩

end Execution
end SimpleRsyncd
