import SimpleRsyncd.Transition.Basic

/-!
This module contains loops that can also be left from the middle of their body, together with the number
of iterations that they take. A quantity that every iteration makes smaller bounds this number, and a function
that runs the loop for a bounded number of iterations then computes its result.
-/

namespace SimpleRsyncd

/--
What a loop does in a state: its condition fails, or its body leaves the loop or goes on with another
state.
-/
inductive Turn (σ ρ : Type) where
  | exit (r : ρ)
  | leave (r : ρ)
  | next (s : σ)

abbrev Loop (σ ρ : Type) := σ → Turn σ ρ

namespace Loop

variable {σ ρ : Type}

/--
The loop ends with `r` once its body has been entered `n` times.
-/
inductive Ends (loop : Loop σ ρ) : σ → Nat → ρ → Prop where
  | exit {s : σ} {r : ρ} : loop s = .exit r → Ends loop s 0 r
  | leave {s : σ} {r : ρ} : loop s = .leave r → Ends loop s 1 r
  | next {s s' : σ} {n : Nat} {r : ρ} : loop s = .next s' → Ends loop s' n r → Ends loop s (n + 1) r

/--
The iterations that go on. The states of its runs are those in which the loop looks at its condition.
-/
def steps (loop : Loop σ ρ) : Transition σ Unit :=
  fun s _ s' => loop s = .next s'

variable {loop : Loop σ ρ} {s : σ}

/--
A quantity that the iterations make smaller. The body is not entered where nothing of it is left.
-/
structure Decreases (loop : Loop σ ρ) (measure : σ → Nat) : Prop where
  leave : ∀ s r, loop s = .leave r → 0 < measure s
  next : ∀ s s', loop s = .next s' → measure s' < measure s

/--
There are at most as many iterations as this quantity allows.
-/
theorem Decreases.exists_ends {measure : σ → Nat} (h : loop.Decreases measure) (s : σ)
    : ∃ n r, loop.Ends s n r ∧ n ≤ measure s := by
  induction hmeasure : measure s using Nat.strongRecOn generalizing s with
  | ind m ih =>
    subst hmeasure
    cases hturn : loop s with
    | exit r => exact ⟨0, r, .exit hturn, Nat.zero_le _⟩
    | leave r => exact ⟨1, r, .leave hturn, h.leave s r hturn⟩
    | next s' =>
      have hless := h.next s s' hturn
      obtain ⟨n, r, hends, hn⟩ := ih _ hless s' rfl
      exact ⟨n + 1, r, .next hturn hends, by omega⟩

/--
A function of the iterations that are left and a state follows the loop.
-/
structure Follows (loop : Loop σ ρ) (eval : Nat → σ → ρ) : Prop where
  zero : ∀ s r, loop s = .exit r → eval 0 s = r
  succ : ∀ left s, eval (left + 1) s
    = match loop s with
      | .exit r | .leave r => r
      | .next s' => eval left s'

theorem Follows.eval_eq {eval : Nat → σ → ρ} (h : loop.Follows eval) {n left : Nat} {r : ρ} (hends : loop.Ends s n r)
    (hleft : n ≤ left)
    : eval left s = r := by
  induction hends generalizing left with
  | exit hexit =>
    cases left with
    | zero => exact h.zero _ _ hexit
    | succ left => rw [h.succ, hexit]
  | leave hleave =>
    obtain ⟨left, rfl⟩ := Nat.exists_eq_add_of_le' hleft
    rw [h.succ, hleave]
  | next hnext _ ih =>
    obtain ⟨left, rfl⟩ := Nat.exists_eq_succ_of_ne_zero (Nat.ne_zero_of_lt hleft)
    rw [h.succ, hnext]
    exact ih (Nat.le_of_succ_le_succ hleft)

/--
A function that follows the loop for long enough has its result.
-/
theorem Follows.ends {eval : Nat → σ → ρ} (h : loop.Follows eval) {measure : σ → Nat} (hmeasure : loop.Decreases measure)
    (left : Nat) (hleft : measure s ≤ left)
    : ∃ n, loop.Ends s n (eval left s) ∧ n ≤ measure s := by
  obtain ⟨n, r, hends, hn⟩ := hmeasure.exists_ends s
  refine ⟨n, ?_, hn⟩
  rwa [h.eval_eq hends (Nat.le_trans hn hleft)]

end Loop
end SimpleRsyncd
