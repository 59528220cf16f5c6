import SimpleRsyncd.Transition.Basic

/-!
This module contains the excursions of a transition system from its states of rest. Every run from a state of
rest is a run of complete excursions, followed by one that has not come back yet.
-/

namespace SimpleRsyncd

universe u v

namespace Transition

variable {σ : Type u} {α : Type v}

/--
A run that has left a state of rest and has not come to rest again.
-/
inductive Away (step : Transition σ α) (rest : σ → Prop) (s : σ) : List α → σ → Prop where
  | leave {a : α} {t : σ} : rest s → step s a t → ¬rest t → Away step rest s [a] t
  | stay {as : List α} {a : α} {t t' : σ} : Away step rest s as t → step t a t' → ¬rest t'
    → Away step rest s (as ++ [a]) t'

/--
A run from a state of rest to the next one.
-/
inductive Excursion (step : Transition σ α) (rest : σ → Prop) (s : σ) : List α → σ → Prop where
  | once {a : α} {t : σ} : rest s → step s a t → rest t → Excursion step rest s [a] t
  | back {as : List α} {a : α} {t t' : σ} : Away step rest s as t → step t a t' → rest t'
    → Excursion step rest s (as ++ [a]) t'

variable {step : Transition σ α} {rest : σ → Prop} {s s' : σ} {as : List α}

theorem Away.run (h : Away step rest s as s') : Run step s as s' := by
  induction h with
  | leave _ hstep => exact .single hstep
  | stay _ hstep _ ih => exact .snoc ih hstep

theorem Excursion.run (h : Excursion step rest s as s') : Run step s as s' := by
  cases h with
  | once _ hstep => exact .single hstep
  | back haway hstep => exact .snoc haway.run hstep

end Transition
end SimpleRsyncd
