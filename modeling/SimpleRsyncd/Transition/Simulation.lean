import SimpleRsyncd.Transition.Basic

/-!
This module contains simulations: a system is simulated by another one if each of its steps is matched by
a run of the other one. Then each of its runs is.
-/

namespace SimpleRsyncd
namespace Transition

variable {σ τ α β : Type} {step : Transition σ α} {step' : Transition τ β}

theorem Run.append {init s s' : σ} {as bs : List α} (h : Run step init as s) (h' : Run step s bs s')
    : Run step init (as ++ bs) s' := by
  induction h' with
  | nil => simpa using h
  | snoc _ hlast ih =>
    rw [← List.append_assoc]
    exact .snoc ih hlast

/--
From related states every step is matched by a run in which the same can be seen, and what it leads to is
related again.
-/
def Simulates {ε : Type} (step : Transition σ α) (step' : Transition τ β) (seen : α → List ε) (seen' : β → List ε)
    (R : σ → τ → Prop) : Prop :=
  ∀ s a s' t, R s t → step s a s' → ∃ bs t', Run step' t bs t' ∧ R s' t' ∧ bs.flatMap seen' = seen a

theorem Simulates.run {ε : Type} {seen : α → List ε} {seen' : β → List ε} {R : σ → τ → Prop}
    (h : Simulates step step' seen seen' R) {s s' : σ} {t : τ} {as : List α} (hR : R s t) (hrun : Run step s as s')
    : ∃ bs t', Run step' t bs t' ∧ R s' t' ∧ bs.flatMap seen' = as.flatMap seen := by
  induction hrun with
  | nil => exact ⟨[], t, .nil, hR, rfl⟩
  | snoc _ hstep ih =>
    obtain ⟨bs, u, hbefore, hRu, hseen⟩ := ih
    obtain ⟨bs', t', hlast, hR', hseen'⟩ := h _ _ _ _ hRu hstep
    exact ⟨bs ++ bs', t', hbefore.append hlast, hR', by simp [hseen, hseen']⟩

/--
A run whose actions are all allowed is a run of the restricted system.
-/
theorem Run.restrict {init s : σ} {as : List α} {allowed : α → Prop} (h : Run step init as s)
    (hallowed : ∀ a ∈ as, allowed a)
    : Run (step.restrict fun _ a => allowed a) init as s := by
  induction h with
  | nil => exact .nil
  | snoc _ hlast ih =>
    refine .snoc (ih fun a ha => hallowed a (List.mem_append_left _ ha)) ⟨hallowed _ ?_, hlast⟩
    exact List.mem_append_right _ (List.mem_singleton_self _)

end Transition
end SimpleRsyncd
