import SimpleRsyncd.Container.Cell

/-!
This module contains rules for a computation that adds elements to the end of a list as it goes, and that may
throw on its way.
-/

namespace SimpleRsyncd
namespace Collector

variable {ε ω α β γ : Type}

/--
However it ends, all elements it has added are of this kind.
-/
def Only (P : ω → Prop) (x : ExceptT ε (StateM (List ω)) α) : Prop :=
  ∀ before, ∃ added, (StateT.run (ExceptT.run x) before).2 = before ++ added ∧ ∀ y ∈ added, P y

section only

variable {P : ω → Prop}

theorem only_pure (x : α) : Only P (pure x : ExceptT ε (StateM (List ω)) α) :=
  fun before => ⟨[], (List.append_nil before).symm, by simp⟩

theorem only_lift (x : Except ε α) : Only P (liftM x : ExceptT ε (StateM (List ω)) α) := by
  intro before
  refine ⟨[], ?_, by simp⟩
  rw [List.append_nil]
  cases x <;> rfl

theorem only_modify {added : List ω} (h : ∀ y ∈ added, P y)
    : Only P (modify (· ++ added) : ExceptT ε (StateM (List ω)) Unit) :=
  fun _ => ⟨added, rfl, h⟩

theorem Only.bind {x : ExceptT ε (StateM (List ω)) α} {f : α → ExceptT ε (StateM (List ω)) β} (hx : Only P x)
    (hf : ∀ r, Only P (f r))
    : Only P (x >>= f) := by
  intro before
  obtain ⟨added, hadded, hall⟩ := hx before
  rw [ExceptT.run_bind, StateT.run_bind]
  generalize StateT.run (ExceptT.run x) before = result at hadded ⊢
  obtain ⟨e | r, after⟩ := result
  . exact ⟨added, hadded, hall⟩
  . obtain ⟨added', hadded', hall'⟩ := hf r after
    refine ⟨added ++ added', ?_, ?_⟩
    . rw [← List.append_assoc, ← show after = before ++ added from hadded]
      exact hadded'
    . intro y hy
      exact (List.mem_append.mp hy).elim (hall y) (hall' y)

theorem only_ite {c : Prop} [Decidable c] {x y : ExceptT ε (StateM (List ω)) α} (hx : Only P x) (hy : Only P y)
    : Only P (if c then x else y) := by
  split
  . exact hx
  . exact hy

theorem only_forM {f : α → ExceptT ε (StateM (List ω)) Unit} (hf : ∀ r, Only P (f r)) (xs : List α)
    : Only P (xs.forM f) := by
  induction xs with
  | nil => exact only_pure ()
  | cons r xs ih => exact (hf r).bind fun _ => ih

end only

/--
If it returns, this is the last value that the elements it has added write.
-/
def Leaves (write : ω → Option γ) (v : Option γ) (x : ExceptT ε (StateM (List ω)) α) : Prop :=
  ∀ before r after, StateT.run (ExceptT.run x) before = (.ok r, after) →
    ∃ added, after = before ++ added ∧ Cell.last write added = v

section leaves

variable {write : ω → Option γ} {v v' : Option γ}

theorem Only.leaves {x : ExceptT ε (StateM (List ω)) α} (h : Only (write · = none) x) : Leaves write none x := by
  intro before r after hrun
  obtain ⟨added, hadded, hall⟩ := h before
  rw [hrun] at hadded
  exact ⟨added, hadded, Cell.last_eq_none_iff.mpr hall⟩

theorem leaves_modify (added : List ω)
    : Leaves write (Cell.last write added) (modify (· ++ added) : ExceptT ε (StateM (List ω)) Unit) := by
  intro before r after hrun
  exact ⟨added, (congrArg Prod.snd hrun).symm, rfl⟩

theorem Leaves.bind {x : ExceptT ε (StateM (List ω)) α} {f : α → ExceptT ε (StateM (List ω)) β}
    (hx : Leaves write v x) (hf : ∀ r, Leaves write v' (f r))
    : Leaves write (v'.or v) (x >>= f) := by
  intro before r after hrun
  rw [ExceptT.run_bind, StateT.run_bind] at hrun
  cases hfirst : StateT.run (ExceptT.run x) before with
  | mk result middle =>
    rw [hfirst] at hrun
    cases result with
    | error e =>
      have hrun : ((.error e, middle) : Except ε β × List ω) = (.ok r, after) := hrun
      simp at hrun
    | ok r' =>
      obtain ⟨added, rfl, hlast⟩ := hx before r' middle hfirst
      obtain ⟨added', rfl, hlast'⟩ := hf r' _ r after hrun
      exact ⟨added ++ added', List.append_assoc before added added', by rw [Cell.last_append, hlast, hlast']⟩

/--
A computation that only looks something up comes first.
-/
theorem leaves_lift {x : Except ε α} {r : α} {f : α → ExceptT ε (StateM (List ω)) β} (hx : x = .ok r)
    (hf : Leaves write v (f r))
    : Leaves write v ((liftM x : ExceptT ε (StateM (List ω)) α) >>= f) := by
  subst hx
  exact hf

theorem Leaves.last_eq {x : ExceptT ε (StateM (List ω)) α} (h : Leaves write v x) {r : α} {added : List ω}
    (hrun : StateT.run (ExceptT.run x) [] = (.ok r, added))
    : Cell.last write added = v := by
  obtain ⟨added', rfl, hlast⟩ := h [] r added hrun
  exact hlast

end leaves

end Collector
end SimpleRsyncd
