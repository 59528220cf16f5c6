import SimpleRsyncd.Transition.Basic

/-!
This module contains a growing number of components that work on something they share, one step of one
component at a time. What is shown about a single component carries over to all of them: a property that
its own steps keep has to be stable under what the others guarantee to do at most.
-/

namespace SimpleRsyncd

structure Shared (σ γ : Type) where
  components : List σ
  shared : γ

inductive SharedAction (σ α : Type) where
  /-- A new component comes last. -/
  | join (c : σ)
  | act (k : Nat) (a : α)

namespace Shared

variable {σ γ α : Type}

/--
The components that may join, and what one component does to itself and to what is shared.
-/
inductive Step (joins : σ → Prop) (own : Transition (σ × γ) α)
    : Shared σ γ → SharedAction σ α → Shared σ γ → Prop where
  | join {t : Shared σ γ} {c : σ} : joins c → Step joins own t (.join c) ⟨t.components ++ [c], t.shared⟩
  | act {t : Shared σ γ} {k : Nat} {a : α} {c c' : σ} {g' : γ} : t.components[k]? = some c
    → own (c, t.shared) a (c', g') → Step joins own t (.act k a) ⟨t.components.set k c', g'⟩

abbrev step (joins : σ → Prop) (own : Transition (σ × γ) α) : Transition (Shared σ γ) (SharedAction σ α) :=
  Step joins own

variable {joins : σ → Prop} {own : Transition (σ × γ) α} {init t : Shared σ γ} {actions : List (SharedAction σ α)}

/--
What every component that joins has, its own steps keep and the steps of the others cannot break.
-/
structure Stable (joins : σ → Prop) (own : Transition (σ × γ) α) (I : σ → γ → Prop) (guarantee : γ → γ → Prop)
    : Prop where
  ofJoins : ∀ c g, joins c → I c g
  ofOwn : ∀ c g a c' g', I c g → own (c, g) a (c', g') → I c' g'
  guarantees : ∀ c g a c' g', I c g → own (c, g) a (c', g') → guarantee g g'
  ofOthers : ∀ c g g', I c g → guarantee g g' → I c g'

/--
A property of the component alone, which the others cannot break.
-/
theorem Stable.of_local {I : σ → Prop} (hjoins : ∀ c, joins c → I c)
    (hown : ∀ c g a c' g', I c → own (c, g) a (c', g') → I c')
    : Stable joins own (fun c _ => I c) (fun _ _ => True) where
  ofJoins c _ := hjoins c
  ofOwn := hown
  guarantees _ _ _ _ _ _ _ := trivial
  ofOthers _ _ _ h _ := h

theorem Stable.run {I : σ → γ → Prop} {guarantee : γ → γ → Prop} (h : Stable joins own I guarantee)
    (hinit : ∀ c ∈ init.components, I c init.shared) (hrun : (step joins own).Run init actions t)
    : ∀ c ∈ t.components, I c t.shared := by
  refine hrun.invariant (I := fun t => ∀ c ∈ t.components, I c t.shared) hinit ?_
  rintro t action t' hall hstep c hc
  cases hstep with
  | join hjoins =>
    rcases List.mem_append.mp hc with hc | hc
    . exact hall c hc
    . obtain rfl := List.mem_singleton.mp hc
      exact h.ofJoins _ _ hjoins
  | act hk hown =>
    have hactor := hall _ (List.mem_of_getElem? hk)
    rcases List.mem_or_eq_of_mem_set hc with hc | rfl
    . exact h.ofOthers c _ _ (hall c hc) (h.guarantees _ _ _ _ _ hactor hown)
    . exact h.ofOwn _ _ _ _ _ hactor hown

/--
What component number `k` has counted so far.
-/
def counter (count : σ → Nat) (t : Shared σ γ) (k : Nat) : Nat :=
  (t.components[k]?).elim 0 count

/--
If whatever a component does to what is shared is of one kind unless the component counts it, so is what all of
them do while nothing is counted.
-/
theorem run_of_counter {I : σ → Prop} {count : σ → Nat} {R : γ → γ → Prop}
    (hI : Stable joins own (fun c _ => I c) fun _ _ => True) (hrefl : ∀ g, R g g)
    (htrans : ∀ {g g' g''}, R g g' → R g' g'' → R g g'')
    (hown : ∀ c g a c' g', I c → own (c, g) a (c', g') → count c ≤ count c' ∧ (count c' = count c → R g g'))
    (hinit : ∀ c ∈ init.components, I c) (hrun : (step joins own).Run init actions t)
    : (∀ k, counter count init k ≤ counter count t k)
        ∧ ((∀ k, counter count t k = counter count init k) → R init.shared t.shared) := by
  induction hrun with
  | nil => exact ⟨fun _ => Nat.le_refl _, fun _ => hrefl _⟩
  | @snoc _ _ u _ hbefore hlast ih =>
    have hall := hI.run hinit hbefore
    obtain ⟨hle, hR⟩ := ih
    cases hlast with
    | @join c _ =>
      have hmono : ∀ k, counter count u k ≤ counter count ⟨u.components ++ [c], u.shared⟩ k := by
        intro k
        unfold counter
        by_cases hk : k < u.components.length
        . simp [List.getElem?_append_left hk]
        . simp [List.getElem?_eq_none (by omega : u.components.length ≤ k)]
      refine ⟨fun k => Nat.le_trans (hle k) (hmono k), fun hsame => hR fun k => ?_⟩
      exact Nat.le_antisymm (hsame k ▸ hmono k) (hle k)
    | @act k a c c' g' hk hstep =>
      have hlt : k < u.components.length := (List.getElem?_eq_some_iff.mp hk).1
      obtain ⟨hcount, hkind⟩ := hown _ _ _ _ _ (hall _ (List.mem_of_getElem? hk)) hstep
      have hbefore : counter count u k = count c := by simp [counter, hk]
      have hnow : counter count ⟨u.components.set k c', g'⟩ k = count c' := by simp [counter, hlt]
      have hmono : ∀ j, counter count u j ≤ counter count ⟨u.components.set k c', g'⟩ j := by
        intro j
        by_cases hj : k = j
        . subst hj
          rwa [hbefore, hnow]
        . simp [counter, List.getElem?_set_ne hj]
      refine ⟨fun j => Nat.le_trans (hle j) (hmono j), fun hsame => ?_⟩
      refine htrans (hR fun j => Nat.le_antisymm (hsame j ▸ hmono j) (hle j)) (hkind ?_)
      -- the one that moves has counted nothing either
      have hmover := hsame k
      rw [hnow] at hmover
      have hinit := hle k
      omega

end Shared
end SimpleRsyncd
