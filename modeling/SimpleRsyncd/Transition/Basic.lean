import Mathlib.Data.List.Induction

/-!
This module contains labelled transition systems: their runs, the induction that carries an
invariant along a run, and systems restricted to the steps that meet a condition. A system that
records what it does comes with properties of every element of its trace.
-/

namespace SimpleRsyncd

universe u v

/--
`step s a s'` means that action `a` can lead from `s` to `s'`.
-/
abbrev Transition (σ : Type u) (α : Type v) := σ → α → σ → Prop

namespace Transition

variable {σ : Type u} {α : Type v}

/--
The finite runs of a transition system, together with the actions taken.
-/
inductive Run (step : Transition σ α) (init : σ) : List α → σ → Prop where
  | nil : Run step init [] init
  | snoc {as : List α} {a : α} {s s' : σ} : Run step init as s → step s a s'
    → Run step init (as ++ [a]) s'

/--
The system in which every step has to meet a condition on the state before it and its action.
-/
def restrict (step : Transition σ α) (allowed : σ → α → Prop) : Transition σ α :=
  fun s a s' => allowed s a ∧ step s a s'

/--
The system in which an action determines the next state.
-/
def ofFun (f : α → σ → σ) : Transition σ α :=
  fun s a s' => f a s = s'

variable {step : Transition σ α} {init s : σ} {as : List α}

/--
What holds initially and is preserved by every step holds after every run.
-/
theorem Run.invariant {I : σ → Prop} (h : Run step init as s) (hinit : I init)
    (hstep : ∀ s a s', I s → step s a s' → I s')
    : I s := by
  induction h with
  | nil => exact hinit
  | snoc _ h ih => exact hstep _ _ _ ih h

theorem Run.single {a : α} (h : step init a s) : Run step init [a] s :=
  .snoc .nil h

theorem Run.cons {a : α} {s' : σ} (h : step init a s) (hrun : Run step s as s') : Run step init (a :: as) s' := by
  induction hrun with
  | nil => exact .single h
  | snoc _ hstep ih => exact .snoc ih hstep

theorem run_nil_iff : Run step init [] s ↔ s = init := by
  constructor
  . intro h
    generalize has : ([] : List α) = as at h
    cases h with
    | nil => rfl
    | snoc => simp at has
  . rintro rfl
    exact .nil

theorem run_cons_iff {a : α} {s' : σ} : Run step init (a :: as) s' ↔ ∃ s, step init a s ∧ Run step s as s' := by
  constructor
  . intro h
    generalize has : a :: as = as' at h
    induction h generalizing as with
    | nil => simp at has
    | @snoc bs b t t' hrun hstep ih =>
      cases bs with
      | nil =>
        obtain ⟨rfl, rfl⟩ : a = b ∧ as = [] := by simpa using has
        rw [run_nil_iff] at hrun
        subst hrun
        exact ⟨t', hstep, .nil⟩
      | cons c bs =>
        obtain ⟨rfl, rfl⟩ : a = c ∧ as = bs ++ [b] := by simpa using has
        obtain ⟨s, hs, hrest⟩ := ih rfl
        exact ⟨s, hs, .snoc hrest hstep⟩
  . rintro ⟨s, hs, hrun⟩
    exact .cons hs hrun

/--
A run of some actions and then some more stops in between.
-/
theorem Run.of_append {bs : List α} {s' : σ} (h : Run step init (as ++ bs) s')
    : ∃ s, Run step init as s ∧ Run step s bs s' := by
  induction as generalizing init with
  | nil => exact ⟨init, .nil, h⟩
  | cons a as ih =>
    rw [List.cons_append, run_cons_iff] at h
    obtain ⟨t, hstep, hrun⟩ := h
    obtain ⟨s, hs, hrest⟩ := ih hrun
    exact ⟨s, .cons hstep hs, hrest⟩

/--
If an action leads to at most one state, so do the actions of a run.
-/
theorem Run.unique {s' : σ} (h : Run step init as s) (h' : Run step init as s')
    (hunique : ∀ s a t t', step s a t → step s a t' → t = t')
    : s = s' := by
  induction as generalizing init with
  | nil => rw [run_nil_iff.mp h, run_nil_iff.mp h']
  | cons a as ih =>
    obtain ⟨t, hstep, hrun⟩ := run_cons_iff.mp h
    obtain ⟨t', hstep', hrun'⟩ := run_cons_iff.mp h'
    obtain rfl := hunique _ _ _ _ hstep hstep'
    exact ih hrun hrun'

theorem Run.mono {step' : Transition σ α} (h : Run step init as s)
    (hstep : ∀ s a s', step s a s' → step' s a s')
    : Run step' init as s := by
  induction h with
  | nil => exact .nil
  | snoc _ h ih => exact .snoc ih (hstep _ _ _ h)

theorem Run.of_restrict {allowed : σ → α → Prop} (h : Run (step.restrict allowed) init as s)
    : Run step init as s :=
  h.mono fun _ _ _ h => h.2

/--
What holds at the end of a run and not at its beginning was brought about by one of its steps.
-/
theorem Run.origin {Q : σ → Prop} {R : σ → α → Prop} (h : Run step init as s) (hQ : Q s) (hinit : ¬Q init)
    (hstep : ∀ before s a s', Run step init before s → step s a s' → Q s' → Q s ∨ R s a)
    : ∃ before a after t, as = before ++ a :: after ∧ Run step init before t ∧ R t a := by
  induction h with
  | nil => exact absurd hQ hinit
  | @snoc as a t s' hrun hlast ih =>
    rcases hstep as t a s' hrun hlast hQ with hbefore | hnow
    . obtain ⟨before, b, after, u, rfl, hrun', hR⟩ := ih hbefore
      exact ⟨before, b, after ++ [a], u, by simp, hrun', hR⟩
    . exact ⟨as, a, [], t, rfl, hrun, hnow⟩

/--
A property of every state that a run of these actions passes through.
-/
def Always (step : Transition σ α) (init : σ) (P : σ → Prop) (as : List α) : Prop :=
  ∀ before s, before <+: as → Run step init before s → P s

/--
A property holds all along a run if and only if every step of it is allowed, provided that allowed steps
preserve an invariant which implies the property, and other steps break the property.
-/
theorem always_iff_restrict {allowed : σ → α → Prop} {I P : σ → Prop} (h : Run step init as s)
    (hunique : ∀ s a t t', step s a t → step s a t' → t = t') (hinit : I init)
    (hstep : ∀ s a s', I s → allowed s a → step s a s' → I s') (hP : ∀ s, I s → P s)
    (hallowed : ∀ s a s', I s → step s a s' → P s' → allowed s a)
    : Always step init P as ↔ Run (step.restrict allowed) init as s := by
  have hkeeps : ∀ {as s}, Run (step.restrict allowed) init as s → I s := fun hrun =>
    hrun.invariant hinit fun s a s' hI hrestricted => hstep s a s' hI hrestricted.1 hrestricted.2
  constructor
  . intro halways
    induction h with
    | nil => exact .nil
    | @snoc as a s s' hrun hlast ih =>
      have hbefore := ih fun before t hearlier => halways before t (hearlier.trans (List.prefix_append _ _))
      have hafter := halways _ s' List.prefix_rfl (.snoc hrun hlast)
      exact .snoc hbefore ⟨hallowed s a s' (hkeeps hbefore) hlast hafter, hlast⟩
  . rintro hrestricted before t ⟨after, rfl⟩ hbefore
    obtain ⟨t', hrun', -⟩ := hrestricted.of_append
    obtain rfl := hrun'.of_restrict.unique hbefore hunique
    exact hP _ (hkeeps hrun')

end Transition

/--
Every element of a trace is in order, given what came before it.
-/
def Along {ε : Type} (P : List ε → ε → Prop) (trace : List ε) : Prop :=
  ∀ before e after, trace = before ++ e :: after → P before e

namespace Along

variable {ε : Type} {P : List ε → ε → Prop}

theorem nil : Along P [] := by
  intro before e after h
  simp at h

theorem concat {trace : List ε} {e : ε} (h : Along P trace) (he : P trace e)
    : Along P (trace ++ [e]) := by
  intro before e' after heq
  cases after using List.reverseRecOn with
  | nil =>
    obtain ⟨rfl, hlast⟩ := List.append_inj' heq rfl
    simp_all
  | append_singleton after last =>
    rw [← List.cons_append, ← List.append_assoc] at heq
    obtain ⟨htrace, -⟩ := List.append_inj' heq rfl
    exact h before e' after htrace

theorem append {trace events : List ε} (h : Along P trace)
    (hevents : ∀ e ∈ events, ∀ before, P before e)
    : Along P (trace ++ events) := by
  induction events using List.reverseRecOn with
  | nil => simpa using h
  | append_singleton events e ih =>
    rw [← List.append_assoc]
    apply concat
    . exact ih fun e he => hevents e (List.mem_append_left _ he)
    . exact hevents e (by simp) _

end Along
end SimpleRsyncd
