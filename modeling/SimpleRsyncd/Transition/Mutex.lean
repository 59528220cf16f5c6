import SimpleRsyncd.Transition.Basic

/-!
This module contains the calls that one thread makes on an object with a mutex. The mutex is not
recursive: a call that locks it a second time waits for itself and never returns.
-/

namespace SimpleRsyncd

/--
An object, and whether its mutex is locked.
-/
structure Guarded (σ : Type) where
  value : σ
  held : Bool := false

/--
How a call ends.
-/
inductive Ending (ε : Type) where
  | returns
  | throws (e : ε)
  | hangs
  deriving DecidableEq

abbrev GuardedCall (σ ε : Type) := Guarded σ → Ending ε × Guarded σ

/--
`std::lock_guard` around the rest of a function. The mutex is released however the function is left.
-/
def lockGuard {σ ε : Type} (body : GuardedCall σ ε) : GuardedCall σ ε :=
  fun g =>
    if g.held then
      (.hangs, g)
    else
      match body { g with held := true } with
      | (.hangs, g) => (.hangs, g)
      | (ending, g) => (ending, { g with held := false })

/--
A thread and the object it calls.
-/
structure Caller (σ : Type) where
  object : Guarded σ
  hangs : Bool := false

namespace Caller

variable {σ ε α : Type} (perform : α → GuardedCall σ ε)

/--
The next call of the thread, there is none after one that hangs.
-/
def act (a : α) (t : Caller σ) : Caller σ :=
  if t.hangs then
    t
  else
    match perform a t.object with
    | (.hangs, g) => { object := g, hangs := true }
    | (_, g) => { object := g }

def step : Transition (Caller σ) α :=
  .ofFun (act perform)

theorem step_act (a : α) (t : Caller σ) : step perform t a (act perform a t) := rfl

/--
The mutex is free between two calls.
-/
structure Free (t : Caller σ) : Prop where
  running : t.hangs = false
  free : t.object.held = false

variable {perform} {locksTwice : σ → α → Prop}

/--
If a call on a free object hangs exactly where it locks the mutex twice and releases it otherwise, then
no call of a run hangs if and only if none of them locks the mutex twice.
-/
theorem never_hangs_iff {init t : Caller σ} {as : List α}
    (hspec : ∀ a g, g.held = false →
      ((perform a g).1 = .hangs ↔ locksTwice g.value a)
        ∧ ((perform a g).1 ≠ .hangs → (perform a g).2.held = false))
    (hinit : init.Free) (hrun : (step perform).Run init as t)
    : (step perform).Always init (fun t => t.hangs = false) as
        ↔
      ((step perform).restrict fun t a => ¬locksTwice t.object.value a).Run init as t := by
  have hact : ∀ {t : Caller σ} {a}, t.Free →
      (¬locksTwice t.object.value a ∧ (act perform a t).Free)
        ∨ (locksTwice t.object.value a ∧ (act perform a t).hangs = true) := by
    intro t a h
    obtain ⟨hhangs, hreleases⟩ := hspec a t.object h.free
    unfold act
    simp only [h.running, Bool.false_eq_true, ↓reduceIte]
    generalize perform a t.object = result at hhangs hreleases ⊢
    rcases result with ⟨_ | e | _, g⟩
    . exact .inl ⟨by simp [← hhangs], rfl, hreleases (by simp)⟩
    . exact .inl ⟨by simp [← hhangs], rfl, hreleases (by simp)⟩
    . exact .inr ⟨hhangs.mp rfl, rfl⟩
  refine Transition.always_iff_restrict hrun (fun _ _ _ _ h h' => h.symm.trans h') hinit ?_
    (fun t h => h.running) ?_
  . rintro t a _ h hnot rfl
    rcases hact h with ⟨-, hfree⟩ | ⟨htwice, -⟩
    . exact hfree
    . exact absurd htwice hnot
  . rintro t a _ h rfl hrunning
    rcases hact h with ⟨hnot, -⟩ | ⟨-, hhangs⟩
    . exact hnot
    . rw [hrunning] at hhangs
      contradiction

end Caller

section lockGuard

variable {σ ε : Type} (body : GuardedCall σ ε) {g : Guarded σ}

theorem lockGuard_of_held (h : g.held = true) : lockGuard body g = (.hangs, g) := by
  simp [lockGuard, h]

/--
A guarded call on a free object ends as its body does.
-/
theorem lockGuard_of_free (h : g.held = false)
    : (lockGuard body g).1 = (body { g with held := true }).1
        ∧ ((lockGuard body g).1 ≠ .hangs → (lockGuard body g).2.held = false) := by
  unfold lockGuard
  simp only [h, Bool.false_eq_true, ↓reduceIte]
  rcases body { g with held := true } with ⟨_ | e | _, g'⟩
  . exact ⟨rfl, fun _ => rfl⟩
  . exact ⟨rfl, fun _ => rfl⟩
  . exact ⟨rfl, fun hne => absurd rfl hne⟩

/--
Whether it returns or hangs, a guarded call on a free object changes it as its body does.
-/
theorem value_lockGuard (h : g.held = false) : (lockGuard body g).2.value = (body { g with held := true }).2.value := by
  unfold lockGuard
  simp only [h, Bool.false_eq_true, ↓reduceIte]
  rcases body { g with held := true } with ⟨_ | e | _, g'⟩ <;> rfl

end lockGuard
end SimpleRsyncd
