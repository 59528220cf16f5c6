import Mathlib.Data.List.Basic

/-!
This module contains what a run of updates makes of one cell of a larger state. An update overwrites
the cell, adds something at the end of it, or leaves it alone.
-/

namespace SimpleRsyncd
namespace Cell

variable {α β γ : Type}

section overwrite

variable (write : α → Option β)

/--
The value after all updates, the last one that writes a value wins.
-/
def overwrite (x : β) (updates : List α) : β :=
  updates.foldl (fun x a => (write a).getD x) x

/--
Two runs of the same updates agree exactly if one of the updates overwrites the value, or if they
have started from the same one.
-/
theorem overwrite_eq_overwrite_iff {updates : List α} (x y : β)
    : overwrite write x updates = overwrite write y updates
        ↔
      (∃ a ∈ updates, (write a).isSome) ∨ x = y := by
  induction updates generalizing x y with
  | nil => simp [overwrite]
  | cons a updates ih =>
    have hcons : ∀ z, overwrite write z (a :: updates) = overwrite write ((write a).getD z) updates :=
      fun _ => rfl
    rw [hcons, hcons, ih]
    cases ha : write a with
    | none => simp [ha]
    | some v => simp [ha]

/--
A value that is written, and that is the only one written.
-/
theorem overwrite_eq_of_forall {x y : β} {updates : List α} (hmem : ∃ a ∈ updates, write a = some y)
    (hall : ∀ a ∈ updates, ∀ z, write a = some z → z = y)
    : overwrite write x updates = y := by
  rw [(overwrite_eq_overwrite_iff write x y).mpr (.inl (hmem.imp fun a ha => ⟨ha.1, by simp [ha.2]⟩))]
  clear hmem
  induction updates with
  | nil => rfl
  | cons a updates ih =>
    have hcons : overwrite write y (a :: updates) = overwrite write ((write a).getD y) updates := rfl
    have hkeep : (write a).getD y = y := by
      cases ha : write a with
      | none => rfl
      | some z => exact hall a List.mem_cons_self z ha
    rw [hcons, hkeep, ih fun b hb => hall b (List.mem_cons_of_mem a hb)]

theorem overwrite_of_none {x : β} {updates : List α} (h : ∀ a ∈ updates, write a = none)
    : overwrite write x updates = x := by
  induction updates with
  | nil => rfl
  | cons a updates ih =>
    have hcons : overwrite write x (a :: updates) = overwrite write ((write a).getD x) updates := rfl
    rw [hcons, h a List.mem_cons_self]
    exact ih fun b hb => h b (List.mem_cons_of_mem a hb)

/--
The last value that one of the updates writes.
-/
def last (updates : List α) : Option β :=
  updates.foldl (fun x a => (write a).or x) none

theorem overwrite_eq (x : β) (updates : List α) : overwrite write x updates = (last write updates).getD x := by
  have hfold : ∀ y : Option β, overwrite write (y.getD x) updates
      = (updates.foldl (fun y a => (write a).or y) y).getD x := by
    induction updates with
    | nil => exact fun _ => rfl
    | cons a updates ih =>
      intro y
      rw [List.foldl_cons, ← ih]
      cases ha : write a <;> simp [overwrite, ha]
  exact hfold none

variable {write}

theorem last_eq_getLast? {updates : List α} : last write updates = (updates.filterMap write).getLast? := by
  have hfold : ∀ x, updates.foldl (fun x a => (write a).or x) x = (updates.filterMap write).getLast?.or x := by
    induction updates with
    | nil => exact fun _ => rfl
    | cons a updates ih =>
      intro x
      rw [List.foldl_cons, ih]
      cases ha : write a with
      | none => simp [ha]
      | some v => cases hlast : (updates.filterMap write).getLast? <;> simp [ha, hlast, List.getLast?_cons]
  rw [last, hfold, Option.or_none]

theorem last_append {updates updates' : List α}
    : last write (updates ++ updates') = (last write updates').or (last write updates) := by
  simp [last_eq_getLast?, List.getLast?_append]

theorem last_eq_none_iff {updates : List α} : last write updates = none ↔ ∀ a ∈ updates, write a = none := by
  rw [last_eq_getLast?, List.getLast?_eq_none_iff, List.filterMap_eq_nil_iff]

variable (write)

theorem overwrite_eq_self_iff {x : β} {updates : List α}
    : overwrite write x updates = x ↔ ∀ y, last write updates = some y → y = x := by
  rw [overwrite_eq]
  cases last write updates <;> simp

end overwrite

section extend

variable (write : α → List β)

/--
The list after all updates, with what each of them adds at its end.
-/
def extend (xs : List β) (updates : List α) : List β :=
  updates.foldl (fun xs a => xs ++ write a) xs

theorem extend_eq (xs : List β) (updates : List α) : extend write xs updates = xs ++ updates.flatMap write := by
  induction updates generalizing xs with
  | nil => simp [extend]
  | cons a updates ih =>
    rw [List.flatMap_cons, ← List.append_assoc, ← ih]
    rfl

/--
Nothing that has been in the list before is ever lost.
-/
theorem extend_eq_extend_iff {updates : List α} (xs ys : List β)
    : extend write xs updates = extend write ys updates ↔ xs = ys := by
  rw [extend_eq, extend_eq, List.append_left_inj]

theorem extend_eq_self_iff {xs : List β} {updates : List α}
    : extend write xs updates = xs ↔ updates.flatMap write = [] := by
  rw [extend_eq, List.append_right_eq_self]

end extend

section touch

variable (inside : α → Option γ) (f : β → γ → β) (default : β)

/--
What a run makes of a cell that comes into being with the first update that is about it.
-/
def touch (x : Option β) (updates : List α) : Option β :=
  updates.foldl (fun x a => (inside a).elim x fun b => some (f (x.getD default) b)) x

theorem touch_eq (x : Option β) (updates : List α)
    : touch inside f default x updates
      = if updates.filterMap inside = [] then
          x
        else
          some ((updates.filterMap inside).foldl f (x.getD default)) := by
  induction updates generalizing x with
  | nil => rfl
  | cons a updates ih =>
    have hcons : touch inside f default x (a :: updates)
        = touch inside f default ((inside a).elim x fun b => some (f (x.getD default) b)) updates := rfl
    rw [hcons, ih]
    cases ha : inside a with
    | none => simp [ha]
    | some b =>
      simp only [List.filterMap_cons, ha, reduceCtorEq, if_false, List.foldl_cons, Option.elim_some,
        Option.getD_some]
      split
      . next hnone => simp [hnone]
      . rfl

end touch

/--
Updates from several sources, of which at most one is about the cell. The order of the sources does not matter.
-/
theorem flatMap_eq_of_perm {σ : Type} {sources sources' : List σ} {updates : σ → List α}
    (hperm : sources.Perm sources')
    (hsingle : sources.Pairwise fun x y => updates x = [] ∨ updates y = [])
    : sources.flatMap updates = sources'.flatMap updates := by
  induction hperm with
  | nil => rfl
  | cons x _ ih => rw [List.flatMap_cons, List.flatMap_cons, ih hsingle.tail]
  | swap x y sources =>
    have hpair := List.rel_of_pairwise_cons hsingle (List.mem_cons_self (a := x))
    rcases hpair with hnone | hnone <;> simp [hnone]
  | trans hperm _ ih ih' =>
    rw [ih hsingle]
    exact ih' ((hperm.pairwise_iff Or.symm).mp hsingle)

end Cell
end SimpleRsyncd
