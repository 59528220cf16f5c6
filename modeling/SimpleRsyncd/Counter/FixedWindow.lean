import Mathlib.Algebra.Order.Group.Defs
import Mathlib.Data.List.Basic

/-!
This module contains counters that are limited within windows of a fixed length. A window is opened by the
first look at the counter after the window before it has ended, so windows do not overlap, but they do
not lie next to each other either.
-/

namespace SimpleRsyncd
namespace FixedWindow

section countIn

variable {τ : Type} [LinearOrder τ] {ts : List τ} {a b c : τ}

/--
How many of these points in time lie in the interval from `a` to `b`, which `b` does not belong to.
-/
def countIn (ts : List τ) (a b : τ) : Nat :=
  ts.countP fun t => decide (a ≤ t ∧ t < b)

@[simp]
theorem countIn_nil : countIn [] a b = 0 := rfl

theorem countIn_concat (ts : List τ) (t : τ)
    : countIn (ts ++ [t]) a b = countIn ts a b + if a ≤ t ∧ t < b then 1 else 0 := by
  simp [countIn, List.countP_append, List.countP_singleton]

theorem countIn_eq_zero (h : ∀ t ∈ ts, t < a) : countIn ts a b = 0 := by
  rw [countIn, List.countP_eq_zero]
  intro t ht
  simp [h t ht]

theorem countIn_le_countIn {a' b' : τ} (h : ∀ t ∈ ts, a ≤ t → t < b → a' ≤ t ∧ t < b')
    : countIn ts a b ≤ countIn ts a' b' := by
  apply List.countP_mono_left
  intro t ht hin
  obtain ⟨ha, hb⟩ := of_decide_eq_true hin
  exact decide_eq_true (h t ht ha hb)

theorem countIn_le_add (ts : List τ) (a b c : τ) : countIn ts a c ≤ countIn ts a b + countIn ts b c := by
  induction ts with
  | nil => simp
  | cons t ts ih =>
    have hcons : ∀ a b, countIn (t :: ts) a b = countIn ts a b + if a ≤ t ∧ t < b then 1 else 0 := by
      intro a b
      simp [countIn, List.countP_cons]
    simp only [hcons]
    rcases lt_or_ge t b with hlt | hge
    . have : (if a ≤ t ∧ t < c then 1 else 0) ≤ if a ≤ t ∧ t < b then 1 else 0 := by
        split <;> simp_all
      omega
    . have : (if a ≤ t ∧ t < c then 1 else 0) ≤ if b ≤ t ∧ t < c then 1 else 0 := by
        split <;> simp_all
      omega

end countIn

variable {τ : Type} [AddCommGroup τ] [LinearOrder τ]

/--
A counter that has counted these points in time, with the window it is in.
-/
structure Counts (period : τ) (limit : Nat) (ts : List τ) (start : τ) (count : Nat) : Prop where
  inside : ∀ t ∈ ts, t < start + period
  current : countIn ts start (start + period) = count
  le_limit : count ≤ limit
  /-- All that is left of the time just before the window belongs to one other window. -/
  previous : countIn ts (start - period) start ≤ limit
  bounded : ∀ a, countIn ts a (a + period) ≤ 2 * limit

/--
A window that was opened at some time holds no more than the limit, and if it is not the current one it
has ended.
-/
structure Opened (period : τ) (limit : Nat) (ts : List τ) (start earlier : τ) : Prop where
  ended : earlier = start ∨ earlier + period ≤ start
  le_limit : countIn ts earlier (earlier + period) ≤ limit

variable {period : τ} {limit count : Nat} {ts : List τ} {start now t earlier : τ}

theorem counts_nil (period : τ) (limit : Nat) (start : τ) : Counts period limit [] start 0 where
  inside := by simp
  current := rfl
  le_limit := Nat.zero_le _
  previous := Nat.zero_le _
  bounded := fun _ => Nat.zero_le _

theorem Counts.opened (h : Counts period limit ts start count) : Opened period limit ts start start where
  ended := .inl rfl
  le_limit := h.current ▸ h.le_limit

theorem Opened.add (h : Opened period limit ts start earlier) (hcounts : Counts period limit ts start count)
    (hstart : start ≤ t) (hlimit : count < limit)
    : Opened period limit (ts ++ [t]) start earlier where
  ended := h.ended
  le_limit := by
    rw [countIn_concat]
    rcases h.ended with rfl | hended
    . have := hcounts.current
      split <;> omega
    . rw [if_neg fun hin => (hin.2.trans_le (hended.trans hstart)).false]
      exact h.le_limit

variable [IsOrderedAddMonoid τ]

/--
A new window is opened when the current one has ended.
-/
theorem Counts.restart (h : Counts period limit ts start count) (hperiod : 0 ≤ period)
    (hended : start + period ≤ now)
    : Counts period limit ts now 0 where
  inside := fun t ht => ((h.inside t ht).trans_le hended).trans_le (le_add_of_nonneg_right hperiod)
  current := countIn_eq_zero fun t ht => (h.inside t ht).trans_le hended
  le_limit := Nat.zero_le _
  previous := by
    have hle : countIn ts (now - period) now ≤ countIn ts start (start + period) := by
      apply countIn_le_countIn
      intro t ht hsince _
      exact ⟨(le_sub_iff_add_le.mpr hended).trans hsince, h.inside t ht⟩
    exact hle.trans (h.current ▸ h.le_limit)
  bounded := h.bounded

theorem Opened.restart (h : Opened period limit ts start earlier) (hperiod : 0 ≤ period)
    (hended : start + period ≤ now)
    : Opened period limit ts now earlier where
  ended := by
    rcases h.ended with rfl | hbefore
    . exact .inr hended
    . exact .inr (hbefore.trans ((le_add_of_nonneg_right hperiod).trans hended))
  le_limit := h.le_limit

/--
An interval as long as a window that reaches into the current window can only reach back into one other.
-/
theorem Counts.add (h : Counts period limit ts start count) (hstart : start ≤ t)
    (hinside : t < start + period) (hlimit : count < limit)
    : Counts period limit (ts ++ [t]) start (count + 1) where
  inside := by
    intro t' ht'
    rcases List.mem_append.mp ht' with ht' | ht'
    . exact h.inside t' ht'
    . rwa [List.mem_singleton.mp ht']
  current := by rw [countIn_concat, h.current, if_pos ⟨hstart, hinside⟩]
  le_limit := hlimit
  previous := by
    rw [countIn_concat, if_neg fun hin => (hin.2.trans_le hstart).false]
    exact h.previous
  bounded := by
    intro a
    rw [countIn_concat]
    split
    . next hin =>
      have hreach : start - period ≤ a := by
        rw [sub_le_iff_le_add]
        exact hstart.trans hin.2.le
      have hsplit := countIn_le_add ts a start (a + period)
      have hbefore : countIn ts a start ≤ countIn ts (start - period) start :=
        countIn_le_countIn fun t _ hsince hlt => ⟨hreach.trans hsince, hlt⟩
      have hafter : countIn ts start (a + period) ≤ countIn ts start (start + period) :=
        countIn_le_countIn fun t ht hsince _ => ⟨hsince, h.inside t ht⟩
      have := h.previous
      have := h.current
      omega
    . exact h.bounded a

end FixedWindow
end SimpleRsyncd
