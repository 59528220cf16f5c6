import Mathlib.Init

/-!
This module contains the system clock as `std::chrono` sees it.
-/

namespace SimpleRsyncd

/--
Points in time of the system clock, in nanoseconds.
-/
abbrev Time := Int

namespace Time

/--
`time_point::max()`.
-/
def max : Time := 9223372036854775807

def hours (n : Int) : Int := n * 3600000000000

/--
`duration_cast<seconds>(now - since)`, which rounds towards zero.
-/
def elapsed (since now : Time) : Int :=
  (now - since).tdiv 1000000000

@[simp]
theorem elapsed_self (now : Time) : elapsed now now = 0 := by
  simp [elapsed]

theorem elapsed_le_elapsed (since : Time) {now now' : Time} (h : now ≤ now') : elapsed since now ≤ elapsed since now' := by
  exact Int.tdiv_le_tdiv (by decide) (Int.sub_le_sub_right h since)

end Time
end SimpleRsyncd
