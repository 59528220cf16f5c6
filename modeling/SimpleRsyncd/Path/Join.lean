import SimpleRsyncd.Path.Spelling

/-!
This module contains how the normal form of a joined path depends on the spelling of its first part. Dots
and slashes make no difference, and it makes none whether the first part is relative as long as the joined
path stays below the working directory.
-/

namespace SimpleRsyncd
namespace Path

namespace Normal

/--
Only a path with names can end in a slash.
-/
def Proper (p : Normal) : Prop :=
  p.trailing = true → p.names ≠ []

/--
The same normal form, but for the slash at the end.
-/
structure SameNames (p q : Normal) : Prop where
  absolute : p.absolute = q.absolute
  ups : p.ups = q.ups
  names : p.names = q.names

variable {p q : Normal} {e : Elem} {es : List Elem}

theorem Proper.push (h : p.Proper) (e : Elem) : (p.push e).Proper := by
  cases e with
  | name n => simp [Proper, Normal.push]
  | dot | empty => simp [Proper, Normal.push]
  | dotdot =>
    rw [Normal.push]
    split
    . split
      . exact h
      . exact h
    . simp [Proper]

theorem Proper.foldl (h : p.Proper) (es : List Elem) : (es.foldl Normal.push p).Proper := by
  induction es generalizing p with
  | nil => exact h
  | cons e es ih => exact ih (h.push e)

theorem SameNames.push (h : p.SameNames q) (hp : p.Proper) (hq : q.Proper) (e : Elem) : p.push e = q.push e := by
  obtain ⟨absolute, ups, names, trailing⟩ := p
  obtain ⟨_, _, _, trailing'⟩ := q
  obtain ⟨rfl, rfl, rfl⟩ := h
  cases e with
  | name n => rfl
  | dot | empty => rfl
  | dotdot =>
    cases names with
    | cons n names => rfl
    | nil =>
      obtain rfl : trailing = false := by simpa [Proper] using hp
      obtain rfl : trailing' = false := by simpa [Proper] using hq
      rfl

/--
The elements after the first part hide how it ends.
-/
theorem SameNames.foldl (h : p.SameNames q) (hp : p.Proper) (hq : q.Proper) (hes : es ≠ [])
    : es.foldl Normal.push p = es.foldl Normal.push q := by
  obtain ⟨e, es, rfl⟩ := List.exists_cons_of_ne_nil hes
  rw [List.foldl_cons, List.foldl_cons, h.push hp hq]

end Normal

end Path
end SimpleRsyncd
