import Mathlib.Algebra.Order.BigOperators.Group.List
import Mathlib.Data.List.Nodup
import Mathlib.Data.List.Perm.Subperm
import SimpleRsyncd.Json.Cost

/-!
This module contains what is found in an object under the names of its members.
-/

namespace SimpleRsyncd
namespace Json

variable {members found : List (Bytes × Json)} {key : Bytes} {v : Json}

theorem mem_of_get? (h : get? members key = some v) : (key, v) ∈ members := by
  obtain ⟨m, hfind, rfl⟩ := Option.map_eq_some_iff.mp h
  have hmem := List.mem_of_find?_eq_some hfind
  have hkey := List.find?_some hfind
  obtain rfl : m.1 = key := by simpa using hkey
  simpa using hmem

theorem get?_eq_none (h : key ∉ members.map (·.1)) : get? members key = none := by
  cases hget : get? members key with
  | none => rfl
  | some v => exact absurd (List.mem_map_of_mem (mem_of_get? hget)) h

theorem get?_eq_some (hkeys : (members.map (·.1)).Nodup) (h : (key, v) ∈ members)
    : get? members key = some v := by
  have hsome : (members.reverse.find? fun m => m.1 == key).isSome = true := by
    rw [List.find?_isSome]
    exact ⟨(key, v), by simpa using h, by simp⟩
  obtain ⟨m, hfind⟩ := Option.isSome_iff_exists.mp hsome
  have hmem : m ∈ members := by simpa using List.mem_of_find?_eq_some hfind
  have hkey : m.1 = key := by simpa using List.find?_some hfind
  obtain rfl := List.inj_on_of_nodup_map hkeys hmem h hkey
  rw [get?, hfind, Option.map_some]

theorem get?_append_of_notMem (others : List (Bytes × Json)) (h : key ∉ members.map (·.1))
    : get? (members ++ others) key = get? others key := by
  have hnone : (members.reverse.find? fun m => m.1 == key) = none := by
    simpa [get?] using get?_eq_none h
  rw [get?, List.reverse_append, List.find?_append, hnone, Option.or_none, get?]

theorem eq_of_sum_map_le {α : Type} {l : List α} {f g : α → Nat} (hle : ∀ x ∈ l, f x ≤ g x)
    (h : (l.map g).sum ≤ (l.map f).sum)
    : ∀ x ∈ l, f x = g x := by
  intro x hx
  by_contra hne
  have hlt : ∃ x ∈ l, f x < g x := ⟨x, hx, Nat.lt_of_le_of_ne (hle x hx) hne⟩
  exact Nat.not_lt.mpr h (List.sum_lt_sum f g hle hlt)

/--
The members that are found under different names are members of their own.
-/
theorem sum_memberCost_le (hkeys : (found.map (·.1)).Nodup) (h : ∀ m ∈ found, get? members m.1 = some m.2)
    : (found.map (memberCost · + 1)).sum ≤ (members.map (memberCost · + 1)).sum := by
  have hsubset : found ⊆ members := fun m hm => mem_of_get? (h m hm)
  have hnodup : found.Nodup := List.Nodup.of_map _ hkeys
  obtain ⟨l, hperm, hsublist⟩ := hnodup.subperm hsubset
  rw [← (hperm.map (memberCost · + 1)).sum_eq]
  exact (hsublist.map (memberCost · + 1)).sum_le_sum fun _ _ => Nat.zero_le _

end Json
end SimpleRsyncd
