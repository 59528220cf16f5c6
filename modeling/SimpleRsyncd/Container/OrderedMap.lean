import Mathlib.Data.List.Basic

/-!
This module contains finite maps as lists of entries that are sorted by their keys, which is the order
`std::map` iterates in.
-/

namespace SimpleRsyncd

/--
A strict total order on keys.
-/
class KeyOrder (κ : Type) where
  less : κ → κ → Bool
  less_irrefl : ∀ a, less a a = false
  less_trans : ∀ {a b c}, less a b = true → less b c = true → less a c = true
  less_total : ∀ {a b}, a ≠ b → less a b = true ∨ less b a = true

structure OrderedMap (κ ν : Type) [KeyOrder κ] where
  entries : List (κ × ν)
  sorted : entries.Pairwise fun e e' => KeyOrder.less e.1 e'.1 = true
  deriving DecidableEq

namespace OrderedMap

open KeyOrder

variable {κ ν : Type} [KeyOrder κ]

theorem ne_of_less {a b : κ} (h : less a b = true) : a ≠ b := by
  rintro rfl
  simp [less_irrefl] at h

def insertEntry (k : κ) (v : ν) : List (κ × ν) → List (κ × ν)
  | [] => [(k, v)]
  | e :: es =>
    if less k e.1 then
      (k, v) :: e :: es
    else if less e.1 k then
      e :: insertEntry k v es
    else
      (k, v) :: es

theorem mem_insertEntry {k : κ} {v : ν} {e : κ × ν} {es : List (κ × ν)} (h : e ∈ insertEntry k v es)
    : e = (k, v) ∨ e ∈ es := by
  induction es with
  | nil => simpa [insertEntry] using h
  | cons e' es ih =>
    rw [insertEntry] at h
    split at h
    . simpa using h
    . split at h
      . rcases List.mem_cons.mp h with rfl | h
        . simp
        . rcases ih h with rfl | h <;> simp_all
      . rcases List.mem_cons.mp h with rfl | h <;> simp_all

theorem sorted_insertEntry (k : κ) (v : ν) {es : List (κ × ν)}
    (h : es.Pairwise fun e e' => less e.1 e'.1 = true)
    : (insertEntry k v es).Pairwise fun e e' => less e.1 e'.1 = true := by
  induction es with
  | nil => simp [insertEntry]
  | cons e es ih =>
    rw [List.pairwise_cons] at h
    rw [insertEntry]
    split
    . next hlt =>
      refine List.pairwise_cons.mpr ⟨?_, List.pairwise_cons.mpr h⟩
      intro e' he'
      rcases List.mem_cons.mp he' with rfl | he'
      . exact hlt
      . exact less_trans hlt (h.1 e' he')
    . next hnot =>
      split
      . next hlt =>
        refine List.pairwise_cons.mpr ⟨?_, ih h.2⟩
        intro e' he'
        rcases mem_insertEntry he' with rfl | he'
        . exact hlt
        . exact h.1 e' he'
      . next hnot' =>
        have heq : k = e.1 := by
          by_contra hne
          rcases less_total hne with hlt | hlt
          . exact hnot hlt
          . exact hnot' hlt
        subst heq
        exact List.pairwise_cons.mpr h

def empty : OrderedMap κ ν where
  entries := []
  sorted := .nil

def insert (m : OrderedMap κ ν) (k : κ) (v : ν) : OrderedMap κ ν where
  entries := insertEntry k v m.entries
  sorted := sorted_insertEntry k v m.sorted

def filter (m : OrderedMap κ ν) (p : κ × ν → Bool) : OrderedMap κ ν where
  entries := m.entries.filter p
  sorted := m.sorted.filter p

theorem nodup_keys (m : OrderedMap κ ν) : (m.entries.map Prod.fst).Nodup := by
  rw [List.Nodup, List.pairwise_map]
  exact m.sorted.imp ne_of_less

theorem nodup_entries (m : OrderedMap κ ν) : m.entries.Nodup :=
  m.sorted.imp fun hlt heq => ne_of_less hlt (congrArg Prod.fst heq)

variable [DecidableEq κ]

def erase (m : OrderedMap κ ν) (k : κ) : OrderedMap κ ν :=
  m.filter fun e => e.1 ≠ k

def lookup (m : OrderedMap κ ν) (k : κ) : Option ν :=
  m.entries.lookup k

variable (m : OrderedMap κ ν) {k k' : κ}

@[simp]
theorem lookup_empty : (empty : OrderedMap κ ν).lookup k = none := rfl

@[simp]
theorem lookup_insert_self (v : ν) : (m.insert k v).lookup k = some v := by
  simp only [lookup, insert]
  induction m.entries with
  | nil => simp [insertEntry]
  | cons e es ih =>
    rw [insertEntry]
    split
    . simp
    . split
      . next hlt =>
        have hne : (k == e.1) = false := by simpa using (ne_of_less hlt).symm
        rw [List.lookup_cons, hne]
        exact ih
      . simp

theorem lookup_insert_of_ne (v : ν) (h : k' ≠ k) : (m.insert k v).lookup k' = m.lookup k' := by
  have hne : (k' == k) = false := by simpa using h
  simp only [lookup, insert]
  induction m.entries with
  | nil => simp [insertEntry, List.lookup_cons, hne]
  | cons e es ih =>
    rw [insertEntry]
    split
    . rw [List.lookup_cons, hne]
    . next hnot =>
      split
      . rw [List.lookup_cons, List.lookup_cons, ih]
      . next hnot' =>
        have heq : k = e.1 := by
          by_contra hne
          rcases less_total hne with hlt | hlt
          . exact hnot hlt
          . exact hnot' hlt
        subst heq
        rw [List.lookup_cons, hne, List.lookup_cons, hne]

theorem lookup_insert (v : ν) : (m.insert k v).lookup k' = if k' = k then some v else m.lookup k' := by
  split
  . next h => rw [h, lookup_insert_self]
  . next h => exact m.lookup_insert_of_ne v h

theorem mem_entries_iff {v : ν} : (k, v) ∈ m.entries ↔ m.lookup k = some v := by
  obtain ⟨es, hsorted⟩ := m
  simp only [lookup]
  induction es with
  | nil => simp
  | cons e es ih =>
    obtain ⟨hlt, hsorted⟩ := List.pairwise_cons.mp hsorted
    rw [List.mem_cons, ih hsorted, List.lookup_cons]
    cases hkey : k == e.1 with
    | true =>
      obtain rfl : k = e.1 := by simpa using hkey
      have hnone : es.lookup e.1 ≠ some v := by
        intro hsome
        exact ne_of_less (hlt _ ((ih hsorted).mpr hsome)) rfl
      simp only [hnone, or_false, Option.some.injEq]
      constructor
      . intro heq
        rw [← heq]
      . rintro rfl
        rfl
    | false =>
      have hne : (k, v) ≠ e := by
        rintro rfl
        simp at hkey
      simp [hne]

theorem mem_keys_iff : k ∈ m.entries.map Prod.fst ↔ m.lookup k ≠ none := by
  rw [List.mem_map, Option.ne_none_iff_exists']
  constructor
  . rintro ⟨⟨k', v⟩, hmem, rfl⟩
    exact ⟨v, m.mem_entries_iff.mp hmem⟩
  . rintro ⟨v, h⟩
    exact ⟨(k, v), m.mem_entries_iff.mpr h, rfl⟩

/--
Two maps with the same values at all keys are the same.
-/
theorem ext_lookup {m m' : OrderedMap κ ν} (h : ∀ k, m.lookup k = m'.lookup k) : m = m' := by
  suffices hentries : m.entries = m'.entries by
    cases m
    cases m'
    simpa using hentries
  have hmem : ∀ e, e ∈ m.entries ↔ e ∈ m'.entries := by
    rintro ⟨k, v⟩
    rw [mem_entries_iff, mem_entries_iff, h]
  have hperm : m.entries.Perm m'.entries :=
    (List.perm_ext_iff_of_nodup m.nodup_entries m'.nodup_entries).mpr hmem
  refine hperm.eq_of_pairwise ?_ m.sorted m'.sorted
  intro a b _ _ hab hba
  have := less_trans hab hba
  simp [less_irrefl] at this

omit m in
/--
Maps that have values at the same keys list these keys in the same order.
-/
theorem keys_eq_of_lookup {ν' : Type} {m : OrderedMap κ ν} {m' : OrderedMap κ ν'}
    (h : ∀ k, m.lookup k ≠ none ↔ m'.lookup k ≠ none)
    : m.entries.map Prod.fst = m'.entries.map Prod.fst := by
  have hmem : ∀ k, k ∈ m.entries.map Prod.fst ↔ k ∈ m'.entries.map Prod.fst := by
    intro k
    rw [mem_keys_iff, mem_keys_iff, h]
  have hperm := (List.perm_ext_iff_of_nodup m.nodup_keys m'.nodup_keys).mpr hmem
  have hsorted : ∀ {μ : Type} (m : OrderedMap κ μ),
      (m.entries.map Prod.fst).Pairwise fun a b => less a b = true := by
    intro μ m
    exact List.pairwise_map.mpr m.sorted
  refine hperm.eq_of_pairwise ?_ (hsorted m) (hsorted m')
  intro a b _ _ hab hba
  have := less_trans hab hba
  simp [less_irrefl] at this

theorem lookup_filter (p : κ × ν → Bool) : (m.filter p).lookup k = (m.lookup k).filter fun v => p (k, v) := by
  refine Option.ext fun v => ?_
  rw [← mem_entries_iff, Option.filter_eq_some_iff]
  simp only [filter, List.mem_filter]
  rw [mem_entries_iff]

theorem lookup_erase : (m.erase k).lookup k' = if k' = k then none else m.lookup k' := by
  rw [erase, lookup_filter]
  cases m.lookup k' <;> by_cases h : k' = k <;> simp [h]

/--
Entries that are read one after the other, where an entry can get lost or come with another value but
not with another key.
-/
theorem lookup_foldl_insert (f : κ × ν → Option (κ × ν)) {es : List (κ × ν)}
    (hf : ∀ e ∈ es, ∀ e', f e = some e' → e'.1 = e.1) (hnodup : (es.map Prod.fst).Nodup)
    : (es.foldl (fun m e => (f e).elim m fun e' => m.insert e'.1 e'.2) m).lookup k
      = ((es.lookup k).bind fun v => (f (k, v)).map Prod.snd).or (m.lookup k) := by
  induction es generalizing m with
  | nil => simp
  | cons e es ih =>
    simp only [List.map_cons, List.nodup_cons] at hnodup
    rw [List.foldl_cons, ih _ (fun e he => hf e (List.mem_cons_of_mem _ he)) hnodup.2, List.lookup_cons]
    cases hkey : k == e.1 with
    | true =>
      obtain rfl : k = e.1 := by simpa using hkey
      have hnone : es.lookup e.1 = none := by
        rw [List.lookup_eq_none_iff]
        intro e' he'
        simp only [bne_iff_ne]
        rintro heq
        exact hnodup.1 (heq ▸ List.mem_map_of_mem he')
      cases he : f e with
      | none => simp [hnone, he]
      | some e' =>
        have hsame : (m.insert e'.1 e'.2).lookup e.1 = some e'.2 := by
          rw [← hf e (by simp) e' he, lookup_insert_self]
        simp [hnone, he, hsame]
    | false =>
      have hne : k ≠ e.1 := by simpa using hkey
      cases he : f e with
      | none => simp
      | some e' =>
        have hkey' : k ≠ e'.1 := by rwa [hf e (by simp) e' he]
        simp [lookup_insert_of_ne _ _ hkey']

/--
Entries that are read one after the other, of the ones with the same key the last one wins.
-/
theorem lookup_foldl_last {α : Type} (f : α → Option (κ × ν)) (as : List α)
    : (as.foldl (fun m a => (f a).elim m fun e => m.insert e.1 e.2) m).lookup k
      = (((as.filterMap f).reverse.find? (·.1 = k)).map Prod.snd).or (m.lookup k) := by
  induction as generalizing m with
  | nil => rfl
  | cons a as ih =>
    rw [List.foldl_cons, ih]
    cases ha : f a with
    | none => simp only [Option.elim_none, List.filterMap_cons, ha]
    | some e =>
      simp only [Option.elim_some, List.filterMap_cons, ha, List.reverse_cons, List.find?_append, Option.map_or,
        Option.or_assoc, lookup_insert, List.find?_singleton, decide_eq_true_eq]
      split
      . next heq => rw [if_pos heq.symm, Option.map_some, Option.some_or]
      . next hne => rw [if_neg (Ne.symm hne), Option.map_none, Option.none_or]

/--
The entries with other values can be searched like the map.
-/
theorem lookup_map_entries {ν' : Type} [BEq κ] [LawfulBEq κ] (f : ν → ν')
    : (m.entries.map fun e => (e.1, f e.2)).lookup k = (m.lookup k).map f := by
  unfold lookup
  induction m.entries with
  | nil => rfl
  | cons e entries ih =>
    rcases e with ⟨k', v⟩
    by_cases hk : k = k'
    . simp [hk]
    . have hne : (k == k') = false := beq_eq_false_iff_ne.mpr hk
      have hne' : (instBEqOfDecidableEq.beq k k') = false := decide_eq_false hk
      simp [List.lookup_cons, hne, hne', ih]

/--
A map to lists whose elements know the key they are under: the list under a key is picked out of all
elements by that key.
-/
theorem filter_flatMap_entries {α : Type} (m : OrderedMap κ (List α)) (owner : α → κ) (k : κ)
    (howner : ∀ e ∈ m.entries, ∀ a ∈ e.2, owner a = e.1)
    : (m.entries.flatMap Prod.snd).filter (owner · = k) = (m.lookup k).getD [] := by
  have hnodup := m.nodup_keys
  unfold lookup
  generalize m.entries = es at howner hnodup ⊢
  induction es with
  | nil => rfl
  | cons e es ih =>
    rw [List.map_cons, List.nodup_cons] at hnodup
    have hrest := ih (fun e he => howner e (List.mem_cons_of_mem _ he)) hnodup.2
    rw [List.flatMap_cons, List.filter_append, hrest, List.lookup_cons]
    -- the keys differ, so that no other entry adds to the elements of this one
    cases hkey : k == e.1 with
    | true =>
      obtain rfl : k = e.1 := by simpa using hkey
      have hall : e.2.filter (owner · = e.1) = e.2 := by
        rw [List.filter_eq_self]
        intro a ha
        simpa using howner e (by simp) a ha
      have hnone : es.lookup e.1 = none := by
        rw [List.lookup_eq_none_iff]
        intro e' he'
        simp only [bne_iff_ne]
        intro heq
        exact hnodup.1 (heq ▸ List.mem_map_of_mem he')
      simp [hall, hnone]
    | false =>
      have hne : k ≠ e.1 := by simpa using hkey
      have hnone : e.2.filter (owner · = k) = [] := by
        rw [List.filter_eq_nil_iff]
        intro a ha
        rw [howner e (by simp) a ha]
        simpa using hne.symm
      simp [hnone]

end OrderedMap
end SimpleRsyncd
