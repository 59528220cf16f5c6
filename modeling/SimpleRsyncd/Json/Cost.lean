import Mathlib.Algebra.Order.BigOperators.Group.List
import SimpleRsyncd.Json.Basic

/-!
This module contains how long a text has to be for a value to be read from it: a string takes a byte for
each of its own and a further one for each that cannot stand as it is.
-/

namespace SimpleRsyncd
namespace Json

def charCost (s : Bytes) : Nat :=
  s.length + s.countP (!isPlain ·)

def stringCost (s : Bytes) : Nat :=
  charCost s + 2

/--
No text of this value is shorter.
-/
def cost : Json → Nat
  | .null => 4
  | .bool b => if b then 4 else 5
  | .number text => text.length
  | .string s => stringCost s
  | .array items => 1 + (items.map fun v => v.cost + 1).sum
  | .object members => 1 + (members.map fun m => stringCost m.1 + 1 + m.2.cost + 1).sum
termination_by v => sizeOf v
decreasing_by
  all_goals simp_wf
  . have hlt := List.sizeOf_lt_of_mem ‹_›
    omega
  . rename_i hm
    have hlt := List.sizeOf_lt_of_mem hm
    have hpair : sizeOf m = 1 + sizeOf m.1 + sizeOf m.2 := rfl
    omega

def memberCost (m : Bytes × Json) : Nat :=
  stringCost m.1 + 1 + m.2.cost

theorem cost_object (members : List (Bytes × Json))
    : (object members).cost = 1 + (members.map fun m => memberCost m + 1).sum := by
  simp [cost, memberCost]

theorem memberCost_string (key s : Bytes) : memberCost (key, .string s) = charCost key + charCost s + 5 := by
  simp only [memberCost, cost, stringCost]
  omega

theorem memberCost_object (key : Bytes) (members : List (Bytes × Json))
    : memberCost (key, .object members) = charCost key + (members.map (memberCost · + 1)).sum + 4 := by
  simp only [memberCost, cost_object, stringCost]
  omega

/--
Whatever a reader takes from the front of a text is at least as long as the cost of what it reads.
-/
def Costs {α : Type} (read : Bytes → Option (α × Bytes)) (cost : α → Nat) : Prop :=
  ∀ s x rest, read s = some (x, rest) → cost x + rest.length ≤ s.length

section chars

theorem charCost_append (s t : Bytes) : charCost (s ++ t) = charCost s + charCost t := by
  simp only [charCost, List.length_append, List.countP_append]
  omega

theorem charCost_le (s : Bytes) : charCost s ≤ 2 * s.length := by
  have hcount : s.countP (!isPlain ·) ≤ s.length := List.countP_le_length
  unfold charCost
  omega

theorem toNat_ofNat {n : Nat} (h : n.isValidChar) : (Char.ofNat n).val.toNat = n := by
  rw [Char.ofNat, dif_pos h]
  rfl

theorem charCost_encode {n : Nat} {s : Bytes} (h : encode n = some s)
    : charCost s ≤ 8 ∧ (n < 0x10000 → charCost s ≤ 6) := by
  unfold encode at h
  split at h
  . next hvalid =>
    obtain rfl : _ = s := by simpa using h
    have hcost := charCost_le (String.utf8EncodeChar (Char.ofNat n))
    rw [String.length_utf8EncodeChar] at hcost
    have hfour := Char.utf8Size_le_four (Char.ofNat n)
    refine ⟨by omega, ?_⟩
    intro hn
    have hthree : (Char.ofNat n).utf8Size ≠ 4 := by
      rw [ne_eq, Char.utf8Size_eq_four_iff, UInt32.lt_iff_toNat_lt, toNat_ofNat hvalid]
      simp only [UInt32.reduceToNat]
      omega
    omega
  . contradiction

theorem hexValue_lt {c : UInt8} {n : Nat} (h : hexValue c = some n) : n < 16 := by
  simp only [hexValue, UInt8.le_iff_toNat_le, UInt8.reduceToNat] at h
  split at h
  . obtain rfl : _ = n := by simpa using h
    omega
  . split at h
    . obtain rfl : _ = n := by simpa using h
      omega
    . split at h
      . obtain rfl : _ = n := by simpa using h
        omega
      . contradiction

theorem readHex_eq {s rest : Bytes} {n : Nat} (h : readHex s = some (n, rest))
    : n < 0x10000 ∧ s.length = rest.length + 4 := by
  unfold readHex at h
  split at h
  . next a b c d s =>
    simp only [Option.bind_eq_bind, Option.bind_eq_some_iff, Option.some.injEq, Prod.mk.injEq] at h
    obtain ⟨a', ha, b', hb, c', hc, d', hd, rfl, rfl⟩ := h
    have ha := hexValue_lt ha
    have hb := hexValue_lt hb
    have hc := hexValue_lt hc
    have hd := hexValue_lt hd
    exact ⟨by omega, by simp⟩
  . contradiction

theorem costs_readUnicode {s char rest : Bytes} (h : readUnicode s = some (char, rest))
    : charCost char + rest.length ≤ s.length + 2 := by
  unfold readUnicode at h
  split at h
  . contradiction
  . next high s' hhigh =>
    obtain ⟨hlt, hlength⟩ := readHex_eq hhigh
    split at h
    . split at h
      . next t =>
        split at h
        . contradiction
        . next low t' hlow =>
          have hlength' := (readHex_eq hlow).2
          split at h
          . simp only [Option.map_eq_some_iff, Prod.mk.injEq] at h
            obtain ⟨_, hencode, rfl, rfl⟩ := h
            have hcost := (charCost_encode hencode).1
            simp only [List.length_cons] at hlength
            omega
          . contradiction
      . contradiction
    . simp only [Option.map_eq_some_iff, Prod.mk.injEq] at h
      obtain ⟨_, hencode, rfl, rfl⟩ := h
      have hcost := (charCost_encode hencode).2 hlt
      omega

theorem costs_readEscape {s char rest : Bytes} (h : readEscape s = some (char, rest))
    : charCost char + rest.length ≤ s.length + 1 := by
  unfold readEscape at h
  split at h
  . contradiction
  . split at h
    . have hcost := costs_readUnicode h
      simp only [List.length_cons]
      omega
    . simp only [Option.map_eq_some_iff, Prod.mk.injEq] at h
      obtain ⟨d, -, rfl, rfl⟩ := h
      have hcost := charCost_le [d]
      simp only [List.length_cons, List.length_nil] at hcost ⊢
      omega

/--
A byte that has to be written in another way takes two bytes at least.
-/
theorem costs_readChar : Costs readChar charCost := by
  intro s char rest h
  unfold readChar at h
  split at h
  . contradiction
  . split at h
    . have hcost := costs_readEscape h
      simp only [List.length_cons]
      omega
    . split at h
      . next hplain =>
        obtain ⟨rfl, rfl⟩ : _ = char ∧ _ = rest := by simpa using h
        simp [charCost, hplain]
        omega
      . contradiction

theorem costs_readChars (n : Nat) : Costs (readChars n) fun chars => charCost chars + 1 := by
  induction n with
  | zero =>
    intro s chars rest h
    contradiction
  | succ n ih =>
    intro s chars rest h
    rw [readChars] at h
    split at h
    . next hquote =>
      obtain ⟨t, rfl⟩ := List.head?_eq_some_iff.mp hquote
      obtain ⟨rfl, rfl⟩ : [] = chars ∧ t = rest := by simpa using h
      simp [charCost]
      omega
    . split at h
      . contradiction
      . next char s' hchar =>
        simp only [Option.map_eq_some_iff, Prod.mk.injEq] at h
        obtain ⟨⟨chars', rest'⟩, hchars, rfl, rfl⟩ := h
        have hcost := costs_readChar s char s' hchar
        have hcost' := ih s' chars' rest' hchars
        dsimp only at hcost' ⊢
        rw [charCost_append]
        omega

theorem costs_readString : Costs readString stringCost := by
  intro s chars rest h
  unfold readString at h
  split at h
  . next hquote =>
    obtain ⟨t, rfl⟩ := List.head?_eq_some_iff.mp hquote
    have hcost : charCost chars + 1 + rest.length ≤ t.length := costs_readChars _ t chars rest h
    simp only [stringCost, List.length_cons]
    omega
  . contradiction

end chars

section lists

theorem length_skipSpace_le (s : Bytes) : (skipSpace s).length ≤ s.length :=
  (List.dropWhile_sublist isSpace).length_le

/--
The first byte after white space, and the rest.
-/
theorem length_of_skipSpace {s : Bytes} {c : UInt8} (h : (skipSpace s).head? = some c)
    : (skipSpace s).tail.length + 1 ≤ s.length := by
  obtain ⟨t, ht⟩ := List.head?_eq_some_iff.mp h
  have hle := length_skipSpace_le s
  rw [ht] at hle ⊢
  simpa using hle

variable {α : Type} {item : Bytes → Option (α × Bytes)} {weight : α → Nat}

theorem Costs.readItems (h : Costs item weight) (close : UInt8) (n : Nat)
    : Costs (readItems close item n) fun xs => (xs.map (weight · + 1)).sum := by
  induction n with
  | zero =>
    intro s xs rest hread
    contradiction
  | succ n ih =>
    intro s xs rest hread
    rw [Json.readItems] at hread
    split at hread
    . contradiction
    . next x s' hitem =>
      have hcost := h s x s' hitem
      dsimp only at hread ⊢
      split at hread
      . next hclose =>
        have hlength := length_of_skipSpace hclose
        obtain ⟨rfl, rfl⟩ : [x] = xs ∧ _ = rest := by simpa using hread
        simp only [List.map_cons, List.map_nil, List.sum_cons, List.sum_nil]
        omega
      . split at hread
        . next hcomma =>
          have hlength := length_of_skipSpace hcomma
          simp only [Option.map_eq_some_iff, Prod.mk.injEq] at hread
          obtain ⟨⟨xs', rest'⟩, hitems, rfl, rfl⟩ := hread
          have hcost' := ih _ xs' rest' hitems
          simp only [List.map_cons, List.sum_cons] at hcost' ⊢
          omega
        . contradiction

theorem Costs.readList (h : Costs item weight) (close : UInt8)
    : Costs (readList close item) fun xs => (xs.map (weight · + 1)).sum := by
  intro s xs rest hread
  unfold Json.readList at hread
  dsimp only at hread
  split at hread
  . next hclose =>
    have hlength := length_of_skipSpace hclose
    obtain ⟨rfl, rfl⟩ : [] = xs ∧ _ = rest := by simpa using hread
    simp only [List.map_nil, List.sum_nil]
    omega
  . exact h.readItems close _ s xs rest hread

end lists

section values

theorem Costs.readMember {value : Bytes → Option (Json × Bytes)} (h : Costs value cost)
    : Costs (readMember value) memberCost := by
  intro s m rest hread
  unfold Json.readMember at hread
  split at hread
  . contradiction
  . next key s' hkey =>
    have hcost := costs_readString _ key s' hkey
    have hspace := length_skipSpace_le s
    dsimp only at hread
    split at hread
    . next hcolon =>
      have hlength := length_of_skipSpace hcolon
      simp only [Option.map_eq_some_iff, Prod.mk.injEq] at hread
      obtain ⟨⟨v, rest'⟩, hvalue, rfl, rfl⟩ := hread
      have hcost' := h _ v rest' hvalue
      simp only [memberCost]
      omega
    . contradiction

theorem costs_readNumber : Costs readNumber cost := by
  intro s v rest hread
  unfold readNumber at hread
  dsimp only at hread
  split at hread
  . obtain ⟨rfl, rfl⟩ : _ = v ∧ _ = rest := by simpa using hread
    rw [cost, ← List.length_append, List.takeWhile_append_dropWhile]
  . contradiction

theorem cost_le_of_mem_literals : ∀ e ∈ literals, e.2.cost ≤ e.1.length := by
  simp [literals, cost, bytes]

theorem costs_readLiteral : Costs readLiteral cost := by
  intro s v rest hread
  simp only [readLiteral, Option.map_eq_some_iff, Prod.mk.injEq] at hread
  obtain ⟨e, hfind, rfl, rfl⟩ := hread
  have hcost := cost_le_of_mem_literals e (List.mem_of_find?_eq_some hfind)
  have hfound := List.find?_some hfind
  have hprefix := (List.isPrefixOf_iff_prefix.mp hfound).length_le
  rw [List.length_drop]
  omega

/--
No value is read from a text that is shorter than it.
-/
theorem costs_readValue (n : Nat) : Costs (readValue n) cost := by
  induction n with
  | zero =>
    intro s v rest hread
    contradiction
  | succ n ih =>
    intro s v rest hread
    -- the space before the value is read away and costs nothing
    have hspace := length_skipSpace_le s
    rw [readValue] at hread
    dsimp only at hread
    split at hread
    . simp only [Option.map_eq_some_iff, Prod.mk.injEq] at hread
      obtain ⟨⟨chars, rest'⟩, hchars, rfl, rfl⟩ := hread
      have hcost := costs_readString _ chars rest' hchars
      dsimp only
      rw [cost]
      omega
    . split at hread
      . next hopen =>
        have hlength := length_of_skipSpace hopen
        simp only [Option.map_eq_some_iff, Prod.mk.injEq] at hread
        obtain ⟨⟨members, rest'⟩, hmembers, rfl, rfl⟩ := hread
        have hcost := ih.readMember.readList 125 _ members rest' hmembers
        dsimp only at hcost ⊢
        rw [cost_object]
        omega
      . split at hread
        . next hopen =>
          have hlength := length_of_skipSpace hopen
          simp only [Option.map_eq_some_iff, Prod.mk.injEq] at hread
          obtain ⟨⟨items, rest'⟩, hitems, rfl, rfl⟩ := hread
          have hcost := ih.readList 93 _ items rest' hitems
          dsimp only at hcost ⊢
          rw [cost]
          omega
        . rcases Option.or_eq_some_iff.mp hread with hread | ⟨-, hread⟩
          . have hcost := costs_readLiteral _ v rest hread
            omega
          . have hcost := costs_readNumber _ v rest hread
            omega

end values

end Json
end SimpleRsyncd
