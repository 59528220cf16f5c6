import SimpleRsyncd.Security.NetworkAccess

/-!
This module determines which rules `parseCidr` accepts. Besides those it is meant for these are all texts that
`std::stoi` and the C string in front of it read as one of them.
-/

namespace SimpleRsyncd
namespace NetworkAccess

open Bytes (NumberText)

/--
A rule with something in it that is not looked at: a zero byte and what follows it behind the address, white space
or a sign in front of the number, or anything behind it.
-/
def IsGarbled (rule : Bytes) : Prop :=
  ∃ quad address junk, IsQuad quad address ∧ (∀ c ∈ junk.head?, c = 0) ∧ 47 ∉ junk
    ∧ ((rule = quad ++ junk ∧ junk ≠ [])
      ∨ ∃ t : NumberText, rule = quad ++ junk ++ 47 :: t.text ∧ 0 ≤ t.value ∧ t.value ≤ 32
        ∧ ¬(junk = [] ∧ ∀ c ∈ t.text, Bytes.isDigit c = true))

variable {rule : Bytes}

theorem parseIpv4_quad_append {quad junk : Bytes} {address : Ipv4} (hquad : IsQuad quad address)
    (hjunk : ∀ c ∈ junk.head?, c = 0)
    : parseIpv4 (quad ++ junk) = some address := by
  have hcStr : cStr junk = [] := by
    cases junk with
    | nil => rfl
    | cons c junk => simp [cStr, hjunk c (by simp)]
  rw [parseIpv4_eq_some_iff, hquad.cStr_eq, hcStr, List.append_nil]
  exact hquad

/--
An address is read from its C string.
-/
theorem exists_quad_append {s : Bytes} {address : Ipv4} (h : parseIpv4 s = some address)
    : ∃ quad junk, s = quad ++ junk ∧ IsQuad quad address ∧ ∀ c ∈ junk.head?, c = 0 := by
  refine ⟨cStr s, s.dropWhile (· ≠ 0), (List.takeWhile_append_dropWhile).symm, parseIpv4_eq_some_iff.mp h, ?_⟩
  intro c hc
  simpa using Bytes.head?_dropWhile c hc

theorem IsGarbled.isSome_parseCidr (h : IsGarbled rule) : (parseCidr rule).isSome := by
  obtain ⟨quad, address, junk, hquad, hjunk, hslash, h⟩ := h
  have hnot : 47 ∉ quad ++ junk := by
    rw [List.mem_append, not_or]
    exact ⟨hquad.slash_notMem, hslash⟩
  unfold parseCidr
  rcases h with ⟨rfl, -⟩ | ⟨t, rfl, hlow, hhigh, -⟩
  . simp [Bytes.cut_eq_none hnot, parseIpv4_quad_append hquad hjunk]
  . have hstoi : stoi t.text = some t.value := by
      rw [stoi_text, if_pos (by omega)]
    have hrange : ¬(t.value < 0 ∨ t.value > 32) := by omega
    rw [Bytes.cut_append hnot]
    simp [parseIpv4_quad_append hquad hjunk, hstoi, hrange]

theorem isRule_or_isGarbled (h : (parseCidr rule).isSome) : (∃ network n, IsRule rule network n) ∨ IsGarbled rule := by
  obtain ⟨r, hparse⟩ := Option.isSome_iff_exists.mp h
  unfold parseCidr at hparse
  cases hcut : Bytes.cut 47 rule with
  | none =>
    rw [hcut] at hparse
    obtain ⟨address, haddress, -⟩ := Option.map_eq_some_iff.mp hparse
    obtain ⟨quad, junk, rfl, hquad, hjunk⟩ := exists_quad_append haddress
    have hslash : 47 ∉ junk := by
      intro hmem
      simp [Bytes.cut, hmem] at hcut
    by_cases hempty : junk = []
    . rw [hempty, List.append_nil]
      exact .inl ⟨address, 32, .host hquad⟩
    . exact .inr ⟨quad, address, junk, hquad, hjunk, hslash, .inl ⟨rfl, hempty⟩⟩
  | some parts =>
    obtain ⟨ipPart, prefixPart⟩ := parts
    obtain ⟨hslash, rfl⟩ := Bytes.cut_eq_some_iff.mp hcut
    rw [hcut] at hparse
    obtain ⟨address, haddress, hparse⟩ := Option.bind_eq_some_iff.mp hparse
    obtain ⟨prefixLen, hlength, hparse⟩ := Option.bind_eq_some_iff.mp hparse
    obtain ⟨quad, junk, rfl, hquad, hjunk⟩ := exists_quad_append haddress
    obtain ⟨_, hread, -⟩ := Option.bind_eq_some_iff.mp hlength
    obtain ⟨t, rfl⟩ := Bytes.exists_numberText hread
    have hvalue : prefixLen = t.value := by
      rw [stoi_text] at hlength
      split at hlength
      . exact (Option.some.inj hlength).symm
      . contradiction
    subst hvalue
    have hrange : 0 ≤ t.value ∧ t.value ≤ 32 := by
      split at hparse
      . contradiction
      . omega
    -- what stands behind the address or around the digits is what the two readers do not look at
    by_cases hclean : junk = [] ∧ ∀ c ∈ t.text, Bytes.isDigit c = true
    . obtain ⟨rfl, hdigits⟩ := hclean
      have hle : Bytes.numeral t.digits ≤ 32 := by
        unfold NumberText.value at hrange
        split at hrange <;> omega
      rw [List.append_nil, t.forall_isDigit_text_iff.mp hdigits]
      exact .inl ⟨address, _, .network hquad t.digits_ne_nil t.isDigit_digits hle⟩
    . exact .inr ⟨quad, address, junk, hquad, hjunk, fun hmem => hslash (List.mem_append_right _ hmem),
        .inr ⟨t, rfl, hrange.1, hrange.2, hclean⟩⟩

theorem IsRule.zero_notMem {network : Ipv4} {n : Nat} (h : IsRule rule network n) : 0 ∉ rule := by
  have hquad : ∀ {quad : Bytes}, IsQuad quad network → 0 ∉ quad := by
    intro quad hquad hmem
    rcases hquad.isDigit_or_dot 0 hmem with hdigit | hdot <;> contradiction
  cases h with
  | host h => exact hquad h
  | network h hne hdigits =>
    rw [List.mem_append, List.mem_cons, not_or, not_or]
    exact ⟨hquad h, by decide, fun hmem => absurd (hdigits 0 hmem) (by decide)⟩

theorem IsGarbled.not_isRule (h : IsGarbled rule) : ¬∃ network n, IsRule rule network n := by
  rintro ⟨network, n, hrule⟩
  obtain ⟨quad, address, junk, hquad, hjunk, -, h⟩ := h
  have hempty : junk ⊆ rule → junk = [] := by
    intro hsubset
    cases junk with
    | nil => rfl
    | cons c junk =>
      obtain rfl := hjunk c rfl
      exact absurd (hsubset List.mem_cons_self) hrule.zero_notMem
  rcases h with ⟨rfl, hne⟩ | ⟨t, rfl, -, -, hclean⟩
  . exact hne (hempty (List.subset_append_right _ _))
  . obtain rfl := hempty fun c hc => List.mem_append_left _ (List.mem_append_right _ hc)
    rw [List.append_nil] at hrule
    generalize hrule' : quad ++ 47 :: t.text = rule at hrule
    cases hrule with
    | host hquad' => exact hquad'.slash_notMem (hrule' ▸ by simp)
    | network hquad' hne hdigits =>
      obtain ⟨-, htext⟩ := Bytes.append_cons_inj hquad.slash_notMem hquad'.slash_notMem hrule'
      exact hclean ⟨rfl, htext ▸ hdigits⟩

/--
Only rules are accepted, unless there is something in a text that is not looked at.
-/
theorem isSome_parseCidr_iff (rule : Bytes)
    : ((parseCidr rule).isSome ↔ ∃ network n, IsRule rule network n) ↔ ¬IsGarbled rule := by
  constructor
  . exact fun h hgarbled => hgarbled.not_isRule (h.mp hgarbled.isSome_parseCidr)
  . intro hgarbled
    refine ⟨fun h => (isRule_or_isGarbled h).resolve_right hgarbled, ?_⟩
    rintro ⟨network, n, hrule⟩
    simp [hrule.parseCidr_eq]

/--
A blank within a number makes the network wider.
-/
theorem not_isSome_parseCidr_single
    : parseCidr (bytes "10.0.0.0/1 6") = some (0x0A000000#32, 1)
        ∧ ¬∃ network n, IsRule (bytes "10.0.0.0/1 6") network n := by
  refine ⟨by decide, IsGarbled.not_isRule ?_⟩
  let t : NumberText := {
    blanks := []
    sign := none
    digits := bytes "1"
    rest := bytes " 6"
    isspace_blanks := by simp
    digits_ne_nil := by decide
    isDigit_digits := by decide
    not_isDigit_rest := by simp [bytes, Bytes.isDigit]
  }
  exact ⟨bytes "10.0.0.0", _, [], .mk 10 0 0 0, by simp, by simp,
    .inr ⟨t, by decide, by decide, by decide, fun h => absurd (h.2 32 (by decide)) (by decide)⟩⟩

end NetworkAccess
end SimpleRsyncd
