import SimpleRsyncd.Bytes.Numeral

/-!
This module contains the access lists for the addresses of clients, and which addresses a rule in them stands for:
those that begin with the same bits.
-/

namespace SimpleRsyncd

/--
An IPv4 address in the byte order of the host.
-/
abbrev Ipv4 : Type := BitVec 32

/--
A decimal number below 256 without leading zeros.
-/
def octet (s : Bytes) : Option (BitVec 8) :=
  let n := Bytes.numeral s
  if n < 256 ∧ Bytes.ofNat n = s then some (BitVec.ofNat 8 n) else none

/--
`inet_pton(AF_INET, s, &addr)` and `ntohl(addr.s_addr)`, it accepts dotted quads.
-/
def inetPton (s : Bytes) : Option Ipv4 :=
  match s.splitOn 46 with
  | [a, b, c, d] => do
    let a ← octet a
    let b ← octet b
    let c ← octet c
    let d ← octet d
    some (a ++ b ++ c ++ d)
  | _ => none

/--
`std::stoi(s)`, `none` if it throws.
-/
def stoi (s : Bytes) : Option Int := do
  let (negative, n) ← Bytes.readNumber s
  let n : Int := if negative then -n else n
  if -2147483648 ≤ n ∧ n ≤ 2147483647 then some n else none

/--
A C string ends at its first zero byte.
-/
def cStr (s : Bytes) : Bytes :=
  s.takeWhile (· ≠ 0)

namespace NetworkAccess

def parseIpv4 (address : Bytes) : Option Ipv4 :=
  inetPton (cStr address)

def parseCidr (rule : Bytes) : Option (Ipv4 × Nat) :=
  match Bytes.cut 47 rule with
  | none => (parseIpv4 rule).map (·, 32)
  | some (ipPart, prefixPart) => do
    let network ← parseIpv4 ipPart
    let prefixLen ← stoi prefixPart
    if prefixLen < 0 ∨ prefixLen > 32 then none else some (network, prefixLen.toNat)

def ipInCidr (ip network : Ipv4) (prefixLen : Nat) : Bool :=
  if prefixLen = 0 then
    true
  else
    let mask := if prefixLen = 32 then 0xFFFFFFFF#32 else 0xFFFFFFFF#32 <<< (32 - prefixLen)
    ip &&& mask = network &&& mask

def ipMatchesRule (clientIp rule : Bytes) : Bool :=
  match parseIpv4 clientIp with
  | none => false
  | some client =>
    match parseCidr rule with
    | none => false
    | some (network, prefixLen) => ipInCidr client network prefixLen

def matchesAny (clientIp : Bytes) (rules : List Bytes) : Bool :=
  rules.any fun rule => !rule.isEmpty && ipMatchesRule clientIp rule

def isAllowed (clientIp : Bytes) (deniedHosts deniedNetworks allowedHosts allowedNetworks : List Bytes) : Bool :=
  if matchesAny clientIp deniedHosts || matchesAny clientIp deniedNetworks then
    false
  else if allowedHosts.isEmpty && allowedNetworks.isEmpty then
    true
  else
    matchesAny clientIp allowedHosts || matchesAny clientIp allowedNetworks

/--
`a.b.c.d`, with numbers below 256.
-/
inductive IsQuad : Bytes → Ipv4 → Prop where
  | mk (a b c d : BitVec 8)
    : IsQuad ([46].intercalate ([a, b, c, d].map fun octet => Bytes.ofNat octet.toNat)) (a ++ b ++ c ++ d)

/--
`a.b.c.d`, or `a.b.c.d/n` with a decimal number that is at most 32.
-/
inductive IsRule : Bytes → Ipv4 → Nat → Prop where
  | host {quad : Bytes} {address : Ipv4} (hquad : IsQuad quad address) : IsRule quad address 32
  | network {quad digits : Bytes} {address : Ipv4} (hquad : IsQuad quad address) (hne : digits ≠ [])
    (hdigits : ∀ c ∈ digits, Bytes.isDigit c = true) (hle : Bytes.numeral digits ≤ 32)
    : IsRule (quad ++ 47 :: digits) address (Bytes.numeral digits)

/--
The addresses that a rule stands for.
-/
def addresses (rule : Bytes) : Set Ipv4 :=
  { ip | ∃ network n, IsRule rule network n ∧ ∀ i < n, ip.getMsbD i = network.getMsbD i }

theorem octet_eq_some_iff {s : Bytes} {a : BitVec 8} : octet s = some a ↔ s = Bytes.ofNat a.toNat := by
  simp only [octet]
  constructor
  . intro h
    split at h
    . next hn =>
      obtain rfl := Option.some.inj h
      rw [BitVec.toNat_ofNat, Nat.mod_eq_of_lt hn.1, hn.2]
    . contradiction
  . rintro rfl
    have ha : a.toNat < 256 := a.isLt
    simp [Bytes.numeral_ofNat, ha]

theorem inetPton_eq_some_iff {s : Bytes} {address : Ipv4} : inetPton s = some address ↔ IsQuad s address := by
  unfold inetPton
  constructor
  . intro h
    split at h
    . next hsplit =>
      simp only [Option.bind_eq_bind, Option.bind_eq_some_iff, octet_eq_some_iff] at h
      obtain ⟨a, rfl, b, rfl, c, rfl, d, rfl, h⟩ := h
      obtain rfl := Option.some.inj h
      have hjoined : [46].intercalate (s.splitOn 46) = s := List.intercalate_splitOn 46
      rw [← hjoined, hsplit]
      exact .mk a b c d
    . contradiction
  . rintro ⟨a, b, c, d⟩
    have hdot : ∀ octet ∈ [a, b, c, d].map fun octet => Bytes.ofNat octet.toNat, 46 ∉ octet := by
      intro octet hoctet hmem
      obtain ⟨x, -, rfl⟩ := List.mem_map.mp hoctet
      exact absurd (Bytes.isDigit_of_mem_ofNat hmem) (by decide)
    rw [List.splitOn_intercalate 46 hdot (by simp)]
    simp only [List.map_cons, List.map_nil, octet_eq_some_iff.mpr rfl]
    rfl

/--
A quad consists of digits and dots.
-/
theorem IsQuad.isDigit_or_dot {quad : Bytes} {address : Ipv4} (h : IsQuad quad address)
    : ∀ c ∈ quad, Bytes.isDigit c = true ∨ c = 46 := by
  obtain ⟨a, b, c, d⟩ := h
  intro x hx
  simp only [List.map_cons, List.map_nil, List.intercalate, List.intersperse, List.flatten_cons, List.flatten_nil,
    List.mem_append, List.mem_singleton, List.not_mem_nil, or_false] at hx
  rcases hx with hx | rfl | hx | rfl | hx | rfl | hx
  . exact .inl (Bytes.isDigit_of_mem_ofNat hx)
  . exact .inr rfl
  . exact .inl (Bytes.isDigit_of_mem_ofNat hx)
  . exact .inr rfl
  . exact .inl (Bytes.isDigit_of_mem_ofNat hx)
  . exact .inr rfl
  . exact .inl (Bytes.isDigit_of_mem_ofNat hx)

section rule

variable {quad rule : Bytes} {address network ip : Ipv4} {n : Nat}

theorem IsQuad.cStr_eq (h : IsQuad quad address) (junk : Bytes) : cStr (quad ++ junk) = quad ++ cStr junk := by
  refine List.takeWhile_append_of_pos fun c hc => ?_
  rcases h.isDigit_or_dot c hc with hdigit | rfl
  . simp only [decide_eq_true_eq]
    rintro rfl
    contradiction
  . decide

theorem IsQuad.slash_notMem (h : IsQuad quad address) : 47 ∉ quad := by
  intro hmem
  rcases h.isDigit_or_dot 47 hmem with hdigit | hdot <;> contradiction

theorem IsQuad.ne_nil (h : IsQuad quad address) : quad ≠ [] := by
  rintro rfl
  have hparse := inetPton_eq_some_iff.mpr h
  contradiction

theorem parseIpv4_eq_some_iff {s : Bytes} : parseIpv4 s = some address ↔ IsQuad (cStr s) address :=
  inetPton_eq_some_iff

theorem IsQuad.parseIpv4_eq (h : IsQuad quad address) : parseIpv4 quad = some address := by
  rw [parseIpv4_eq_some_iff]
  have hcStr := h.cStr_eq []
  rw [List.append_nil] at hcStr
  rw [hcStr]
  simpa [cStr] using h

theorem stoi_text (t : Bytes.NumberText)
    : stoi t.text = if -2147483648 ≤ t.value ∧ t.value ≤ 2147483647 then some t.value else none := by
  simp only [stoi, t.readNumber_text, Bytes.NumberText.value]
  rfl

/--
A rule is parsed as it is meant.
-/
theorem IsRule.parseCidr_eq (h : IsRule rule network n) : parseCidr rule = some (network, n) := by
  unfold parseCidr
  cases h with
  | host hquad =>
    rw [Bytes.cut_eq_none hquad.slash_notMem]
    simp [hquad.parseIpv4_eq]
  | network hquad hne hdigits hle =>
    rw [Bytes.cut_append hquad.slash_notMem]
    have hstoi := stoi_text (.ofDigits hne hdigits)
    rw [Bytes.NumberText.text_ofDigits, Bytes.NumberText.value_ofDigits, if_pos (by omega)] at hstoi
    simp only [hquad.parseIpv4_eq, hstoi, Option.bind_eq_bind, Option.bind_some]
    rw [if_neg (by omega), Int.toNat_natCast]

theorem IsRule.le (h : IsRule rule network n) : n ≤ 32 := by
  cases h with
  | host => exact Nat.le_refl _
  | network hquad hne hdigits hle => exact hle

theorem IsRule.ne_nil (h : IsRule rule network n) : rule ≠ [] := by
  cases h with
  | host hquad => exact hquad.ne_nil
  | network hquad => simp

theorem IsRule.mem_addresses_iff (h : IsRule rule network n)
    : ip ∈ addresses rule ↔ ∀ i < n, ip.getMsbD i = network.getMsbD i := by
  constructor
  . rintro ⟨network', n', h', hbits⟩
    obtain ⟨rfl, rfl⟩ := Prod.mk.inj (Option.some.inj (h'.parseCidr_eq.symm.trans h.parseCidr_eq))
    exact hbits
  . exact fun hbits => ⟨network, n, h, hbits⟩

theorem getMsbD_mask (hn : n ≤ 32) (i : Nat)
    : (0xFFFFFFFF#32 <<< (32 - n)).getMsbD i = decide (i < n) := by
  have hones : 0xFFFFFFFF#32 = BitVec.allOnes 32 := rfl
  rw [hones, BitVec.getMsbD_shiftLeft, BitVec.getMsbD_allOnes]
  simp only [decide_eq_decide]
  omega

/--
The mask keeps the first bits.
-/
theorem ipInCidr_iff (hn : n ≤ 32)
    : ipInCidr ip network n = true ↔ ∀ i < n, ip.getMsbD i = network.getMsbD i := by
  unfold ipInCidr
  split
  . next hzero => simp [hzero]
  . have hmask : (if n = 32 then 0xFFFFFFFF#32 else 0xFFFFFFFF#32 <<< (32 - n)) = 0xFFFFFFFF#32 <<< (32 - n) := by
      split
      . next hall => simp [hall]
      . rfl
    simp only [hmask, decide_eq_true_eq]
    constructor
    . intro h i hi
      have hbit := congrArg (BitVec.getMsbD · i) h
      simpa [getMsbD_mask hn i, hi] using hbit
    . intro h
      apply BitVec.eq_of_getMsbD_eq
      intro i _
      rw [BitVec.getMsbD_and, BitVec.getMsbD_and, getMsbD_mask hn i]
      by_cases hlt : i < n
      . rw [h i hlt]
      . simp [hlt]

theorem ipMatchesRule_iff {clientIp : Bytes} (hclient : IsQuad clientIp ip) (hrule : IsRule rule network n)
    : ipMatchesRule clientIp rule = true ↔ ip ∈ addresses rule := by
  rw [hrule.mem_addresses_iff, ← ipInCidr_iff hrule.le, ipMatchesRule, hclient.parseIpv4_eq, hrule.parseCidr_eq]

end rule

section lists

variable {clientIp : Bytes} {ip : Ipv4} {rules : List Bytes}

theorem matchesAny_iff (hclient : IsQuad clientIp ip) (hrules : ∀ rule ∈ rules, ∃ network n, IsRule rule network n)
    : matchesAny clientIp rules = true ↔ ∃ rule ∈ rules, ip ∈ addresses rule := by
  rw [matchesAny, List.any_eq_true]
  refine exists_congr fun rule => and_congr_right fun hmem => ?_
  obtain ⟨network, n, hrule⟩ := hrules rule hmem
  rw [Bool.and_eq_true, ipMatchesRule_iff hclient hrule, Bool.not_eq_true', List.isEmpty_eq_false_iff]
  exact and_iff_right hrule.ne_nil

theorem matchesAny_mono {rules' : List Bytes} (hsubset : rules ⊆ rules') (h : matchesAny clientIp rules = true)
    : matchesAny clientIp rules' = true := by
  rw [matchesAny, List.any_eq_true] at h ⊢
  obtain ⟨rule, hmem, hrule⟩ := h
  exact ⟨rule, hsubset hmem, hrule⟩

/--
The two lists of a kind count as one.
-/
theorem isAllowed_eq_true_iff {deniedHosts deniedNetworks allowedHosts allowedNetworks : List Bytes}
    : isAllowed clientIp deniedHosts deniedNetworks allowedHosts allowedNetworks = true
        ↔
      matchesAny clientIp (deniedHosts ++ deniedNetworks) = false
        ∧ (allowedHosts ++ allowedNetworks = [] ∨ matchesAny clientIp (allowedHosts ++ allowedNetworks) = true) := by
  have happend : ∀ rules rules', matchesAny clientIp (rules ++ rules')
      = (matchesAny clientIp rules || matchesAny clientIp rules') := fun _ _ => List.any_append
  rw [happend, happend, List.append_eq_nil_iff, isAllowed]
  split
  . next hdenied => simp [hdenied]
  . next hdenied =>
    rw [Bool.not_eq_true] at hdenied
    split
    . next hempty => simp_all
    . next hempty => simp_all

variable {deniedHosts deniedNetworks allowedHosts allowedNetworks : List Bytes}

/--
A client is let in if and only if its address is in no set that is denied and, if there are any that are allowed, in
one of them. Only the sets of rules count, and to deny more lets no one in.
-/
theorem isAllowed_iff (hclient : IsQuad clientIp ip)
    (hrules : ∀ rule ∈ (deniedHosts ++ deniedNetworks) ++ (allowedHosts ++ allowedNetworks),
      ∃ network n, IsRule rule network n)
    : (isAllowed clientIp deniedHosts deniedNetworks allowedHosts allowedNetworks = true
          ↔
        (∀ rule ∈ deniedHosts ++ deniedNetworks, ip ∉ addresses rule)
          ∧ ((allowedHosts = [] ∧ allowedNetworks = [])
            ∨ ∃ rule ∈ allowedHosts ++ allowedNetworks, ip ∈ addresses rule))
        ∧ (∀ deniedHosts' deniedNetworks' allowedHosts' allowedNetworks' : List Bytes,
          (∀ rule, rule ∈ deniedHosts ++ deniedNetworks ↔ rule ∈ deniedHosts' ++ deniedNetworks') →
          (∀ rule, rule ∈ allowedHosts ++ allowedNetworks ↔ rule ∈ allowedHosts' ++ allowedNetworks') →
          isAllowed clientIp deniedHosts' deniedNetworks' allowedHosts' allowedNetworks'
            = isAllowed clientIp deniedHosts deniedNetworks allowedHosts allowedNetworks)
        ∧ ∀ deniedHosts' deniedNetworks' : List Bytes,
          deniedHosts ++ deniedNetworks ⊆ deniedHosts' ++ deniedNetworks' →
          isAllowed clientIp deniedHosts' deniedNetworks' allowedHosts allowedNetworks = true →
          isAllowed clientIp deniedHosts deniedNetworks allowedHosts allowedNetworks = true := by
  refine ⟨?_, ?_, ?_⟩
  . have hdenied := matchesAny_iff hclient fun rule h => hrules rule (List.mem_append_left _ h)
    have hallowed := matchesAny_iff hclient fun rule h => hrules rule (List.mem_append_right _ h)
    rw [isAllowed_eq_true_iff, hallowed, ← Bool.not_eq_true, hdenied, List.append_eq_nil_iff]
    simp only [not_exists, not_and]
  . intro deniedHosts' deniedNetworks' allowedHosts' allowedNetworks' hdenied hallowed
    have hsame : ∀ {rules rules' : List Bytes}, (∀ rule, rule ∈ rules ↔ rule ∈ rules') →
        matchesAny clientIp rules' = matchesAny clientIp rules ∧ (rules' = [] ↔ rules = []) := by
      intro rules rules' h
      refine ⟨?_, by simp only [List.eq_nil_iff_forall_not_mem, h]⟩
      rw [Bool.eq_iff_iff]
      exact ⟨matchesAny_mono fun rule => (h rule).mpr, matchesAny_mono fun rule => (h rule).mp⟩
    rw [Bool.eq_iff_iff, isAllowed_eq_true_iff, isAllowed_eq_true_iff, (hsame hdenied).1, (hsame hallowed).1,
      (hsame hallowed).2]
  . intro deniedHosts' deniedNetworks' hsubset h
    rw [isAllowed_eq_true_iff] at h ⊢
    refine ⟨?_, h.2⟩
    rw [Bool.eq_false_iff]
    intro hmatches
    rw [matchesAny_mono hsubset hmatches] at h
    exact absurd h.1 (by decide)

theorem isQuad_single : IsQuad (bytes "10.0.5.1") 0x0A000501#32 :=
  .mk 10 0 5 1

theorem isRule_single : IsRule (bytes "10.0.0.0/8") 0x0A000000#32 8 :=
  have hne : bytes "8" ≠ [] := by decide
  .network (.mk 10 0 0 0) hne (by decide) (by decide)

theorem isAllowed_single
    : isAllowed (bytes "10.0.5.1") [] [bytes "10.0.0.0/8"] [bytes "10.0.5.1"] [] = false := by
  rw [← Bool.not_eq_true, (isAllowed_iff isQuad_single ?_).1]
  . rintro ⟨hdenied, -⟩
    exact hdenied _ (by simp) (isRule_single.mem_addresses_iff.mpr (by decide))
  . simp only [List.nil_append, List.append_nil, List.cons_append, List.mem_cons, List.not_mem_nil, or_false]
    rintro rule (rfl | rfl)
    . exact ⟨_, _, isRule_single⟩
    . exact ⟨_, _, .host isQuad_single⟩

end lists

end NetworkAccess
end SimpleRsyncd
