import SimpleRsyncd.Auth.PasswordHasher

/-!
This module determines which stored hashes a password is accepted for. The check hashes the password with
the salt it has read, but an empty salt makes `hashPassword` take a new random one.
-/

namespace SimpleRsyncd

namespace Bytes

theorem hexDigit_injective {n m : UInt8} (hn : n < 16) (hm : m < 16) (h : hexDigit n = hexDigit m) : n = m := by
  have hcases : ∀ n m : Fin 16, hexDigit (UInt8.ofNat n) = hexDigit (UInt8.ofNat m) → n = m := by decide
  have hfin := hcases ⟨n.toNat, hn⟩ ⟨m.toNat, hm⟩ (by simpa using h)
  exact UInt8.toNat_inj.mp (Fin.mk.inj hfin)

theorem hex_injective : Function.Injective hex := by
  intro s t h
  induction s generalizing t with
  | nil => cases t <;> simp_all [hex]
  | cons b s ih =>
    cases t with
    | nil => simp [hex] at h
    | cons c t =>
      simp only [hex, List.flatMap_cons, List.cons_append, List.nil_append, List.cons.injEq] at h
      obtain ⟨hhigh, hlow, hrest⟩ := h
      have hdiv : ∀ b : UInt8, b / 16 < 16 := by
        intro b
        rw [UInt8.lt_iff_toNat_lt, UInt8.toNat_div]
        have := b.toNat_lt
        simp
        omega
      have hmod : ∀ b : UInt8, b % 16 < 16 := by
        intro b
        rw [UInt8.lt_iff_toNat_lt, UInt8.toNat_mod]
        simp
        omega
      have hhigh' := hexDigit_injective (hdiv b) (hdiv c) hhigh
      have hlow' := hexDigit_injective (hmod b) (hmod c) hlow
      have hbc : b = c := by
        rw [← UInt8.toNat_inj] at hhigh' hlow' ⊢
        simp only [UInt8.toNat_div, UInt8.toNat_mod, UInt8.reduceToNat] at hhigh' hlow'
        omega
      rw [hbc, ih hrest]

end Bytes

namespace PasswordHasher

variable {sha256 : Bytes → Bytes} {outcome outcome' : CryptoOutcome} {password salt digest : Bytes}

/--
The salt that is hashed.
-/
def usedSalt (outcome : CryptoOutcome) (salt : Bytes) : Bytes :=
  if salt.isEmpty then generateSalt outcome else salt

theorem colon_notMem_hex (s : Bytes) : colon ∉ Bytes.hex s := by
  intro hmem
  exact absurd (mem_hex hmem) (by decide)

theorem colon_notMem_usedSalt (hsalt : colon ∉ salt) : colon ∉ usedSalt outcome salt := by
  unfold usedSalt
  split
  . exact colon_notMem_hex _
  . exact hsalt

/--
The text `sha256:salt:digest`.
-/
def stored (salt digest : Bytes) : Bytes :=
  bytes "sha256:" ++ (salt ++ colon :: digest)

theorem hashPassword_eq_stored (hdigest : outcome.digestFails = false)
    : hashPassword sha256 outcome password salt
      = stored (usedSalt outcome salt) (Bytes.hex (sha256 (usedSalt outcome salt ++ password))) := by
  simp [hashPassword, hdigest, usedSalt, stored]

theorem cut_stored : Bytes.cut colon (stored salt digest) = some (bytes "sha256", salt ++ colon :: digest) := by
  have htext : stored salt digest = bytes "sha256" ++ colon :: (salt ++ colon :: digest) := by
    have hprefix : bytes "sha256:" = bytes "sha256" ++ [colon] := by decide
    simp [stored, hprefix]
  rw [htext, Bytes.cut_append (by decide)]

theorem hashPart_stored (hsalt : colon ∉ salt) : hashPart (stored salt digest) = digest := by
  rw [hashPart, cut_stored]
  simp only [Bytes.cut_append hsalt]

theorem verifyPassword_stored (hsalt : colon ∉ salt) (hdigest : outcome.digestFails = false)
    : verifyPassword sha256 outcome password (stored salt digest) = true
        ↔
      digest = Bytes.hex (sha256 (usedSalt outcome salt ++ password)) := by
  have hhashed : isHashed (stored salt digest) = true := by
    simp [isHashed, stored, Bytes.startsWith]
  rw [verifyPassword, hhashed, cut_stored]
  simp only [Bytes.cut_append hsalt, hashPassword_eq_stored hdigest, hashPart_stored (colon_notMem_usedSalt hsalt)]
  simp

/--
A password is accepted for exactly the digest of the salt and the password if and only if there is a salt,
or if the salt that is made up makes no difference to the digest. In any case it is accepted for its own
hash.
-/
theorem verifyPassword_exact_iff (password : Bytes) (hsalt : colon ∉ salt) (hdigest : outcome.digestFails = false)
    : ((∀ digest, verifyPassword sha256 outcome password (stored salt digest) = true
            ↔ digest = Bytes.hex (sha256 (salt ++ password)))
          ↔
        salt ≠ [] ∨ sha256 (generateSalt outcome ++ password) = sha256 password)
        ∧ ∀ outcome' : CryptoOutcome, outcome'.digestFails = false → outcome'.entropy.length = 16 →
          verifyPassword sha256 outcome password (hashPassword sha256 outcome' password salt) = true := by
  constructor
  . simp only [verifyPassword_stored hsalt hdigest]
    constructor
    . intro hexact
      have hhex := (hexact _).mp rfl
      by_cases hempty : salt = []
      . subst hempty
        exact .inr (Bytes.hex_injective hhex)
      . exact .inl hempty
    . rintro (hne | hsame) digest
      . simp [usedSalt, hne]
      . cases salt with
        | nil => simp [usedSalt, hsame]
        | cons => simp [usedSalt]
  . intro outcome' hdigest' hentropy
    have hne : usedSalt outcome' salt ≠ [] := by
      unfold usedSalt
      split
      . intro hnil
        rw [generateSalt, Bytes.hex, List.flatMap_eq_nil_iff] at hnil
        obtain ⟨b, hb⟩ := List.exists_mem_of_length_pos (l := outcome'.entropy) (by omega)
        simpa using hnil b hb
      . next hne => simpa using hne
    have hself : usedSalt outcome (usedSalt outcome' salt) = usedSalt outcome' salt := by
      rw [usedSalt, if_neg (by simpa using hne)]
    rw [hashPassword_eq_stored hdigest', verifyPassword_stored (colon_notMem_usedSalt hsalt) hdigest, hself]

/--
SHA-256 of three texts, the last one begins with the salt that is made of sixteen times the byte 7.
-/
def sampleSha256 (text : Bytes) : Bytes :=
  if text = bytes "spw" then [
    49, 100, 45, 20, 238, 131, 174, 152, 175, 91, 29, 178, 129, 102, 80, 18, 24, 8, 173, 229, 133,
    144, 183, 74, 137, 113, 105, 207, 177, 216, 142, 138
  ]
  else if text = bytes "pw" then [
    48, 201, 82, 250, 177, 34, 195, 249, 117, 159, 2, 166, 217, 92, 55, 88, 178, 70, 180, 254, 226,
    57, 149, 123, 45, 79, 238, 70, 226, 97, 112, 196
  ]
  else if text = bytes "07070707070707070707070707070707pw" then [
    53, 50, 64, 251, 81, 136, 138, 9, 148, 253, 1, 211, 174, 45, 13, 135, 63, 219, 221, 105, 13,
    110, 11, 196, 179, 89, 248, 147, 225, 236, 83, 92
  ]
  else []

def sampleOutcome : CryptoOutcome :=
  { entropy := List.replicate 16 7 }

theorem verifyPassword_exact_single
    : verifyPassword sampleSha256 sampleOutcome (bytes "pw")
      (stored (bytes "s") (Bytes.hex (sampleSha256 (bytes "spw")))) = true :=
  ((verifyPassword_exact_iff (bytes "pw") (by decide) rfl).1.mpr (.inl (by decide)) _).mpr rfl

/--
Without a salt the digest of the password is not accepted for it.
-/
theorem not_verifyPassword_exact_single
    : ¬∀ digest, verifyPassword sampleSha256 sampleOutcome (bytes "pw") (stored [] digest) = true
      ↔ digest = Bytes.hex (sampleSha256 ([] ++ bytes "pw")) := by
  intro hexact
  have haccepted := (hexact (Bytes.hex (sampleSha256 (bytes "pw")))).mpr rfl
  exact absurd haccepted (by decide)

end PasswordHasher
end SimpleRsyncd
