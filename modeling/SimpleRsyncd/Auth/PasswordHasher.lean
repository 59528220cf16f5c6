import SimpleRsyncd.Bytes.Text
import SimpleRsyncd.Time.Basic

/-!
This module contains the hashing of passwords and the password policy. The digest is a parameter:
`sha256` gives the bytes `EVP_sha256` computes of a string.
-/

namespace SimpleRsyncd

/--
What the random number generator and OpenSSL do during one call.
-/
structure CryptoOutcome where
  entropy : Bytes
  digestFails : Bool := false
  deriving DecidableEq

namespace PasswordHasher

variable (sha256 : Bytes → Bytes)

def generateSalt (outcome : CryptoOutcome) : Bytes :=
  Bytes.hex outcome.entropy

/--
`sha256:salt:hash`, empty if the digest could not be computed.
-/
def hashPassword (outcome : CryptoOutcome) (password salt : Bytes) : Bytes :=
  let actualSalt := if salt.isEmpty then generateSalt outcome else salt
  if outcome.digestFails then
    []
  else
    bytes "sha256:" ++ (actualSalt ++ colon :: Bytes.hex (sha256 (actualSalt ++ password)))

def isHashed (hash : Bytes) : Bool :=
  Bytes.startsWith hash (bytes "sha256:")

/--
What follows the second colon, all of a string that does not have two.
-/
def hashPart (hash : Bytes) : Bytes :=
  match Bytes.cut colon hash with
  | none => hash
  | some (_, rest) =>
    match Bytes.cut colon rest with
    | none => hash
    | some (_, part) => part

def verifyPassword (outcome : CryptoOutcome) (password hash : Bytes) : Bool :=
  if !isHashed hash then
    -- passwords in plain text are accepted for compatibility
    password == hash
  else
    match Bytes.cut colon hash with
    | none => false
    | some (algorithm, rest) =>
      match Bytes.cut colon rest with
      | none => false
      | some (salt, storedHash) =>
        if algorithm ≠ bytes "sha256" then
          false
        else
          storedHash == hashPart (hashPassword sha256 outcome password salt)

theorem hexDigit_mem (n : UInt8) (h : n < 16)
    : Bytes.hexDigit n ∈ bytes "0123456789abcdef" := by
  have hcases : ∀ n : Fin 16, Bytes.hexDigit (UInt8.ofNat n) ∈ bytes "0123456789abcdef" := by decide
  have hn : n.toNat < 16 := h
  simpa using hcases ⟨n.toNat, hn⟩

theorem mem_hex {c : UInt8} {s : Bytes} (h : c ∈ Bytes.hex s) : c ∈ bytes "0123456789abcdef" := by
  simp only [Bytes.hex, List.mem_flatMap, List.mem_cons, List.not_mem_nil, or_false] at h
  obtain ⟨b, -, rfl | rfl⟩ := h
  . apply hexDigit_mem
    rw [UInt8.lt_iff_toNat_lt, UInt8.toNat_div]
    have := b.toNat_lt
    simp
    omega
  . apply hexDigit_mem
    rw [UInt8.lt_iff_toNat_lt, UInt8.toNat_mod]
    simp
    omega

/--
A computed hash is empty or consists of three fields that contain neither colons nor newlines.
-/
theorem hashPassword_cases (outcome : CryptoOutcome) (password : Bytes)
    : hashPassword sha256 outcome password [] = []
      ∨ ∃ salt digest, hashPassword sha256 outcome password [] = bytes "sha256:" ++ (salt ++ colon :: digest)
        ∧ colon ∉ salt ∧ newline ∉ salt ∧ newline ∉ digest := by
  simp only [hashPassword, List.isEmpty_nil, if_true]
  split
  . exact .inl rfl
  . refine .inr ⟨_, _, rfl, ?_, ?_, ?_⟩
    all_goals
      intro hmem
      have := mem_hex hmem
      revert this
      decide

end PasswordHasher

@[ext]
structure PasswordPolicy where
  minLength : Nat := 8
  requireUppercase : Bool := false
  requireLowercase : Bool := false
  requireDigits : Bool := false
  requireSpecial : Bool := false
  expirationHours : Int := 2160
  deriving DecidableEq

namespace PasswordPolicyValidator

def isupper (c : UInt8) : Bool := 65 ≤ c && c ≤ 90

def islower (c : UInt8) : Bool := 97 ≤ c && c ≤ 122

def isdigit (c : UInt8) : Bool := 48 ≤ c && c ≤ 57

def isalnum (c : UInt8) : Bool := isupper c || islower c || isdigit c

def meetsComplexityRequirements (password : Bytes) (policy : PasswordPolicy) : Bool :=
  let hasUppercase := password.any isupper
  let hasLowercase := password.any islower
  let hasDigit := password.any isdigit
  let hasSpecial := password.any (!isalnum ·)
  if policy.requireUppercase && !hasUppercase then
    false
  else if policy.requireLowercase && !hasLowercase then
    false
  else if policy.requireDigits && !hasDigit then
    false
  else if policy.requireSpecial && !hasSpecial then
    false
  else
    true

/--
Whether a password is valid, with the message why it is not.
-/
def validatePassword (password : Bytes) (policy : PasswordPolicy) : Bool × Bytes :=
  if password.length < policy.minLength then
    (false, bytes "Password must be at least " ++ Bytes.ofNat policy.minLength ++ bytes " characters long")
  else if !meetsComplexityRequirements password policy then
    let requirements :=
      (if policy.requireUppercase then bytes "uppercase letter, " else [])
        ++ (if policy.requireLowercase then bytes "lowercase letter, " else [])
        ++ (if policy.requireDigits then bytes "digit, " else [])
        ++ (if policy.requireSpecial then bytes "special character, " else [])
    if !requirements.isEmpty then
      (false, bytes "Password must contain: " ++ requirements.take (requirements.length - 2))
    else
      (true, [])
  else
    (true, [])

end PasswordPolicyValidator
end SimpleRsyncd
