import SimpleRsyncd.Security.SshKey

/-!
This module determines under which digest an RSA signature has to verify. Where the digest that the label
of the signature names does not do, the signature is tried again under SHA-1.
-/

namespace SimpleRsyncd

/--
The labels that name a digest of the SHA-2 family.
-/
def namesSha2 (sigType : Bytes) : Prop :=
  sigType = bytes "rsa-sha2-256" ∨ sigType = bytes "rsa-sha2-512"

/--
The digest that a signature with such a label can be accepted for in place of the one that is named. A key
that is listed as an Ed25519 key is checked without any digest.
-/
def fallbackDigest (keyType : Bytes) : Option Digest :=
  if keyType = bytes "ssh-ed25519" then none else some .sha1

section inner

variable {Key : Type} {oracle : SignatureOracle Key} {pkey : Key} {keyType sigType sigRaw message : Bytes}

theorem verifyInnerSignature_of_namesSha2 (hlabel : namesSha2 sigType)
    : verifyInnerSignature oracle pkey keyType sigType sigRaw message
      = (oracle pkey (fallbackDigest keyType) message sigRaw
        || keyType ≠ bytes "ssh-ed25519" && oracle pkey (mdFromSshSigType sigType) message sigRaw) := by
  have hlabels : sigType ≠ bytes "ssh-ed25519" ∧ sigType ≠ bytes "ssh-rsa"
      ∧ (sigType = bytes "rsa-sha2-256" ∨ sigType = bytes "rsa-sha2-512")
      ∧ some ((mdFromSshSigType sigType).getD .sha256) = mdFromSshSigType sigType := by
    rcases hlabel with rfl | rfl <;> decide
  obtain ⟨hed, hrsa, hsha2, hnamed⟩ := hlabels
  unfold verifyInnerSignature fallbackDigest
  by_cases hkey : keyType = bytes "ssh-ed25519"
  . simp [hkey]
  . have hbranch : (keyType = bytes "ssh-rsa" || sigType = bytes "ssh-rsa" || sigType = bytes "rsa-sha2-256"
        || sigType = bytes "rsa-sha2-512") = true := by
      rcases hsha2 with rfl | rfl <;> simp
    rw [if_neg (by simp [hkey, hed]), if_pos hbranch]
    simp only [hnamed, if_neg hkey, if_pos hrsa]
    cases oracle pkey (mdFromSshSigType sigType) message sigRaw <;> simp [hkey]

end inner

namespace SshSignatureVerify

variable {Key : Type} (ssl : OpenSsl Key)

/--
The label and the raw bytes of a signature, with and without an envelope.
-/
def signatureOf (sigBlob : Bytes) : Option (Bytes × Bytes) :=
  if isEnvelope sigBlob then
    (parseSshSigEnvelope sigBlob).map fun envelope => (envelope.sigType, envelope.sigRaw)
  else
    match SshWireReader.readString { data := sigBlob } with
    | (none, _) => none
    | (some sigType, reader) => reader.readString.1.map (sigType, ·)

/--
The messages that a signature is checked for. Only a key that is listed as an Ed25519 key is also checked
for messages with a preamble the signature does not have.
-/
def checkedMessages (keyType sigBlob data : Bytes) : List Bytes :=
  if isEnvelope sigBlob then
    (parseSshSigEnvelope sigBlob).toList.map fun envelope => signMessage ssl envelope data
  else if keyType = bytes "ssh-ed25519" then
    [
      data,
      buildOpenSshSignedDataV1 ssl kDefaultNamespace (bytes "sha512") data,
      buildOpenSshSignedDataV0 ssl kDefaultNamespace (bytes "sha512") data
    ]
  else
    [data]

variable {ssl} {oracle : SignatureOracle Key} {pkey : Key} {keyType keyDataB64 data signatureB64 : Bytes}
  {sigType sigRaw : Bytes}

/--
The signature is accepted exactly if it verifies for one of the messages.
-/
theorem verify_eq_any (hkey : SshPublicKeyImport.fromSshBlob ssl (ssl.base64Decode keyDataB64) = some pkey)
    (hsignature : signatureOf (ssl.base64Decode (normalizeSignatureInput signatureB64)) = some (sigType, sigRaw))
    : verify ssl oracle keyType keyDataB64 data signatureB64
      = (checkedMessages ssl keyType (ssl.base64Decode (normalizeSignatureInput signatureB64)) data).any fun message =>
          verifyInnerSignature oracle pkey keyType sigType sigRaw message := by
  have hkeyBlob : (ssl.base64Decode keyDataB64).isEmpty = false := by
    rw [List.isEmpty_eq_false_iff]
    intro hempty
    rw [hempty] at hkey
    contradiction
  unfold verify
  dsimp only
  rw [hkey]
  -- from here on only the decoded blob matters
  generalize ssl.base64Decode (normalizeSignatureInput signatureB64) = sigBlob at hsignature ⊢
  have hsigBlob : sigBlob.isEmpty = false := by
    rw [List.isEmpty_eq_false_iff]
    rintro rfl
    simp [signatureOf, isEnvelope, magicV0, magicV1, Bytes.startsWith, bytes, SshWireReader.readString] at hsignature
  simp only [hkeyBlob, hsigBlob, Bool.or_self, Bool.false_eq_true, if_false]
  unfold signatureOf at hsignature
  unfold checkedMessages
  split
  . next henvelope =>
    rw [if_pos henvelope] at hsignature
    obtain ⟨envelope, hparse, hparts⟩ := Option.map_eq_some_iff.mp hsignature
    obtain ⟨rfl, rfl⟩ := Prod.mk.inj hparts
    simp [verifyEnvelope, hparse]
  . next henvelope =>
    rw [if_neg henvelope] at hsignature
    unfold verifyRaw
    rcases hlabel : SshWireReader.readString { data := sigBlob } with ⟨_ | label, reader⟩
    . rw [hlabel] at hsignature
      contradiction
    . rw [hlabel] at hsignature
      obtain ⟨raw, hraw, hparts⟩ := Option.map_eq_some_iff.mp hsignature
      obtain ⟨rfl, rfl⟩ := Prod.mk.inj hparts
      simp only
      obtain ⟨rest, hread⟩ : ∃ rest, reader.readString = (some raw, rest) := ⟨_, Prod.ext hraw rfl⟩
      rw [hread]
      simp only
      by_cases hed : keyType = bytes "ssh-ed25519" <;> simp [hed]

variable (ssl)

/--
A signature with a label of the SHA-2 family is only accepted if it verifies under the digest of its label
if and only if the other digest that is tried accepts nothing more.
-/
theorem binds_digest_iff (hlabel : namesSha2 sigType)
    : (∀ message,
          (verifyInnerSignature oracle pkey keyType sigType sigRaw message = true →
            oracle pkey (mdFromSshSigType sigType) message sigRaw = true)
            ↔
          (oracle pkey (fallbackDigest keyType) message sigRaw = true →
            oracle pkey (mdFromSshSigType sigType) message sigRaw = true))
        ∧ ∀ keyDataB64 data signatureB64,
          SshPublicKeyImport.fromSshBlob ssl (ssl.base64Decode keyDataB64) = some pkey →
          signatureOf (ssl.base64Decode (normalizeSignatureInput signatureB64)) = some (sigType, sigRaw) →
          let messages := checkedMessages ssl keyType (ssl.base64Decode (normalizeSignatureInput signatureB64)) data
          (verify ssl oracle keyType keyDataB64 data signatureB64 = true →
            ∃ message ∈ messages, oracle pkey (mdFromSshSigType sigType) message sigRaw = true)
            ↔
          ((∃ message ∈ messages, oracle pkey (fallbackDigest keyType) message sigRaw = true) →
            ∃ message ∈ messages, oracle pkey (mdFromSshSigType sigType) message sigRaw = true) := by
  constructor
  . intro message
    rw [verifyInnerSignature_of_namesSha2 hlabel]
    cases oracle pkey (mdFromSshSigType sigType) message sigRaw <;> simp
  . intro keyDataB64 data signatureB64 hkey hsignature messages
    rw [verify_eq_any hkey hsignature]
    simp only [verifyInnerSignature_of_namesSha2 hlabel, List.any_eq_true, Bool.or_eq_true, Bool.and_eq_true]
    constructor
    . rintro hbinds ⟨message, hmem, hfallback⟩
      exact hbinds ⟨message, hmem, .inl hfallback⟩
    . rintro hbinds ⟨message, hmem, hfallback | ⟨-, hnamed⟩⟩
      . exact hbinds ⟨message, hmem, hfallback⟩
      . exact ⟨message, hmem, hnamed⟩

/--
Any exponent and modulus make the one key there is.
-/
def singleRsaKey : OpenSsl Unit where
  base64Decode text := text
  sha256 message := message
  sha512 message := message
  rsaKey _ _ := some ()
  ed25519Key _ := none
  ecKey _ _ := none

/--
A signature of the message `nonce` that has been made under one digest.
-/
def madeUnder (digest : Digest) : SignatureOracle Unit :=
  fun _ md message _ => md = some digest ∧ message = bytes "nonce"

theorem binds_digest_single
    : namesSha2 (bytes "rsa-sha2-512")
        ∧ (verifyInnerSignature (madeUnder .sha512) () (bytes "ssh-rsa") (bytes "rsa-sha2-512") [] (bytes "nonce") = true →
            madeUnder .sha512 () (mdFromSshSigType (bytes "rsa-sha2-512")) (bytes "nonce") [] = true) :=
  ⟨.inr rfl, ((binds_digest_iff singleRsaKey (.inr rfl)).1 (bytes "nonce")).mpr fun _ => by decide⟩

/--
A signature that has been made under SHA-1 is accepted with the label of SHA-512.
-/
theorem not_binds_digest_single
    : verifyInnerSignature (madeUnder .sha1) () (bytes "ssh-rsa") (bytes "rsa-sha2-512") [] (bytes "nonce") = true
        ∧ madeUnder .sha1 () (mdFromSshSigType (bytes "rsa-sha2-512")) (bytes "nonce") [] = false := by
  decide

end SshSignatureVerify
end SimpleRsyncd
