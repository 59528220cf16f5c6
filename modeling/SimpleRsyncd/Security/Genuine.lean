import SimpleRsyncd.Security.DigestBinding
import SimpleRsyncd.Security.Envelope
import SimpleRsyncd.Security.RawSignature

/-!
This module contains what a signer does, and that every signature that has been made that way is accepted:
with and without an envelope, for every type of key and every digest that the type of a signature names.
-/

namespace SimpleRsyncd

open SshPublicKeyImport

/--
The types of keys and of their signatures, and the digest such a signature is made with. An Ed25519 key has
its own.
-/
def signers : List (Bytes × Bytes × Option Digest) := [
  (bytes "ssh-ed25519", bytes "ssh-ed25519", none),
  (bytes "ssh-rsa", bytes "rsa-sha2-256", some .sha256),
  (bytes "ssh-rsa", bytes "rsa-sha2-512", some .sha512),
  (bytes "ssh-rsa", bytes "ssh-rsa", some .sha1),
  (bytes "ecdsa-sha2-nistp256", bytes "ecdsa-sha2-nistp256", some .sha256),
  (bytes "ecdsa-sha2-nistp384", bytes "ecdsa-sha2-nistp384", some .sha384),
  (bytes "ecdsa-sha2-nistp521", bytes "ecdsa-sha2-nistp521", some .sha512)
]

section signature

variable {Key : Type} (ssl : OpenSsl Key) (oracle : SignatureOracle Key)

/--
A signer has signed `message` to answer the challenge `data`, and written the type of the signature and its
bytes down as a blob.
-/
inductive SignatureBlob (data : Bytes) : Bytes → Bytes → Bytes → Bytes → Prop where
  /-- The challenge itself is signed. -/
  | raw {sigType sigRaw : Bytes} (hType : sigType.length < 1073741824) (hRaw : sigRaw.length < 4294967296)
    : SignatureBlob data data sigType sigRaw (signatureBlob sigType sigRaw)
  /-- The preamble that the envelope tells is signed. -/
  | envelope {envelope : SshSigEnvelope} {blob : Bytes} (h : IsEnvelopeText envelope blob)
    : SignatureBlob data (SshSignatureVerify.signMessage ssl envelope data) envelope.sigType envelope.sigRaw blob

/--
A blob with a signature whose bytes OpenSSL verifies with the key, under the digest its types stand for.
-/
def Genuine (pkey : Key) (keyType data blob : Bytes) : Prop :=
  ∃ message sigType sigRaw md, SignatureBlob ssl data message sigType sigRaw blob
    ∧ (keyType, sigType, md) ∈ signers ∧ oracle pkey md message sigRaw = true

variable {ssl oracle} {pkey : Key} {keyType sigType sigRaw message data blob : Bytes} {md : Option Digest}

/--
The digest that a signature is checked under first.
-/
def firstDigest (keyType sigType : Bytes) : Option Digest :=
  if keyType = bytes "ssh-ed25519" || sigType = bytes "ssh-ed25519" then
    none
  else if keyType = bytes "ssh-rsa" || sigType = bytes "ssh-rsa" || sigType = bytes "rsa-sha2-256"
      || sigType = bytes "rsa-sha2-512" then
    some ((mdFromSshSigType sigType).getD .sha256)
  else if Bytes.contains sigType (bytes "nistp384") then
    some .sha384
  else if Bytes.contains sigType (bytes "nistp521") then
    some .sha512
  else
    some .sha256

theorem verifyInnerSignature_of_firstDigest (h : SshSignatureVerify.isVerifiable keyType sigType = true)
    (hsigned : oracle pkey (firstDigest keyType sigType) message sigRaw = true)
    : verifyInnerSignature oracle pkey keyType sigType sigRaw message = true := by
  unfold firstDigest at hsigned
  unfold verifyInnerSignature
  split
  . next hed => rwa [if_pos hed] at hsigned
  . next hed =>
    rw [if_neg hed] at hsigned
    split
    . next hrsa =>
      rw [if_pos hrsa] at hsigned
      simp [hsigned]
    . next hrsa =>
      have hec : Bytes.startsWith keyType (bytes "ecdsa-sha2-") = true := by
        simp_all [SshSignatureVerify.isVerifiable]
      rw [if_neg hrsa] at hsigned
      rw [if_pos hec]
      dsimp only
      split
      . next hcurve => rwa [if_pos hcurve] at hsigned
      . next hcurve =>
        rw [if_neg hcurve] at hsigned
        split
        . next hcurve' => rwa [if_pos hcurve'] at hsigned
        . next hcurve' => rwa [if_neg hcurve'] at hsigned

/--
Whatever a signer does is tried first.
-/
theorem firstDigest_of_signers
    : ∀ e ∈ signers, SshSignatureVerify.isVerifiable e.1 e.2.1 = true ∧ firstDigest e.1 e.2.1 = e.2.2
      ∧ (e.1 = bytes "ssh-rsa" || Bytes.startsWith e.1 (bytes "ecdsa-sha2-") || e.1 = bytes "ssh-ed25519") = true := by
  decide

theorem SignatureBlob.signatureOf (h : SignatureBlob ssl data message sigType sigRaw blob)
    : SshSignatureVerify.signatureOf blob = some (sigType, sigRaw)
        ∧ ∀ keyType, message ∈ SshSignatureVerify.checkedMessages ssl keyType blob data := by
  cases h with
  | raw hType hRaw =>
    have hraw : SshSignatureVerify.isEnvelope (signatureBlob sigType sigRaw) = false :=
      SshSignatureVerify.isEnvelope_signatureBlob hType
    obtain ⟨reader, reader', hreadType, hreadRaw⟩ := SshSignatureVerify.readString_signatureBlob hType hRaw
    constructor
    . rw [SshSignatureVerify.signatureOf, if_neg (by simp [hraw]), hreadType]
      simp [hreadRaw]
    . intro keyType
      rw [SshSignatureVerify.checkedMessages, if_neg (by simp [hraw])]
      split <;> simp
  | envelope hblob =>
    have hparse := parse_of_isEnvelopeText hblob
    have henvelope := SshSignatureVerify.isEnvelope_of_parse hparse
    constructor
    . rw [SshSignatureVerify.signatureOf, if_pos henvelope, hparse]
      rfl
    . intro keyType
      rw [SshSignatureVerify.checkedMessages, if_pos henvelope, hparse]
      simp

/--
A genuine signature is accepted.
-/
theorem Genuine.verify {keyDataB64 signatureB64 : Bytes}
    (hkey : fromSshBlob ssl (ssl.base64Decode keyDataB64) = some pkey)
    (hblob : ssl.base64Decode (SshSignatureVerify.normalizeSignatureInput signatureB64) = blob)
    (h : Genuine ssl oracle pkey keyType data blob)
    : SshSignatureVerify.verify ssl oracle keyType keyDataB64 data signatureB64 = true := by
  obtain ⟨message, sigType, sigRaw, md, hsignature, hmem, hsigned⟩ := h
  obtain ⟨hverifiable, hdigest, -⟩ := firstDigest_of_signers _ hmem
  obtain ⟨hparts, hchecked⟩ := hsignature.signatureOf
  subst hblob
  rw [SshSignatureVerify.verify_eq_any hkey hparts, List.any_eq_true]
  refine ⟨message, hchecked keyType, verifyInnerSignature_of_firstDigest hverifiable ?_⟩
  rw [hdigest]
  exact hsigned

end signature
end SimpleRsyncd
