import SimpleRsyncd.Security.Envelope

/-!
This module contains which messages can make `verify` accept a signature. A raw signature is only checked
for the challenge and for preambles with the namespace of the daemon; a signature in an envelope is checked
for a preamble with the namespace that the envelope itself names.
-/

namespace SimpleRsyncd
namespace SshSignatureVerify

open SshPublicKeyImport

variable {Key : Type} (ssl : OpenSsl Key)

/--
The messages that a signature may be accepted for: the challenge itself, or a preamble with the default
namespace over it.
-/
def Intended (data message : Bytes) : Prop :=
  message = data ∨ ∃ hashAlg, message = buildOpenSshSignedDataV1 ssl kDefaultNamespace hashAlg data
    ∨ message = buildOpenSshSignedDataV0 ssl kDefaultNamespace hashAlg data

/--
Whatever the keys have signed, a signature is only accepted if an intended message was.
-/
def BindsNamespace (keyType keyDataB64 data signatureB64 : Bytes) : Prop :=
  ∀ oracle : SignatureOracle Key, verify ssl oracle keyType keyDataB64 data signatureB64 = true →
    ∃ pkey md message sigRaw, oracle pkey md message sigRaw = true ∧ Intended ssl data message

/--
The types for which a signature is checked at all.
-/
def isVerifiable (keyType sigType : Bytes) : Bool :=
  keyType = bytes "ssh-ed25519" || sigType = bytes "ssh-ed25519" || keyType = bytes "ssh-rsa"
    || sigType = bytes "ssh-rsa" || sigType = bytes "rsa-sha2-256" || sigType = bytes "rsa-sha2-512"
    || Bytes.startsWith keyType (bytes "ecdsa-sha2-")

/--
The key can be imported and the signature comes in an envelope with a namespace that is not the default
one, with types that are checked. The last condition leaves out a challenge that is its own preamble.
-/
def ForeignEnvelope (keyType keyDataB64 data signatureB64 : Bytes) : Prop :=
  (fromSshBlob ssl (ssl.base64Decode keyDataB64)).isSome = true
    ∧ ∃ envelope, parseSshSigEnvelope (ssl.base64Decode (normalizeSignatureInput signatureB64)) = some envelope
      ∧ isVerifiable keyType envelope.sigType = true ∧ envelope.namespaceName ≠ kDefaultNamespace
      ∧ signMessage ssl envelope data ≠ data

section inner

variable {oracle : SignatureOracle Key} {pkey : Key} {keyType sigType sigRaw message : Bytes}

theorem verifyInnerSignature_eq_true (h : verifyInnerSignature oracle pkey keyType sigType sigRaw message = true)
    : isVerifiable keyType sigType = true ∧ ∃ md, oracle pkey md message sigRaw = true := by
  unfold verifyInnerSignature at h
  split at h
  . next hed => exact ⟨by simp_all [isVerifiable], _, h⟩
  . split at h
    . next hrsa =>
      refine ⟨by simp only [isVerifiable]; simp_all, ?_⟩
      simp only at h
      split at h
      . next haccept => exact ⟨_, haccept⟩
      . split at h
        . exact ⟨_, h⟩
        . simp at h
    . split at h
      . next hec => exact ⟨by simp [isVerifiable, hec], _, h⟩
      . simp at h

theorem verifyInnerSignature_of_isVerifiable (h : isVerifiable keyType sigType = true)
    (haccept : ∀ md, oracle pkey md message sigRaw = true)
    : verifyInnerSignature oracle pkey keyType sigType sigRaw message = true := by
  unfold verifyInnerSignature
  split
  . exact haccept _
  . split
    . simp [haccept]
    . split
      . exact haccept _
      . simp_all [isVerifiable]

end inner

section preamble

variable {hashAlg hashAlg' data : Bytes}

/--
The preambles start with their magic and their namespace.
-/
theorem buildOpenSshSignedDataV1_eq (namespaceName hashAlg data : Bytes)
    : ∃ rest, buildOpenSshSignedDataV1 ssl namespaceName hashAlg data = magicV1 ++ (wireString namespaceName ++ rest) := by
  refine ⟨wireString [] ++ (wireString hashAlg ++ wireString (hashMessage ssl hashAlg data)), ?_⟩
  simp only [buildOpenSshSignedDataV1, appendWireString, List.append_assoc]

theorem buildOpenSshSignedDataV0_eq (namespaceName hashAlg data : Bytes)
    : ∃ rest, buildOpenSshSignedDataV0 ssl namespaceName hashAlg data = magicV0 ++ (wireString namespaceName ++ rest) := by
  refine ⟨[0] ++ (wireString hashAlg ++ wireString (hashMessage ssl hashAlg data)), ?_⟩
  simp only [buildOpenSshSignedDataV0, appendWireString, List.append_assoc]

theorem namespace_eq_of_preamble {magic namespaceName rest rest' : Bytes} (hlt : namespaceName.length < 4294967296)
    (h : magic ++ (wireString namespaceName ++ rest) = magic ++ (wireString kDefaultNamespace ++ rest'))
    : namespaceName = kDefaultNamespace :=
  (wireString_inj hlt (by decide) (List.append_cancel_left h)).1

/--
What is checked for an envelope is intended only with the default namespace.
-/
theorem intended_signMessage_iff {envelope : SshSigEnvelope} (hlt : envelope.namespaceName.length < 4294967296)
    : Intended ssl data (signMessage ssl envelope data)
      ↔ envelope.namespaceName = kDefaultNamespace ∨ signMessage ssl envelope data = data := by
  constructor
  . rintro (hdata | ⟨hashAlg, hpreamble⟩)
    . exact .inr hdata
    . left
      obtain ⟨rest₁, h₁⟩ := buildOpenSshSignedDataV1_eq ssl kDefaultNamespace hashAlg data
      obtain ⟨rest₀, h₀⟩ := buildOpenSshSignedDataV0_eq ssl kDefaultNamespace hashAlg data
      rw [h₁, h₀] at hpreamble
      unfold signMessage at hpreamble
      split at hpreamble
      . obtain ⟨rest, h⟩ := buildOpenSshSignedDataV1_eq ssl envelope.namespaceName envelope.hashAlg data
        rw [h] at hpreamble
        rcases hpreamble with hV1 | hV0
        . exact namespace_eq_of_preamble hlt hV1
        . exact absurd hV0 (magicV1_ne_magicV0 _ _)
      . obtain ⟨rest, h⟩ := buildOpenSshSignedDataV0_eq ssl envelope.namespaceName envelope.hashAlg data
        rw [h] at hpreamble
        rcases hpreamble with hV1 | hV0
        . exact absurd hV1.symm (magicV1_ne_magicV0 _ _)
        . exact namespace_eq_of_preamble hlt hV0
  . rintro (hnamespace | hdata)
    . refine .inr ⟨envelope.hashAlg, ?_⟩
      rw [signMessage, hnamespace]
      split
      . exact .inl rfl
      . exact .inr rfl
    . exact .inl hdata

end preamble

/--
A namespace that was read has a length that fits.
-/
theorem length_namespaceName {sigBlob : Bytes} {envelope : SshSigEnvelope}
    (h : parseSshSigEnvelope sigBlob = some envelope)
    : envelope.namespaceName.length < 4294967296 := by
  obtain ⟨_, _, _, _, hbody, -⟩ := isEnvelopeText_of_parse h
  obtain ⟨_, _, _, _, _, hlt, -⟩ := hbody
  exact hlt

/--
A raw signature is only accepted for intended messages.
-/
theorem intended_of_verifyRaw {oracle : SignatureOracle Key} {pkey : Key} {keyType sigBlob data : Bytes}
    (h : verifyRaw ssl oracle pkey keyType sigBlob data = true)
    : ∃ md message sigRaw, oracle pkey md message sigRaw = true ∧ Intended ssl data message := by
  unfold verifyRaw at h
  split at h
  . simp at h
  . split at h
    . simp at h
    . next sigRaw _ _ =>
      split at h
      . next hraw =>
        obtain ⟨-, md, haccept⟩ := verifyInnerSignature_eq_true hraw
        exact ⟨md, _, _, haccept, .inl rfl⟩
      . split at h
        . split at h
          . next hV1 =>
            obtain ⟨-, md, haccept⟩ := verifyInnerSignature_eq_true hV1
            exact ⟨md, _, _, haccept, .inr ⟨_, .inl rfl⟩⟩
          . obtain ⟨-, md, haccept⟩ := verifyInnerSignature_eq_true h
            exact ⟨md, _, _, haccept, .inr ⟨_, .inr rfl⟩⟩
        . simp at h

theorem isEnvelope_of_parse {sigBlob : Bytes} {envelope : SshSigEnvelope}
    (h : parseSshSigEnvelope sigBlob = some envelope)
    : isEnvelope sigBlob = true := by
  by_contra hnot
  simp only [isEnvelope, Bool.or_eq_true, not_or, Bool.not_eq_true] at hnot
  simp [parseSshSigEnvelope, hnot] at h

theorem fromSshBlob_nil : fromSshBlob ssl [] = none := rfl

theorem parseSshSigEnvelope_nil : parseSshSigEnvelope [] = none := by
  decide

/--
The namespace is bound if and only if the signature does not come in an envelope with another one.
-/
theorem bindsNamespace_iff (keyType keyDataB64 data signatureB64 : Bytes)
    : BindsNamespace ssl keyType keyDataB64 data signatureB64
      ↔ ¬ForeignEnvelope ssl keyType keyDataB64 data signatureB64 := by
  constructor
  . rintro hbinds ⟨hkey, envelope, hparse, hverifiable, hforeign, hdata⟩
    obtain ⟨pkey, hpkey⟩ := Option.isSome_iff_exists.mp hkey
    -- the key has signed the preamble with the foreign namespace and nothing else
    let oracle : SignatureOracle Key := fun _ _ message _ => message = signMessage ssl envelope data
    have hkeyBlob : (ssl.base64Decode keyDataB64).isEmpty = false := by
      rw [List.isEmpty_eq_false_iff]
      intro hempty
      simp [hempty, fromSshBlob_nil] at hpkey
    have hsigBlob : (ssl.base64Decode (normalizeSignatureInput signatureB64)).isEmpty = false := by
      rw [List.isEmpty_eq_false_iff]
      intro hempty
      simp [hempty, parseSshSigEnvelope_nil] at hparse
    have haccepted : verify ssl oracle keyType keyDataB64 data signatureB64 = true := by
      simp only [verify, hkeyBlob, hsigBlob, hpkey, isEnvelope_of_parse hparse, verifyEnvelope, hparse, Bool.or_self,
        Bool.false_eq_true, if_false, if_true]
      exact verifyInnerSignature_of_isVerifiable hverifiable fun _ => by simp [oracle]
    obtain ⟨_, _, message, _, haccept, hintended⟩ := hbinds oracle haccepted
    have hmessage : message = signMessage ssl envelope data := by simpa [oracle] using haccept
    rw [hmessage, intended_signMessage_iff ssl (length_namespaceName hparse)] at hintended
    rcases hintended with hnamespace | hsame
    . exact hforeign hnamespace
    . exact hdata hsame
  . intro hnot oracle haccepted
    simp only [verify] at haccepted
    split at haccepted
    . simp at haccepted
    . split at haccepted
      . simp at haccepted
      . next pkey hpkey =>
        split at haccepted
        . unfold verifyEnvelope at haccepted
          split at haccepted
          . simp at haccepted
          . next envelope hparse =>
            obtain ⟨hverifiable, md, haccept⟩ := verifyInnerSignature_eq_true haccepted
            refine ⟨pkey, md, _, _, haccept, ?_⟩
            rw [intended_signMessage_iff ssl (length_namespaceName hparse)]
            by_contra hneither
            rw [not_or] at hneither
            exact hnot ⟨by simp [hpkey], envelope, hparse, hverifiable, hneither.1, hneither.2⟩
        . obtain ⟨md, message, sigRaw, haccept, hintended⟩ := intended_of_verifyRaw ssl haccepted
          exact ⟨pkey, md, message, sigRaw, haccept, hintended⟩

section git

def keyBlob : Bytes := wireString (bytes "ssh-ed25519") ++ wireString (List.replicate 32 0)

def innerBlob : Bytes := wireString (bytes "ssh-ed25519") ++ wireString (List.replicate 64 0)

/--
What `ssh-keygen -Y sign -n git` puts into its envelope.
-/
def gitBlob : Bytes :=
  magicV1 ++ [0, 0, 0, 1] ++ wireString keyBlob ++ wireString (bytes "git") ++ wireString []
    ++ wireString (bytes "sha512") ++ wireString innerBlob

def keyB64 : Bytes :=
  bytes "AAAAC3NzaC1lZDI1NTE5AAAAIAAAAAAAAAAAAAAAAAAAAAAAAAAAAAAAAAAAAAAAAAAA"

def gitB64 : Bytes :=
  bytes "U1NIU0lHAAAAAQAAADMAAAALc3NoLWVkMjU1MTkAAAAgAAAAAAAAAAAAAAAAAAAAAAAAAAAAAAAAAAAAAAAAAAAA"
    ++ bytes "AAADZ2l0AAAAAAAAAAZzaGE1MTIAAABTAAAAC3NzaC1lZDI1NTE5AAAAQAAAAAAAAAAAAAAAAAAAAAAAAAAAAAAA"
    ++ bytes "AAAAAAAAAAAAAAAAAAAAAAAAAAAAAAAAAAAAAAAAAAAAAAAAAAAAAAA="

/--
The digest of the challenge `nonce`, and the two encodings above.
-/
def sampleSsl : OpenSsl Unit where
  base64Decode := fun encoded => if encoded = keyB64 then keyBlob else if encoded = gitB64 then gitBlob else []
  sha256 := fun _ => []
  sha512 := fun _ =>
    [13, 172, 250, 105, 251, 110, 97, 72, 95, 16, 255, 12, 193, 58, 248, 18,
      83, 0, 185, 74, 92, 16, 229, 82, 163, 249, 133, 68, 236, 146, 227, 192,
      27, 196, 81, 53, 213, 251, 131, 39, 200, 104, 130, 96, 191, 216, 194, 167,
      242, 239, 192, 55, 109, 108, 50, 72, 47, 67, 136, 248, 71, 64, 74, 107]
  rsaKey := fun _ _ => none
  ed25519Key := fun _ => some ()
  ecKey := fun _ _ => none

/--
A signature for the namespace of another tool logs in.
-/
theorem not_bindsNamespace_git : ¬BindsNamespace sampleSsl (bytes "ssh-ed25519") keyB64 (bytes "nonce") gitB64 := by
  intro hbinds
  let signed := buildOpenSshSignedDataV1 sampleSsl (bytes "git") (bytes "sha512") (bytes "nonce")
  have haccepted : verify sampleSsl (fun _ _ message _ => message = signed) (bytes "ssh-ed25519") keyB64
      (bytes "nonce") gitB64 = true := by
    decide +kernel
  obtain ⟨_, _, message, _, haccept, hintended⟩ := hbinds _ haccepted
  let envelope : SshSigEnvelope := {
    version := 1, namespaceName := bytes "git", hashAlg := bytes "sha512", sigType := [], sigRaw := []
  }
  have hmessage : message = signMessage sampleSsl envelope (bytes "nonce") := of_decide_eq_true haccept
  rw [hmessage, intended_signMessage_iff sampleSsl (by decide)] at hintended
  revert hintended
  decide

end git
end SshSignatureVerify
end SimpleRsyncd
