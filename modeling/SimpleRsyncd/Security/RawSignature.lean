import SimpleRsyncd.Security.Namespace

/-!
This module contains the signatures that do not come in an envelope. They start with the length of their
type, which is too small to be taken for a magic.
-/

namespace SimpleRsyncd

/--
What `buildSignatureBlob` encodes.
-/
def SshPublicKeyImport.signatureBlob (sigType sigRaw : Bytes) : Bytes :=
  let blob := appendWireString [] sigType
  appendWireString blob sigRaw

def SshPublicKeyImport.buildSignatureBlob (base64Encode : Bytes → Bytes) (sigType sigRaw : Bytes) : Bytes :=
  base64Encode (signatureBlob sigType sigRaw)

namespace SshSignatureVerify

open SshPublicKeyImport

variable {Key : Type} (ssl : OpenSsl Key) (oracle : SignatureOracle Key)

/--
The checks of the raw branch, once type and signature are known.
-/
def acceptsRaw (pkey : Key) (keyType sigType sigRaw data : Bytes) : Bool :=
  verifyInnerSignature oracle pkey keyType sigType sigRaw data
    || keyType = bytes "ssh-ed25519"
      && (verifyInnerSignature oracle pkey keyType sigType sigRaw
          (buildOpenSshSignedDataV1 ssl kDefaultNamespace (bytes "sha512") data)
        || verifyInnerSignature oracle pkey keyType sigType sigRaw
          (buildOpenSshSignedDataV0 ssl kDefaultNamespace (bytes "sha512") data))

section blob

variable {sigType sigRaw : Bytes}

theorem signatureBlob_eq (sigType sigRaw : Bytes)
    : signatureBlob sigType sigRaw = wireString sigType ++ (wireString sigRaw ++ []) := by
  rw [List.append_nil]
  rfl

theorem head_of_startsWith_magic {sigBlob : Bytes} (h : isEnvelope sigBlob = true) : sigBlob.head? = some 83 := by
  rw [isEnvelope, Bool.or_eq_true, Bytes.startsWith_iff, Bytes.startsWith_iff] at h
  rcases h with ⟨s, rfl⟩ | ⟨s, rfl⟩
  . rfl
  . rfl

/--
The first byte of a length below 2^30 is below 64.
-/
theorem isEnvelope_signatureBlob (hType : sigType.length < 1073741824)
    : isEnvelope (signatureBlob sigType sigRaw) = false := by
  rw [← Bool.not_eq_true]
  intro henvelope
  have hhead := head_of_startsWith_magic henvelope
  rw [signatureBlob_eq, wireString, wireLength] at hhead
  simp only [List.cons_append, List.head?_cons, Option.some.injEq, ← UInt8.toNat_inj, UInt8.toNat_ofNat'] at hhead
  have : sigType.length / 16777216 % 256 = 83 := hhead
  omega

theorem readString_signatureBlob (hType : sigType.length < 1073741824) (hRaw : sigRaw.length < 4294967296)
    : ∃ reader reader', SshWireReader.readString { data := signatureBlob sigType sigRaw } = (some sigType, reader)
      ∧ reader.readString = (some sigRaw, reader') := by
  obtain ⟨reader, hread, hrest⟩ := SshWireReader.exists_readString
    { data := signatureBlob sigType sigRaw } (by omega) (signatureBlob_eq sigType sigRaw)
  obtain ⟨reader', hread', -⟩ := SshWireReader.exists_readString _ hRaw hrest
  exact ⟨reader, reader', hread, hread'⟩

end blob

theorem verifyRaw_of_readString {pkey : Key} {keyType sigBlob sigType sigRaw data : Bytes} {reader reader' : SshWireReader}
    (hType : SshWireReader.readString { data := sigBlob } = (some sigType, reader))
    (hRaw : reader.readString = (some sigRaw, reader'))
    : verifyRaw ssl oracle pkey keyType sigBlob data = acceptsRaw ssl oracle pkey keyType sigType sigRaw data := by
  simp only [verifyRaw, hType, hRaw, acceptsRaw]
  split
  . next haccept => rw [haccept, Bool.true_or]
  . next hreject =>
    rw [Bool.not_eq_true] at hreject
    rw [hreject, Bool.false_or]
    split
    . next hed =>
      simp only [hed, decide_true, Bool.true_and]
      split
      . next haccept => rw [haccept, Bool.true_or]
      . next hreject =>
        rw [Bool.not_eq_true] at hreject
        rw [hreject, Bool.false_or]
    . next hed => simp only [hed, decide_false, Bool.false_and]

/--
A text without hyphens has no armor.
-/
theorem normalizeSignatureInput_eq_self {signature : Bytes} (h : 45 ∉ signature)
    : normalizeSignatureInput signature = signature := by
  have hbegin : Bytes.find (bytes "-----BEGIN SSH SIGNATURE-----") signature = none := by
    rw [Bytes.find_eq_none_iff]
    intro hin
    exact h (hin.subset (by decide))
  rw [normalizeSignatureInput, hbegin]

theorem fromSshBlob_of_isEmpty {keyBlob : Bytes} (h : keyBlob.isEmpty = true) : fromSshBlob ssl keyBlob = none := by
  rw [List.isEmpty_iff] at h
  subst h
  rfl

/--
What `verify` does with a signature once it is decoded.
-/
theorem verify_eq {keyType keyDataB64 data signatureB64 sigBlob : Bytes}
    (hdecode : ssl.base64Decode (normalizeSignatureInput signatureB64) = sigBlob) (hne : sigBlob ≠ [])
    : verify ssl oracle keyType keyDataB64 data signatureB64
        =
      (fromSshBlob ssl (ssl.base64Decode keyDataB64)).any fun pkey =>
        if isEnvelope sigBlob then
          verifyEnvelope ssl oracle pkey keyType sigBlob data
        else
          verifyRaw ssl oracle pkey keyType sigBlob data := by
  have hsigBlob : sigBlob.isEmpty = false := List.isEmpty_eq_false_iff.mpr hne
  simp only [verify, hdecode, hsigBlob, Bool.or_false]
  split
  . next hkeyBlob => rw [fromSshBlob_of_isEmpty ssl hkeyBlob, Option.any_none]
  . split
    . next hkey => rw [hkey, Option.any_none]
    . next pkey hkey => rw [hkey, Option.any_some]

/--
A raw signature goes through the raw branch with the type and the signature it was built from, and what
starts with a magic never does.
-/
theorem verify_buildSignatureBlob (base64Encode : Bytes → Bytes) (keyType keyDataB64 data sigType sigRaw : Bytes)
    (hType : sigType.length < 1073741824) (hRaw : sigRaw.length < 4294967296)
    (hdecode : ssl.base64Decode (base64Encode (signatureBlob sigType sigRaw)) = signatureBlob sigType sigRaw)
    (halphabet : 45 ∉ base64Encode (signatureBlob sigType sigRaw))
    : (Bytes.startsWith (signatureBlob sigType sigRaw) magicV1 = false
        ∧ Bytes.startsWith (signatureBlob sigType sigRaw) magicV0 = false)
      ∧ (∃ reader reader', SshWireReader.readString { data := signatureBlob sigType sigRaw } = (some sigType, reader)
        ∧ reader.readString = (some sigRaw, reader'))
      ∧ verify ssl oracle keyType keyDataB64 data (buildSignatureBlob base64Encode sigType sigRaw)
        = ((fromSshBlob ssl (ssl.base64Decode keyDataB64)).any fun pkey =>
          acceptsRaw ssl oracle pkey keyType sigType sigRaw data)
      ∧ ∀ signatureB64 sigBlob, ssl.base64Decode (normalizeSignatureInput signatureB64) = sigBlob →
        magicV1 <+: sigBlob ∨ magicV0 <+: sigBlob →
          verify ssl oracle keyType keyDataB64 data signatureB64
            = (fromSshBlob ssl (ssl.base64Decode keyDataB64)).any fun pkey =>
              verifyEnvelope ssl oracle pkey keyType sigBlob data := by
  have hraw : isEnvelope (signatureBlob sigType sigRaw) = false := isEnvelope_signatureBlob hType
  obtain ⟨reader, reader', hreadType, hreadRaw⟩ := readString_signatureBlob hType hRaw
  refine ⟨?_, ⟨reader, reader', hreadType, hreadRaw⟩, ?_, ?_⟩
  . rw [isEnvelope, Bool.or_eq_false_iff] at hraw
    exact hraw.symm
  . have hnormal : ssl.base64Decode (normalizeSignatureInput (buildSignatureBlob base64Encode sigType sigRaw))
        = signatureBlob sigType sigRaw := by
      rw [buildSignatureBlob, normalizeSignatureInput_eq_self halphabet, hdecode]
    rw [verify_eq ssl oracle hnormal (by simp [signatureBlob_eq, wireString, wireLength])]
    simp only [hraw, Bool.false_eq_true, if_false, verifyRaw_of_readString ssl oracle hreadType hreadRaw]
  . intro signatureB64 sigBlob hsigBlob hmagic
    have henvelope : isEnvelope sigBlob = true := by
      rw [isEnvelope, Bool.or_eq_true, Bytes.startsWith_iff, Bytes.startsWith_iff]
      exact hmagic.symm
    have hne : sigBlob ≠ [] := by
      rintro rfl
      simpa using head_of_startsWith_magic henvelope
    rw [verify_eq ssl oracle hsigBlob hne]
    simp only [henvelope, if_true]

section ed25519

def rawB64 : Bytes :=
  bytes "AAAAC3NzaC1lZDI1NTE5AAAAQAAAAAAAAAAAAAAAAAAAAAAAAAAAAAAAAAAA"
    ++ bytes "AAAAAAAAAAAAAAAAAAAAAAAAAAAAAAAAAAAAAAAAAAAAAAAAAAA="

/--
Knows how a signature of zeros is encoded.
-/
def rawSsl : OpenSsl Unit :=
  { sampleSsl with base64Decode := fun encoded => if encoded = rawB64 then innerBlob else sampleSsl.base64Decode encoded }

def rawEncode (raw : Bytes) : Bytes :=
  if raw = innerBlob then rawB64 else []

/--
A signature of the challenge itself logs in.
-/
theorem verify_buildSignatureBlob_ed25519
    : verify rawSsl (fun _ _ message _ => message = bytes "nonce") (bytes "ssh-ed25519") keyB64 (bytes "nonce")
        (buildSignatureBlob rawEncode (bytes "ssh-ed25519") (List.replicate 64 0)) = true := by
  rw [(verify_buildSignatureBlob rawSsl (fun _ _ message _ => message = bytes "nonce") rawEncode (bytes "ssh-ed25519")
    keyB64 (bytes "nonce") (bytes "ssh-ed25519") (List.replicate 64 0) (by decide) (by decide) (by decide +kernel)
    (by decide +kernel)).2.2.1]
  decide +kernel

end ed25519
end SshSignatureVerify
end SimpleRsyncd
