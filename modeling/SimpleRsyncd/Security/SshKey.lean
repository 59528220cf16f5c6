import SimpleRsyncd.Security.SshWire

/-!
This module contains the verification of SSH signatures. What OpenSSL computes is a parameter: the decoding
of base64, the digests and the import of keys are in a structure, and an oracle says which messages a key
has signed under which digest.
-/

namespace SimpleRsyncd

inductive Digest where
  | sha1
  | sha256
  | sha384
  | sha512
  deriving DecidableEq

inductive Curve where
  | prime256v1
  | secp384r1
  | secp521r1
  deriving DecidableEq

/--
The functions of OpenSSL that no secret is needed for, `none` stands for a null pointer.
-/
structure OpenSsl (Key : Type) where
  base64Decode : Bytes → Bytes
  sha256 : Bytes → Bytes
  sha512 : Bytes → Bytes
  rsaKey : Bytes → Bytes → Option Key
  ed25519Key : Bytes → Option Key
  ecKey : Curve → Bytes → Option Key

/--
Whether a signature of a message verifies under a key, the digest is `none` for keys that have their own.
-/
abbrev SignatureOracle (Key : Type) := Key → Option Digest → Bytes → Bytes → Bool

def magicV0 : Bytes := bytes "SSH SIG"

def magicV1 : Bytes := bytes "SSHSIG"

def ecNidFromSshType (keyType : Bytes) : Option Curve :=
  if keyType = bytes "ecdsa-sha2-nistp256" then
    some .prime256v1
  else if keyType = bytes "ecdsa-sha2-nistp384" then
    some .secp384r1
  else if keyType = bytes "ecdsa-sha2-nistp521" then
    some .secp521r1
  else
    none

def mdFromSshSigType (sigType : Bytes) : Option Digest :=
  if sigType = bytes "rsa-sha2-256" then
    some .sha256
  else if sigType = bytes "rsa-sha2-512" then
    some .sha512
  else if sigType = bytes "ssh-rsa" then
    some .sha1
  else
    none

section verification

variable {Key : Type} (ssl : OpenSsl Key) (oracle : SignatureOracle Key)

def SshPublicKeyImport.fromSshBlob (decodedBlob : Bytes) : Option Key :=
  match SshWireReader.readString { data := decodedBlob } with
  | (none, _) => none
  | (some keyType, reader) =>
    if keyType = bytes "ssh-rsa" then
      match reader.readMpint with
      | (none, _) => none
      | (some e, reader) =>
        match reader.readMpint with
        | (none, _) => none
        | (some n, _) => ssl.rsaKey n e
    else if keyType = bytes "ssh-ed25519" then
      match reader.readString with
      | (none, _) => none
      | (some raw, _) => if raw.length ≠ 32 then none else ssl.ed25519Key raw
    else if Bytes.startsWith keyType (bytes "ecdsa-sha2-") then
      match reader.readString with
      | (none, _) => none
      | (some _, reader) =>
        match reader.readString with
        | (none, _) => none
        | (some qBytes, _) => (ecNidFromSshType keyType).bind fun curve => ssl.ecKey curve qBytes
    else
      none

def verifyInnerSignature (pkey : Key) (keyType sigType sigRaw signedData : Bytes) : Bool :=
  if keyType = bytes "ssh-ed25519" || sigType = bytes "ssh-ed25519" then
    oracle pkey none signedData sigRaw
  else if keyType = bytes "ssh-rsa" || sigType = bytes "ssh-rsa" || sigType = bytes "rsa-sha2-256"
      || sigType = bytes "rsa-sha2-512" then
    let md := (mdFromSshSigType sigType).getD .sha256
    if oracle pkey (some md) signedData sigRaw then
      true
    else if sigType ≠ bytes "ssh-rsa" then
      oracle pkey (some .sha1) signedData sigRaw
    else
      false
  else if Bytes.startsWith keyType (bytes "ecdsa-sha2-") then
    let md : Digest :=
      if Bytes.contains sigType (bytes "nistp384") then
        .sha384
      else if Bytes.contains sigType (bytes "nistp521") then
        .sha512
      else
        .sha256
    oracle pkey (some md) signedData sigRaw
  else
    false

def hashMessage (hashAlg message : Bytes) : Bytes :=
  if hashAlg = bytes "sha512" then
    ssl.sha512 message
  else if hashAlg = bytes "sha256" then
    ssl.sha256 message
  else
    message

def buildOpenSshSignedDataV1 (namespaceName hashAlg message : Bytes) : Bytes :=
  let out := appendWireString magicV1 namespaceName
  let out := appendWireString out []
  let out := appendWireString out hashAlg
  appendWireString out (hashMessage ssl hashAlg message)

def buildOpenSshSignedDataV0 (namespaceName hashAlg message : Bytes) : Bytes :=
  let out := appendWireString magicV0 namespaceName
  let out := out ++ [0]
  let out := appendWireString out hashAlg
  appendWireString out (hashMessage ssl hashAlg message)

structure SshSigEnvelope where
  version : Nat
  namespaceName : Bytes
  hashAlg : Bytes
  sigType : Bytes
  sigRaw : Bytes
  deriving DecidableEq

/--
The reserved field, a string from version 1 on and a zero byte before. The result says whether it is
there.
-/
def readReserved (version : Nat) (reader : SshWireReader) : Bool × SshWireReader :=
  if version ≥ 1 then
    let (reserved, reader) := reader.readString
    (reserved.isSome, reader)
  else
    let (reserved, reader) := reader.readByte
    (reserved = some 0, reader)

/--
The fields behind the version.
-/
def parseEnvelopeBody (version : Nat) (body : Bytes) : Option SshSigEnvelope :=
  match SshWireReader.readString { data := body } with
  | (none, _) => none
  | (some _, reader) =>
    match reader.readString with
    | (none, _) => none
    | (some namespaceName, reader) =>
      match readReserved version reader with
      | (false, _) => none
      | (true, reader) =>
        match reader.readString with
        | (none, _) => none
        | (some hashAlg, reader) =>
          match reader.readString with
          | (none, _) => none
          | (some innerSigBlob, _) =>
            match SshWireReader.readString { data := innerSigBlob } with
            | (none, _) => none
            | (some sigType, inner) =>
              match inner.readString with
              | (none, _) => none
              | (some sigRaw, _) => some { version, namespaceName, hashAlg, sigType, sigRaw }

def parseSshSigEnvelope (sigBlob : Bytes) : Option SshSigEnvelope :=
  let headerLen? :=
    if Bytes.startsWith sigBlob magicV1 then
      some magicV1.length
    else if Bytes.startsWith sigBlob magicV0 then
      some magicV0.length
    else
      none
  match headerLen? with
  | none => none
  | some headerLen =>
    if sigBlob.length < headerLen + 4 then
      none
    else
      parseEnvelopeBody (readBe32 (sigBlob.drop headerLen)) (sigBlob.drop (headerLen + 4))

namespace SshSignatureVerify

/--
The lines between `pos` and `stop`, put together. Every round starts behind the newline that ended the
one before.
-/
def armorBody (signature : Bytes) (stop : Nat) : Nat → Nat → Bytes
  | 0, _ => []
  | fuel + 1, pos =>
    if pos < stop then
      match Bytes.find [newline] (signature.drop pos) with
      | none => (signature.drop pos).take (stop - pos)
      | some n =>
        let lineEnd := pos + n
        let chunkEnd := if lineEnd > stop then stop else lineEnd
        let chunk := (signature.drop pos).take (chunkEnd - pos)
        if lineEnd ≥ stop then chunk else chunk ++ armorBody signature stop fuel (lineEnd + 1)
    else
      []

/--
Strip the armor of a signature, the text between the line with the first marker and the second marker.
-/
def normalizeSignatureInput (signature : Bytes) : Bytes :=
  match Bytes.find (bytes "-----BEGIN SSH SIGNATURE-----") signature with
  | none => signature
  | some start =>
    match Bytes.find (bytes "-----END SSH SIGNATURE-----") signature with
    | none => signature
    | some stop =>
      match Bytes.find [newline] (signature.drop start) with
      | none => signature
      | some n => armorBody signature stop signature.length (start + n + 1)

def kDefaultNamespace : Bytes := bytes "simple-rsyncd"

/--
The message that the signature in an envelope is checked for.
-/
def signMessage (envelope : SshSigEnvelope) (data : Bytes) : Bytes :=
  if envelope.version ≥ 1 then
    buildOpenSshSignedDataV1 ssl envelope.namespaceName envelope.hashAlg data
  else
    buildOpenSshSignedDataV0 ssl envelope.namespaceName envelope.hashAlg data

/--
The signature without an envelope, checked for the data itself and then for the two preambles.
-/
def verifyRaw (pkey : Key) (keyType sigBlob data : Bytes) : Bool :=
  match SshWireReader.readString { data := sigBlob } with
  | (none, _) => false
  | (some sigType, reader) =>
    match reader.readString with
    | (none, _) => false
    | (some sigRaw, _) =>
      if verifyInnerSignature oracle pkey keyType sigType sigRaw data then
        true
      else if keyType = bytes "ssh-ed25519" then
        if verifyInnerSignature oracle pkey keyType sigType sigRaw
            (buildOpenSshSignedDataV1 ssl kDefaultNamespace (bytes "sha512") data) then
          true
        else
          verifyInnerSignature oracle pkey keyType sigType sigRaw
            (buildOpenSshSignedDataV0 ssl kDefaultNamespace (bytes "sha512") data)
      else
        false

def isEnvelope (sigBlob : Bytes) : Bool :=
  Bytes.startsWith sigBlob magicV0 || Bytes.startsWith sigBlob magicV1

def verifyEnvelope (pkey : Key) (keyType sigBlob data : Bytes) : Bool :=
  match parseSshSigEnvelope sigBlob with
  | none => false
  | some envelope =>
    verifyInnerSignature oracle pkey keyType envelope.sigType envelope.sigRaw (signMessage ssl envelope data)

def verify (keyType keyDataB64 data signatureB64 : Bytes) : Bool :=
  let normalizedSig := normalizeSignatureInput signatureB64
  let keyBlob := ssl.base64Decode keyDataB64
  let sigBlob := ssl.base64Decode normalizedSig
  if keyBlob.isEmpty || sigBlob.isEmpty then
    false
  else
    match SshPublicKeyImport.fromSshBlob ssl keyBlob with
    | none => false
    | some pkey =>
      if isEnvelope sigBlob then
        verifyEnvelope ssl oracle pkey keyType sigBlob data
      else
        verifyRaw ssl oracle pkey keyType sigBlob data

end SshSignatureVerify
end verification
end SimpleRsyncd
