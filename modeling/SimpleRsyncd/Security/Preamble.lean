import SimpleRsyncd.Security.Namespace

/-!
This module contains that the preambles which are signed can be told apart. Every field comes behind its
length, so a preamble has one namespace, one name of a digest and one digest.
-/

namespace SimpleRsyncd

/--
The lengths that OpenSSL documents for its digests.
-/
structure OpenSsl.DigestLengths {Key : Type} (ssl : OpenSsl Key) : Prop where
  sha256 : ∀ message, (ssl.sha256 message).length = 32
  sha512 : ∀ message, (ssl.sha512 message).length = 64

/--
What goes into a preamble, with lengths that fit.
-/
structure Preamble where
  namespaceName : Bytes
  hashAlg : Bytes
  message : Bytes
  hnamespace : namespaceName.length < 4294967296
  hhashAlg : hashAlg.length < 4294967296
  hmessage : message.length < 4294967296

namespace Preamble

variable {Key : Type} (ssl : OpenSsl Key) (p : Preamble)

def signedDataV1 : Bytes :=
  buildOpenSshSignedDataV1 ssl p.namespaceName p.hashAlg p.message

def signedDataV0 : Bytes :=
  buildOpenSshSignedDataV0 ssl p.namespaceName p.hashAlg p.message

/--
What a signature over a preamble is about.
-/
def content : Bytes × Bytes × Bytes :=
  (p.namespaceName, p.hashAlg, hashMessage ssl p.hashAlg p.message)

theorem signedDataV1_eq
    : p.signedDataV1 ssl
        =
      magicV1 ++ (wireString p.namespaceName ++ (wireString [] ++ (wireString p.hashAlg
        ++ (wireString (hashMessage ssl p.hashAlg p.message) ++ [])))) := by
  simp only [signedDataV1, buildOpenSshSignedDataV1, appendWireString, List.append_assoc, List.append_nil]

theorem signedDataV0_eq
    : p.signedDataV0 ssl
        =
      magicV0 ++ (wireString p.namespaceName ++ (0 :: (wireString p.hashAlg
        ++ (wireString (hashMessage ssl p.hashAlg p.message) ++ [])))) := by
  simp only [signedDataV0, buildOpenSshSignedDataV0, appendWireString, List.append_assoc, List.append_nil,
    List.cons_append, List.nil_append]

variable {ssl}

theorem length_hashMessage (hssl : ssl.DigestLengths) : (hashMessage ssl p.hashAlg p.message).length < 4294967296 := by
  unfold hashMessage
  split
  . rw [hssl.sha512]
    decide
  . split
    . rw [hssl.sha256]
      decide
    . exact p.hmessage

/--
The fields at the end, which both versions have.
-/
theorem hashAlg_and_digest_inj {p p' : Preamble} (hssl : ssl.DigestLengths)
    (h : wireString p.hashAlg ++ (wireString (hashMessage ssl p.hashAlg p.message) ++ [])
      = wireString p'.hashAlg ++ (wireString (hashMessage ssl p'.hashAlg p'.message) ++ []))
    : p.hashAlg = p'.hashAlg ∧ hashMessage ssl p.hashAlg p.message = hashMessage ssl p'.hashAlg p'.message := by
  obtain ⟨hhashAlg, hbehind⟩ := wireString_inj p.hhashAlg p'.hhashAlg h
  obtain ⟨hdigest, -⟩ := wireString_inj (p.length_hashMessage hssl) (p'.length_hashMessage hssl) hbehind
  exact ⟨hhashAlg, hdigest⟩

theorem content_eq_of_signedDataV1 {p p' : Preamble} (hssl : ssl.DigestLengths)
    (h : p.signedDataV1 ssl = p'.signedDataV1 ssl)
    : p.content ssl = p'.content ssl := by
  rw [signedDataV1_eq, signedDataV1_eq] at h
  obtain ⟨hnamespace, hbehind⟩ := wireString_inj p.hnamespace p'.hnamespace (List.append_cancel_left h)
  obtain ⟨hhashAlg, hdigest⟩ := hashAlg_and_digest_inj hssl (List.append_cancel_left hbehind)
  rw [content, content, hnamespace, hdigest, hhashAlg]

theorem content_eq_of_signedDataV0 {p p' : Preamble} (hssl : ssl.DigestLengths)
    (h : p.signedDataV0 ssl = p'.signedDataV0 ssl)
    : p.content ssl = p'.content ssl := by
  rw [signedDataV0_eq, signedDataV0_eq] at h
  obtain ⟨hnamespace, hbehind⟩ := wireString_inj p.hnamespace p'.hnamespace (List.append_cancel_left h)
  obtain ⟨hhashAlg, hdigest⟩ := hashAlg_and_digest_inj hssl (List.cons.inj hbehind).2
  rw [content, content, hnamespace, hdigest, hhashAlg]

/--
A preamble determines its version and its content.
-/
theorem unambiguous (hssl : ssl.DigestLengths) (p p' : Preamble)
    : (p.signedDataV1 ssl = p'.signedDataV1 ssl ↔ p.content ssl = p'.content ssl)
      ∧ (p.signedDataV0 ssl = p'.signedDataV0 ssl ↔ p.content ssl = p'.content ssl)
      ∧ p.signedDataV1 ssl ≠ p'.signedDataV0 ssl := by
  refine ⟨⟨content_eq_of_signedDataV1 hssl, ?_⟩, ⟨content_eq_of_signedDataV0 hssl, ?_⟩, ?_⟩
  . intro h
    obtain ⟨hnamespace, hhashAlg, hdigest⟩ : _ ∧ _ ∧ _ := by simpa only [content, Prod.mk.injEq] using h
    rw [signedDataV1_eq, signedDataV1_eq, hnamespace, hdigest, hhashAlg]
  . intro h
    obtain ⟨hnamespace, hhashAlg, hdigest⟩ : _ ∧ _ ∧ _ := by simpa only [content, Prod.mk.injEq] using h
    rw [signedDataV0_eq, signedDataV0_eq, hnamespace, hdigest, hhashAlg]
  . rw [signedDataV1_eq, signedDataV0_eq]
    exact magicV1_ne_magicV0 _ _

section nonce

/--
The digests of the challenge `nonce`.
-/
def nonceSsl : OpenSsl Unit :=
  {
    SshSignatureVerify.sampleSsl with
    sha256 := fun _ =>
      [120, 55, 123, 82, 87, 87, 180, 148, 66, 127, 137, 1, 79, 151, 215, 153,
        40, 243, 147, 141, 20, 235, 81, 226, 15, 181, 222, 201, 131, 78, 179, 4]
  }

def gitPreamble : Preamble where
  namespaceName := bytes "git"
  hashAlg := bytes "sha512"
  message := bytes "nonce"
  hnamespace := by decide
  hhashAlg := by decide
  hmessage := by decide

def daemonPreamble : Preamble where
  namespaceName := SshSignatureVerify.kDefaultNamespace
  hashAlg := bytes "sha256"
  message := bytes "nonce"
  hnamespace := by decide
  hhashAlg := by decide
  hmessage := by decide

theorem unambiguous_git : gitPreamble.signedDataV1 nonceSsl ≠ daemonPreamble.signedDataV1 nonceSsl := by
  have hssl : nonceSsl.DigestLengths := ⟨fun _ => rfl, fun _ => rfl⟩
  rw [Ne, (unambiguous hssl gitPreamble daemonPreamble).1]
  decide

end nonce
end Preamble
end SimpleRsyncd
