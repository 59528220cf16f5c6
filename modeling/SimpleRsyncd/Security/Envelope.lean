import SimpleRsyncd.Security.SshKey

/-!
This module contains the format of signatures: which texts `parseSshSigEnvelope` takes for an envelope, that
it reads no byte outside of them, and how raw signatures are told apart from envelopes.
-/

namespace SimpleRsyncd

/--
The field behind the namespace.
-/
def IsReserved (version : Nat) (reserved : Bytes) : Prop :=
  if version ≥ 1 then ∃ value, value.length < 4294967296 ∧ reserved = wireString value else reserved = [0]

/--
A string of both parts of a signature, in front of anything.
-/
def IsInner (sigType sigRaw inner : Bytes) : Prop :=
  ∃ rest, sigType.length < 4294967296 ∧ sigRaw.length < 4294967296
    ∧ inner = wireString sigType ++ (wireString sigRaw ++ rest)

/--
What stands behind the version.
-/
def IsEnvelopeBody (envelope : SshSigEnvelope) (body : Bytes) : Prop :=
  ∃ pubkey reserved inner rest, pubkey.length < 4294967296 ∧ envelope.namespaceName.length < 4294967296
    ∧ IsReserved envelope.version reserved ∧ envelope.hashAlg.length < 4294967296 ∧ inner.length < 4294967296
    ∧ IsInner envelope.sigType envelope.sigRaw inner
    ∧ body = wireString pubkey ++ (wireString envelope.namespaceName ++ (reserved
      ++ (wireString envelope.hashAlg ++ (wireString inner ++ rest))))

/--
The texts of an envelope.
-/
def IsEnvelopeText (envelope : SshSigEnvelope) (sigBlob : Bytes) : Prop :=
  ∃ magic body, (magic = magicV1 ∨ magic = magicV0) ∧ envelope.version < 4294967296
    ∧ IsEnvelopeBody envelope body ∧ sigBlob = magic ++ (wireLength envelope.version ++ body)

section grammar

variable {envelope : SshSigEnvelope} {version : Nat} {reader reader' : SshWireReader} {body reserved rest : Bytes}

theorem rest_of_readReserved (h : readReserved version reader = (true, reader'))
    : ∃ reserved, IsReserved version reserved ∧ reader.rest = reserved ++ reader'.rest := by
  unfold readReserved at h
  unfold IsReserved
  split at h
  . next hversion =>
    simp only [Prod.mk.injEq, Option.isSome_iff_exists] at h
    obtain ⟨⟨value, hvalue⟩, rfl⟩ := h
    have hread : reader.readString = (some value, reader.readString.2) := by rw [← hvalue]
    refine ⟨wireString value, ?_, SshWireReader.rest_of_readString hread⟩
    rw [if_pos hversion]
    exact ⟨value, SshWireReader.length_of_readString hread, rfl⟩
  . next hversion =>
    simp only [Prod.mk.injEq, decide_eq_true_eq] at h
    obtain ⟨hbyte, rfl⟩ := h
    have hread : reader.readByte = (some 0, reader.readByte.2) := by rw [← hbyte]
    refine ⟨[0], ?_, SshWireReader.rest_of_readByte hread⟩
    rw [if_neg hversion]

theorem exists_readReserved (hreserved : IsReserved version reserved) (h : reader.rest = reserved ++ rest)
    : ∃ reader', readReserved version reader = (true, reader') ∧ reader'.rest = rest := by
  unfold IsReserved at hreserved
  unfold readReserved
  split at hreserved
  . next hversion =>
    obtain ⟨value, hlt, rfl⟩ := hreserved
    obtain ⟨reader', hread, hrest⟩ := SshWireReader.exists_readString _ hlt h
    exact ⟨reader', by rw [if_pos hversion, hread]; rfl, hrest⟩
  . next hversion =>
    subst hreserved
    obtain ⟨reader', hread, hrest⟩ := SshWireReader.exists_readByte h
    exact ⟨reader', by rw [if_neg hversion, hread]; rfl, hrest⟩

theorem isEnvelopeBody_of_parse (h : parseEnvelopeBody version body = some envelope)
    : envelope.version = version ∧ IsEnvelopeBody envelope body := by
  unfold parseEnvelopeBody at h
  -- one case for each field, what is left of the text is the rest of the reader behind it
  split at h
  . simp at h
  . next pubkey _ hpubkey =>
    split at h
    . simp at h
    . next namespaceName _ hnamespace =>
      split at h
      . simp at h
      . next hreserved =>
        split at h
        . simp at h
        . next hashAlg _ hhashAlg =>
          split at h
          . simp at h
          . next inner readerBehind hinner =>
            split at h
            . simp at h
            . next sigType _ hsigType =>
              split at h
              . simp at h
              . next sigRaw innerBehind hsigRaw =>
                obtain rfl := Option.some.inj h
                obtain ⟨reserved, hisReserved, hrest⟩ := rest_of_readReserved hreserved
                have hparts : IsInner sigType sigRaw inner := by
                  refine ⟨innerBehind.rest, SshWireReader.length_of_readString hsigType,
                    SshWireReader.length_of_readString hsigRaw, ?_⟩
                  rw [← SshWireReader.rest_of_readString hsigRaw, ← SshWireReader.rest_of_readString hsigType]
                  rfl
                refine ⟨rfl, pubkey, reserved, inner, readerBehind.rest, SshWireReader.length_of_readString hpubkey,
                  SshWireReader.length_of_readString hnamespace, hisReserved,
                  SshWireReader.length_of_readString hhashAlg, SshWireReader.length_of_readString hinner, hparts, ?_⟩
                rw [← SshWireReader.rest_of_readString hinner, ← SshWireReader.rest_of_readString hhashAlg, ← hrest,
                  ← SshWireReader.rest_of_readString hnamespace, ← SshWireReader.rest_of_readString hpubkey]
                rfl

theorem parse_of_isEnvelopeBody (h : IsEnvelopeBody envelope body)
    : parseEnvelopeBody envelope.version body = some envelope := by
  obtain ⟨pubkey, reserved, inner, rest, hpubkey, hnamespace, hreserved, hhashAlg, hinner, hparts, hbody⟩ := h
  obtain ⟨innerRest, hsigType, hsigRaw, hinnerText⟩ := hparts
  obtain ⟨reader₁, hread₁, hrest₁⟩ := SshWireReader.exists_readString { data := body } hpubkey hbody
  obtain ⟨reader₂, hread₂, hrest₂⟩ := SshWireReader.exists_readString _ hnamespace hrest₁
  obtain ⟨reader₃, hread₃, hrest₃⟩ := exists_readReserved hreserved hrest₂
  obtain ⟨reader₄, hread₄, hrest₄⟩ := SshWireReader.exists_readString _ hhashAlg hrest₃
  obtain ⟨reader₅, hread₅, -⟩ := SshWireReader.exists_readString _ hinner hrest₄
  obtain ⟨inner₁, hinner₁, hinnerRest₁⟩ := SshWireReader.exists_readString { data := inner } hsigType hinnerText
  obtain ⟨inner₂, hinner₂, -⟩ := SshWireReader.exists_readString _ hsigRaw hinnerRest₁
  simp only [parseEnvelopeBody, hread₁, hread₂, hread₃, hread₄, hread₅, hinner₁, hinner₂]

theorem magicV1_ne_magicV0 (a b : Bytes) : magicV1 ++ a ≠ magicV0 ++ b := by
  intro h
  have hfour := congrArg (List.take 4) h
  rw [List.take_append_of_le_length (by decide), List.take_append_of_le_length (by decide)] at hfour
  revert hfour
  decide

theorem parseSshSigEnvelope_append {magic : Bytes} (hmagic : magic = magicV1 ∨ magic = magicV0) (s : Bytes)
    : parseSshSigEnvelope (magic ++ s)
        =
      if s.length < 4 then none else parseEnvelopeBody (readBe32 s) (s.drop 4) := by
  have hheader : ∀ n, (magic ++ s).length < magic.length + n ↔ s.length < n := by
    intro n
    rw [List.length_append]
    omega
  have hdrop : ∀ n, (magic ++ s).drop (magic.length + n) = s.drop n := by
    intro n
    rw [← List.drop_drop, List.drop_left' rfl]
  have hread : (magic ++ s).drop magic.length = s := List.drop_left' rfl
  have hstart : Bytes.startsWith (magic ++ s) magic = true := (Bytes.startsWith_iff _ _).mpr (List.prefix_append _ _)
  rcases hmagic with rfl | rfl
  . simp only [parseSshSigEnvelope, hstart, if_true, hheader, hdrop, hread]
  . have hother : ¬Bytes.startsWith (magicV0 ++ s) magicV1 = true := by
      rw [Bytes.startsWith_iff]
      rintro ⟨t, ht⟩
      exact magicV1_ne_magicV0 _ _ ht
    simp only [parseSshSigEnvelope, hother, hstart, Bool.false_eq_true, if_false, if_true, hheader, hdrop, hread]

theorem exists_magic_of_parse {sigBlob : Bytes} (h : parseSshSigEnvelope sigBlob = some envelope)
    : ∃ magic s, (magic = magicV1 ∨ magic = magicV0) ∧ sigBlob = magic ++ s := by
  by_cases hV1 : Bytes.startsWith sigBlob magicV1 = true
  . obtain ⟨s, rfl⟩ := (Bytes.startsWith_iff _ _).mp hV1
    exact ⟨magicV1, s, .inl rfl, rfl⟩
  . by_cases hV0 : Bytes.startsWith sigBlob magicV0 = true
    . obtain ⟨s, rfl⟩ := (Bytes.startsWith_iff _ _).mp hV0
      exact ⟨magicV0, s, .inr rfl, rfl⟩
    . simp [parseSshSigEnvelope, hV1, hV0] at h

theorem isEnvelopeText_of_parse {sigBlob : Bytes} (h : parseSshSigEnvelope sigBlob = some envelope)
    : IsEnvelopeText envelope sigBlob := by
  obtain ⟨magic, s, hmagic, rfl⟩ := exists_magic_of_parse h
  rw [parseSshSigEnvelope_append hmagic] at h
  split at h
  . simp at h
  . next hlength =>
    obtain ⟨hversion, hbody⟩ := isEnvelopeBody_of_parse h
    refine ⟨magic, s.drop 4, hmagic, ?_, hbody, ?_⟩
    . rw [hversion]
      exact readBe32_lt s
    . rw [hversion, wireLength_readBe32 (by omega)]

theorem parse_of_isEnvelopeText {sigBlob : Bytes} (h : IsEnvelopeText envelope sigBlob)
    : parseSshSigEnvelope sigBlob = some envelope := by
  obtain ⟨magic, body, hmagic, hversion, hbody, rfl⟩ := h
  rw [parseSshSigEnvelope_append hmagic, if_neg (by simp [wireLength]), readBe32_wireLength, Nat.mod_eq_of_lt hversion]
  exact parse_of_isEnvelopeBody hbody

end grammar

section bounds

/-!
The same functions once more, now every byte is read at its index and a read outside of the text is
`none`. What they return otherwise is in the inner type.
-/

def readBe32At (data : Bytes) (p : Nat) : Option Nat := do
  let p₀ ← data[p]?
  let p₁ ← data[p + 1]?
  let p₂ ← data[p + 2]?
  let p₃ ← data[p + 3]?
  some (p₀.toNat * 16777216 + p₁.toNat * 65536 + p₂.toNat * 256 + p₃.toNat)

def assignAt (data : Bytes) (p : Nat) : Nat → Option Bytes
  | 0 => some []
  | len + 1 => do
    let byte ← data[p]?
    let value ← assignAt data (p + 1) len
    some (byte :: value)

def comparesAt (data : Bytes) (magic : Bytes) : Option Bool :=
  if data.length < magic.length then some false else (assignAt data 0 magic.length).map (· == magic)

namespace SshWireReader

def readStringAt (reader : SshWireReader) : Option (Option Bytes × SshWireReader) :=
  if reader.offset + 4 > reader.data.length then
    some (none, reader)
  else do
    let len ← readBe32At reader.data reader.offset
    let reader := { reader with offset := reader.offset + 4 }
    if reader.offset + len > reader.data.length then
      some (none, reader)
    else do
      let value ← assignAt reader.data reader.offset len
      some (some value, { reader with offset := reader.offset + len })

def readByteAt (reader : SshWireReader) : Option (Option UInt8 × SshWireReader) :=
  if reader.offset ≥ reader.data.length then
    some (none, reader)
  else do
    let byte ← reader.data[reader.offset]?
    some (some byte, { reader with offset := reader.offset + 1 })

end SshWireReader

open SshWireReader

def readReservedAt (version : Nat) (reader : SshWireReader) : Option (Bool × SshWireReader) :=
  if version ≥ 1 then do
    let (reserved, reader) ← reader.readStringAt
    some (reserved.isSome, reader)
  else do
    let (reserved, reader) ← reader.readByteAt
    some (reserved = some 0, reader)

def parseEnvelopeBodyAt (version : Nat) (body : Bytes) : Option (Option SshSigEnvelope) := do
  let (some _, reader) ← readStringAt { data := body } | some none
  let (some namespaceName, reader) ← reader.readStringAt | some none
  let (true, reader) ← readReservedAt version reader | some none
  let (some hashAlg, reader) ← reader.readStringAt | some none
  let (some innerSigBlob, _) ← reader.readStringAt | some none
  let (some sigType, inner) ← readStringAt { data := innerSigBlob } | some none
  let (some sigRaw, _) ← inner.readStringAt | some none
  some (some { version, namespaceName, hashAlg, sigType, sigRaw })

def parseSshSigEnvelopeAt (sigBlob : Bytes) : Option (Option SshSigEnvelope) := do
  let isV1 ← comparesAt sigBlob magicV1
  let isV0 ← if isV1 then some false else comparesAt sigBlob magicV0
  if !isV1 && !isV0 then
    some none
  else
    let headerLen := if isV1 then magicV1.length else magicV0.length
    if sigBlob.length < headerLen + 4 then
      some none
    else do
      let version ← readBe32At sigBlob headerLen
      parseEnvelopeBodyAt version (sigBlob.drop (headerLen + 4))

theorem readBe32At_eq {data : Bytes} {p : Nat} (h : p + 4 ≤ data.length)
    : readBe32At data p = some (readBe32 (data.drop p)) := by
  have hdrop : data.drop p = data[p] :: data[p + 1] :: data[p + 2] :: data[p + 3] :: data.drop (p + 4) := by
    rw [List.drop_eq_getElem_cons (by omega), List.drop_eq_getElem_cons (by omega),
      List.drop_eq_getElem_cons (by omega), List.drop_eq_getElem_cons (by omega)]
  rw [hdrop, readBe32At, List.getElem?_eq_getElem (by omega), List.getElem?_eq_getElem (by omega),
    List.getElem?_eq_getElem (by omega), List.getElem?_eq_getElem (by omega)]
  rfl

theorem assignAt_eq {data : Bytes} {p len : Nat} (h : p + len ≤ data.length)
    : assignAt data p len = some ((data.drop p).take len) := by
  induction len generalizing p with
  | zero => rfl
  | succ len ih =>
    rw [assignAt, List.getElem?_eq_getElem (by omega), ih (by omega), List.drop_eq_getElem_cons (by omega : p < data.length)]
    rfl

theorem comparesAt_eq (data magic : Bytes) : comparesAt data magic = some (Bytes.startsWith data magic) := by
  unfold comparesAt
  split
  . next hlt =>
    rw [Eq.comm, Option.some.injEq, ← Bool.not_eq_true, Bytes.startsWith_iff]
    intro hstart
    have := hstart.length_le
    omega
  . rw [assignAt_eq (by omega), Option.map_some, List.drop_zero, Option.some.injEq, Bool.eq_iff_iff, beq_iff_eq,
      Bytes.startsWith_iff, List.prefix_iff_eq_take, Eq.comm]

theorem readStringAt_eq (reader : SshWireReader) : reader.readStringAt = some reader.readString := by
  unfold readStringAt readString
  split
  . rfl
  . rw [readBe32At_eq (by omega)]
    simp only [Option.bind_eq_bind, Option.bind_some]
    split
    . rfl
    . rw [assignAt_eq (by omega)]
      rfl

theorem readByteAt_eq (reader : SshWireReader) : reader.readByteAt = some reader.readByte := by
  unfold readByteAt readByte
  split
  . rw [List.getElem?_eq_none (by omega)]
  . rw [List.getElem?_eq_getElem (by omega)]
    rfl

theorem readReservedAt_eq (version : Nat) (reader : SshWireReader)
    : readReservedAt version reader = some (readReserved version reader) := by
  unfold readReservedAt readReserved
  split
  . rw [readStringAt_eq]
    rfl
  . rw [readByteAt_eq]
    rfl

theorem parseEnvelopeBodyAt_eq (version : Nat) (body : Bytes)
    : parseEnvelopeBodyAt version body = some (parseEnvelopeBody version body) := by
  simp only [parseEnvelopeBodyAt, readStringAt_eq, readReservedAt_eq, Option.bind_eq_bind, Option.bind_some]
  unfold parseEnvelopeBody
  -- both functions stop at the same field
  rcases readString { data := body } with ⟨_ | pubkey, reader⟩
  . rfl
  dsimp only
  rcases reader.readString with ⟨_ | namespaceName, reader⟩
  . rfl
  dsimp only
  rcases readReserved version reader with ⟨_ | _, reader⟩
  . rfl
  dsimp only
  rcases reader.readString with ⟨_ | hashAlg, reader⟩
  . rfl
  dsimp only
  rcases reader.readString with ⟨_ | innerSigBlob, reader⟩
  . rfl
  dsimp only
  rcases readString { data := innerSigBlob } with ⟨_ | sigType, inner⟩
  . rfl
  dsimp only
  rcases inner.readString with ⟨_ | sigRaw, inner⟩
  . rfl
  . rfl

/--
No byte outside of the signature is read.
-/
theorem parseSshSigEnvelopeAt_eq (sigBlob : Bytes)
    : parseSshSigEnvelopeAt sigBlob = some (parseSshSigEnvelope sigBlob) := by
  have hbody : ∀ headerLen, (if sigBlob.length < headerLen + 4 then some none
        else (readBe32At sigBlob headerLen).bind fun version =>
          parseEnvelopeBodyAt version (sigBlob.drop (headerLen + 4)))
      = some (if sigBlob.length < headerLen + 4 then none
        else parseEnvelopeBody (readBe32 (sigBlob.drop headerLen)) (sigBlob.drop (headerLen + 4))) := by
    intro headerLen
    split
    . rfl
    . rw [readBe32At_eq (by omega), Option.bind_some, parseEnvelopeBodyAt_eq]
  simp only [parseSshSigEnvelopeAt, comparesAt_eq, Option.bind_eq_bind, Option.bind_some, parseSshSigEnvelope]
  cases hV1 : Bytes.startsWith sigBlob magicV1 with
  | true => simp [hbody]
  | false =>
    cases hV0 : Bytes.startsWith sigBlob magicV0 with
    | true => simp [hbody]
    | false => simp

end bounds

/--
The parser accepts exactly the texts of envelopes, with their fields as its result, and reads nothing
outside of the text.
-/
theorem parseSshSigEnvelope_iff (sigBlob : Bytes)
    : ((parseSshSigEnvelope sigBlob).isSome = true ↔ ∃ envelope, IsEnvelopeText envelope sigBlob)
      ∧ (∀ envelope, parseSshSigEnvelope sigBlob = some envelope ↔ IsEnvelopeText envelope sigBlob)
      ∧ parseSshSigEnvelopeAt sigBlob = some (parseSshSigEnvelope sigBlob) := by
  have hiff : ∀ envelope, parseSshSigEnvelope sigBlob = some envelope ↔ IsEnvelopeText envelope sigBlob :=
    fun _ => ⟨isEnvelopeText_of_parse, parse_of_isEnvelopeText⟩
  refine ⟨?_, hiff, parseSshSigEnvelopeAt_eq sigBlob⟩
  simp only [Option.isSome_iff_exists, hiff]

end SimpleRsyncd
