import SimpleRsyncd.Bytes.Text

/-!
This module contains the wire format of SSH: strings behind their length in four bytes, most significant
byte first. A length that does not fit is cut off.
-/

namespace SimpleRsyncd

/--
The four bytes of a 32 bit number.
-/
def wireLength (len : Nat) : Bytes :=
  [UInt8.ofNat (len / 16777216), UInt8.ofNat (len / 65536), UInt8.ofNat (len / 256), UInt8.ofNat len]

/--
A string behind its length.
-/
def wireString (value : Bytes) : Bytes :=
  wireLength value.length ++ value

def appendWireString (out value : Bytes) : Bytes :=
  out ++ wireString value

def readBe32 : Bytes → Nat
  | p₀ :: p₁ :: p₂ :: p₃ :: _ => p₀.toNat * 16777216 + p₁.toNat * 65536 + p₂.toNat * 256 + p₃.toNat
  | _ => 0

theorem readBe32_lt (s : Bytes) : readBe32 s < 4294967296 := by
  unfold readBe32
  split
  . next p₀ p₁ p₂ p₃ _ =>
    have := p₀.toNat_lt
    have := p₁.toNat_lt
    have := p₂.toNat_lt
    have := p₃.toNat_lt
    omega
  . decide

theorem readBe32_wireLength (len : Nat) (s : Bytes) : readBe32 (wireLength len ++ s) = len % 4294967296 := by
  simp only [wireLength, readBe32, List.cons_append, List.nil_append, UInt8.toNat_ofNat']
  omega

theorem wireLength_readBe32 {s : Bytes} (h : 4 ≤ s.length) : wireLength (readBe32 s) ++ s.drop 4 = s := by
  match s, h with
  | p₀ :: p₁ :: p₂ :: p₃ :: rest, _ =>
    have := p₀.toNat_lt
    have := p₁.toNat_lt
    have := p₂.toNat_lt
    have := p₃.toNat_lt
    simp only [wireLength, readBe32, List.drop_succ_cons, List.drop_zero, List.cons_append, List.nil_append,
      List.cons.injEq, ← UInt8.toNat_inj, UInt8.toNat_ofNat', and_true]
    omega

@[simp]
theorem length_wireString (value : Bytes) : (wireString value).length = 4 + value.length := by
  simp only [wireString, wireLength, List.length_append, List.length_cons, List.length_nil]

/--
Strings whose lengths fit can be told apart at the start of a text.
-/
theorem wireString_inj {value value' rest rest' : Bytes} (hlt : value.length < 4294967296)
    (hlt' : value'.length < 4294967296) (h : wireString value ++ rest = wireString value' ++ rest')
    : value = value' ∧ rest = rest' := by
  rw [wireString, wireString, List.append_assoc, List.append_assoc] at h
  have hlength : value.length = value'.length := by
    have hread := congrArg readBe32 h
    rw [readBe32_wireLength, readBe32_wireLength, Nat.mod_eq_of_lt hlt, Nat.mod_eq_of_lt hlt'] at hread
    exact hread
  rw [hlength] at h
  exact List.append_inj (List.append_cancel_left h) hlength

structure SshWireReader where
  data : Bytes
  offset : Nat := 0

namespace SshWireReader

/--
The string at the offset, `none` where the function returns false.
-/
def readString (reader : SshWireReader) : Option Bytes × SshWireReader :=
  if reader.offset + 4 > reader.data.length then
    (none, reader)
  else
    let len := readBe32 (reader.data.drop reader.offset)
    let reader := { reader with offset := reader.offset + 4 }
    if reader.offset + len > reader.data.length then
      (none, reader)
    else
      (some ((reader.data.drop reader.offset).take len), { reader with offset := reader.offset + len })

def readByte (reader : SshWireReader) : Option UInt8 × SshWireReader :=
  match reader.data[reader.offset]? with
  | none => (none, reader)
  | some byte => (some byte, { reader with offset := reader.offset + 1 })

/--
The bytes of a number, they are a string on the wire.
-/
def readMpint (reader : SshWireReader) : Option Bytes × SshWireReader :=
  reader.readString

def remaining (reader : SshWireReader) : Nat :=
  if reader.offset < reader.data.length then reader.data.length - reader.offset else 0

/--
The bytes that are not read yet.
-/
def rest (reader : SshWireReader) : Bytes :=
  reader.data.drop reader.offset

/--
What is read is what comes next.
-/
theorem rest_of_readString {reader reader' : SshWireReader} {value : Bytes}
    (h : reader.readString = (some value, reader'))
    : reader.rest = wireString value ++ reader'.rest := by
  simp only [readString] at h
  split at h
  . simp at h
  . next hlength =>
    split at h
    . simp at h
    . next hlen =>
      simp only [Prod.mk.injEq, Option.some.injEq] at h
      obtain ⟨rfl, rfl⟩ := h
      have hfour : 4 ≤ (reader.data.drop reader.offset).length := by
        rw [List.length_drop]
        omega
      have hvalue : ((reader.data.drop (reader.offset + 4)).take (readBe32 (reader.data.drop reader.offset))).length
          = readBe32 (reader.data.drop reader.offset) := by
        rw [List.length_take, List.length_drop]
        omega
      have hbehind : ∀ n, reader.data.drop (reader.offset + 4 + n) = (reader.data.drop (reader.offset + 4)).drop n :=
        fun n => List.drop_drop.symm
      simp only [rest, hbehind]
      rw [wireString, hvalue, List.append_assoc, List.take_append_drop, ← List.drop_drop, wireLength_readBe32 hfour]

theorem exists_readString (reader : SshWireReader) {value rest : Bytes} (hlt : value.length < 4294967296)
    (h : reader.rest = wireString value ++ rest)
    : ∃ reader', reader.readString = (some value, reader') ∧ reader'.rest = rest := by
  have hlength := congrArg List.length h
  simp only [SshWireReader.rest, List.length_drop, List.length_append, length_wireString] at hlength
  have hlen : readBe32 (reader.data.drop reader.offset) = value.length := by
    rw [← SshWireReader.rest, h, wireString, List.append_assoc, readBe32_wireLength, Nat.mod_eq_of_lt hlt]
  have hbehind : reader.data.drop (reader.offset + 4) = value ++ rest := by
    rw [← List.drop_drop, ← SshWireReader.rest, h, wireString, List.append_assoc]
    rfl
  refine ⟨{ reader with offset := reader.offset + 4 + value.length }, ?_, ?_⟩
  . rw [readString, if_neg (by omega), hlen, if_neg (by simp only; omega), hbehind, List.take_left' rfl]
  . rw [SshWireReader.rest, ← List.drop_drop, hbehind, List.drop_left' rfl]

theorem rest_of_readByte {reader reader' : SshWireReader} {byte : UInt8} (h : reader.readByte = (some byte, reader'))
    : reader.rest = byte :: reader'.rest := by
  simp only [readByte] at h
  split at h
  . simp at h
  . next hbyte =>
    simp only [Prod.mk.injEq, Option.some.injEq] at h
    obtain ⟨rfl, rfl⟩ := h
    obtain ⟨hlt, rfl⟩ := List.getElem?_eq_some_iff.mp hbyte
    exact List.drop_eq_getElem_cons hlt

theorem exists_readByte {reader : SshWireReader} {byte : UInt8} {rest : Bytes} (h : reader.rest = byte :: rest)
    : ∃ reader', reader.readByte = (some byte, reader') ∧ reader'.rest = rest := by
  have hbyte : reader.data[reader.offset]? = some byte := by
    rw [← List.head?_drop, ← SshWireReader.rest, h, List.head?_cons]
  refine ⟨{ reader with offset := reader.offset + 1 }, ?_, ?_⟩
  . rw [readByte, hbyte]
  . rw [SshWireReader.rest, ← List.drop_drop, ← SshWireReader.rest, h, List.drop_succ_cons, List.drop_zero]

/--
What was read has a length that fits into its four bytes.
-/
theorem length_of_readString {reader reader' : SshWireReader} {value : Bytes}
    (h : reader.readString = (some value, reader'))
    : value.length < 4294967296 := by
  simp only [readString] at h
  split at h
  . simp at h
  . split at h
    . simp at h
    . simp only [Prod.mk.injEq, Option.some.injEq] at h
      obtain ⟨rfl, -⟩ := h
      exact Nat.lt_of_le_of_lt (List.length_take_le ..) (readBe32_lt _)

end SshWireReader
end SimpleRsyncd
