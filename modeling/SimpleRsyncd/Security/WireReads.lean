import Mathlib.Algebra.Group.Nat.Defs
import SimpleRsyncd.Security.SshWire
import SimpleRsyncd.Transition.Basic

/-!
This module contains sequences of calls on an `SshWireReader`: strings that were appended one after the other
are read back, and no call leaves the buffer, whatever is in it.
-/

namespace SimpleRsyncd
namespace SshWireReader

/--
The calls that move the offset.
-/
inductive Call where
  | readString
  | readByte

namespace Call

/--
What a call returns through its argument, `none` where it returns false.
-/
def perform : Call → SshWireReader → Option Bytes × SshWireReader
  | .readString, reader => reader.readString
  | .readByte, reader =>
    let (byte, reader) := reader.readByte
    (byte.map ([·]), reader)

/--
Where the bytes that a call returns start in the buffer, and how many there are.
-/
def source : Call → SshWireReader → Nat × Nat
  | .readString, reader => (reader.offset + 4, readBe32 reader.rest)
  | .readByte, reader => (reader.offset, 1)

end Call

def step : Transition SshWireReader Call :=
  .ofFun fun call reader => (call.perform reader).2

/--
The results of a number of calls of `readString`.
-/
def readStrings : Nat → SshWireReader → List (Option Bytes) × SshWireReader
  | 0, reader => ([], reader)
  | n + 1, reader =>
    let (value, reader) := reader.readString
    let (values, reader) := readStrings n reader
    (value :: values, reader)

variable {reader : SshWireReader}

theorem readStrings_of_rest (reader : SshWireReader) {values : List Bytes} (hlt : ∀ value ∈ values, value.length < 4294967296)
    (h : reader.rest = values.flatMap wireString)
    : ∃ reader', readStrings values.length reader = (values.map some, reader') ∧ reader'.rest = [] := by
  induction values generalizing reader with
  | nil => exact ⟨reader, rfl, h⟩
  | cons value values ih =>
    obtain ⟨hvalue, hvalues⟩ := List.forall_mem_cons.mp hlt
    obtain ⟨reader₁, hread, hrest⟩ := exists_readString reader hvalue h
    obtain ⟨reader', hreads, hrest'⟩ := ih reader₁ hvalues hrest
    exact ⟨reader', by simp only [List.length_cons, readStrings, hread, hreads, List.map_cons], hrest'⟩

theorem foldl_appendWireString (values : List Bytes) (out : Bytes)
    : values.foldl appendWireString out = out ++ values.flatMap wireString := by
  induction values generalizing out with
  | nil => simp
  | cons value values ih => rw [List.foldl_cons, ih, appendWireString, List.flatMap_cons, List.append_assoc]

theorem remaining_of_rest (h : reader.rest = []) : reader.remaining = 0 := by
  rw [rest, List.drop_eq_nil_iff] at h
  rw [remaining, if_neg (by omega)]

/--
What a call can do: fail, even behind the length of a string that is not there, or return the bytes up to
its new offset.
-/
theorem perform_cases (call : Call) (reader : SshWireReader)
    : (∃ offset ≤ max reader.offset reader.data.length,
        call.perform reader = (none, { reader with offset }))
      ∨ ∃ start len, call.source reader = (start, len) ∧ start + len ≤ reader.data.length
        ∧ call.perform reader = (some ((reader.data.drop start).take len), { reader with offset := start + len }) := by
  cases call with
  | readString =>
    simp only [Call.perform, Call.source, readString]
    by_cases hlength : reader.offset + 4 > reader.data.length
    . rw [if_pos hlength]
      exact .inl ⟨reader.offset, Nat.le_max_left _ _, rfl⟩
    . rw [if_neg hlength]
      by_cases hvalue : reader.offset + 4 + readBe32 (reader.data.drop reader.offset) > reader.data.length
      . -- the length was there, and stays read
        rw [if_pos hvalue]
        exact .inl ⟨reader.offset + 4, by omega, rfl⟩
      . rw [if_neg hvalue]
        exact .inr ⟨_, _, rfl, Nat.le_of_not_gt hvalue, rfl⟩
  | readByte =>
    simp only [Call.perform, Call.source, readByte]
    cases hbyte : reader.data[reader.offset]? with
    | none => exact .inl ⟨reader.offset, Nat.le_max_left _ _, rfl⟩
    | some byte =>
      obtain ⟨hlt, rfl⟩ := List.getElem?_eq_some_iff.mp hbyte
      refine .inr ⟨_, _, rfl, hlt, ?_⟩
      rw [List.drop_eq_getElem_cons hlt]
      rfl

/--
The offset stays within the buffer.
-/
theorem inBounds_step {reader' : SshWireReader} {call : Call} (hoffset : reader.offset ≤ reader.data.length)
    (h : step reader call reader')
    : reader'.data = reader.data ∧ reader'.offset ≤ reader.data.length := by
  obtain rfl : (call.perform reader).2 = reader' := h
  rcases perform_cases call reader with ⟨offset, hle, hperform⟩ | ⟨start, len, -, hle, hperform⟩
  . rw [hperform]
    exact ⟨rfl, by dsimp only; omega⟩
  . rw [hperform]
    exact ⟨rfl, hle⟩

theorem inBounds_run {data : Bytes} {calls : List Call} (hrun : Transition.Run step { data } calls reader)
    : reader.data = data ∧ reader.offset ≤ data.length := by
  refine hrun.invariant (I := fun reader => reader.data = data ∧ reader.offset ≤ data.length) ⟨rfl, Nat.zero_le _⟩ ?_
  rintro reader call reader' ⟨rfl, hoffset⟩ hstep
  exact inBounds_step hoffset hstep

/--
No sum that is compared with the size of the buffer is far behind it, so that none wraps around for a buffer that
fits into memory.
-/
theorem sum_lt (hoffset : reader.offset ≤ reader.data.length)
    : reader.offset + 4 + readBe32 reader.rest < reader.data.length + 2 ^ 33 := by
  have := readBe32_lt reader.rest
  omega

/--
Strings that were appended to an empty buffer are read back in order, and from any buffer the bytes that a call
returns, after any other calls, are the ones at their place in it.
-/
theorem readString_roundtrip
    : (∀ values : List Bytes, (∀ value ∈ values, value.length < 2 ^ 32) →
        ∃ reader, readStrings values.length { data := values.foldl appendWireString [] } = (values.map some, reader)
          ∧ reader.remaining = 0)
      ∧ ∀ (data : Bytes) (calls : List Call) (reader : SshWireReader), Transition.Run step { data } calls reader →
        reader.offset ≤ data.length ∧ reader.offset + 4 + readBe32 reader.rest < data.length + 2 ^ 33
          ∧ ∀ (call : Call) (value : Bytes) (reader' : SshWireReader), call.perform reader = (some value, reader') →
            ∃ start len, call.source reader = (start, len) ∧ start + len ≤ data.length
              ∧ value = (data.drop start).take len ∧ reader'.offset = start + len := by
  constructor
  . intro values hlt
    obtain ⟨reader, hreads, hrest⟩ := readStrings_of_rest { data := values.foldl appendWireString [] } hlt
      (foldl_appendWireString values [])
    exact ⟨reader, hreads, remaining_of_rest hrest⟩
  . intro data calls reader hrun
    obtain ⟨rfl, hoffset⟩ := inBounds_run hrun
    refine ⟨hoffset, sum_lt hoffset, ?_⟩
    intro call value reader' hperform
    rcases perform_cases call reader with ⟨offset, -, hfails⟩ | ⟨start, len, hsource, hle, hreturns⟩
    . rw [hfails] at hperform
      simp at hperform
    . rw [hreturns] at hperform
      obtain ⟨hvalue, rfl⟩ := Prod.mk.inj hperform
      exact ⟨start, len, hsource, hle, (Option.some.inj hvalue).symm, rfl⟩

/--
A length that promises more than there is.
-/
def cutOff : SshWireReader :=
  { data := [0, 0, 0, 9, 65] }

theorem readString_roundtrip_pair
    : (∃ reader, readStrings 2 { data := [bytes "ab", []].foldl appendWireString [] } = ([some (bytes "ab"), some []], reader)
        ∧ reader.remaining = 0)
      ∧ ∃ start len, Call.source .readByte { cutOff with offset := 4 } = (start, len) ∧ start + len ≤ cutOff.data.length
        ∧ [65] = (cutOff.data.drop start).take len ∧ 5 = start + len := by
  constructor
  . exact readString_roundtrip.1 [bytes "ab", []] (by decide)
  . have hrun : Transition.Run step { data := cutOff.data } [.readString] { cutOff with offset := 4 } := .single rfl
    exact (readString_roundtrip.2 _ _ _ hrun).2.2 .readByte [65] { cutOff with offset := 5 } rfl

end SshWireReader
end SimpleRsyncd
