import SimpleRsyncd.Bytes.Numeral

/-!
This module contains JSON values and a parser of the JSON grammar. Texts are in UTF-8, so a byte from 128
on is a part of a character that stands for itself.
-/

namespace SimpleRsyncd

/--
A number is the text that it is written as. An object keeps its members in the order of the text.
-/
inductive Json where
  | null
  | bool (b : Bool)
  | number (text : Bytes)
  | string (s : Bytes)
  | array (items : List Json)
  | object (members : List (Bytes × Json))

namespace Json

def isSpace (c : UInt8) : Bool :=
  c == 32 || c == 9 || c == 10 || c == 13

def skipSpace (s : Bytes) : Bytes :=
  s.dropWhile isSpace

/--
A byte that may stand in a string as it is: no quotation mark, no backslash and no control character.
-/
def isPlain (c : UInt8) : Bool :=
  32 ≤ c && c != 34 && c != 92

def hexValue (c : UInt8) : Option Nat :=
  if 48 ≤ c ∧ c ≤ 57 then
    some (c.toNat - 48)
  else if 65 ≤ c ∧ c ≤ 70 then
    some (c.toNat - 55)
  else if 97 ≤ c ∧ c ≤ 102 then
    some (c.toNat - 87)
  else
    none

def readHex : Bytes → Option (Nat × Bytes)
  | a :: b :: c :: d :: s => do
    let a ← hexValue a
    let b ← hexValue b
    let c ← hexValue c
    let d ← hexValue d
    some (4096 * a + 256 * b + 16 * c + d, s)
  | _ => none

/--
The UTF-8 encoding of a code point, `none` for a surrogate.
-/
def encode (codePoint : Nat) : Option Bytes :=
  if codePoint.isValidChar then some (String.utf8EncodeChar (Char.ofNat codePoint)) else none

/--
What comes after `\u`. A high surrogate is the first half of a pair.
-/
def readUnicode (s : Bytes) : Option (Bytes × Bytes) :=
  match readHex s with
  | none => none
  | some (high, s) =>
    if 0xD800 ≤ high ∧ high < 0xDC00 then
      match s with
      | 92 :: 117 :: s =>
        match readHex s with
        | none => none
        | some (low, s) =>
          if 0xDC00 ≤ low ∧ low < 0xE000 then
            (encode (0x10000 + 1024 * (high - 0xD800) + (low - 0xDC00))).map (·, s)
          else
            none
      | _ => none
    else
      (encode high).map (·, s)

/--
The characters that a backslash and one other character stand for.
-/
def escapes : List (UInt8 × UInt8) :=
  [(34, 34), (92, 92), (47, 47), (98, 8), (102, 12), (110, 10), (114, 13), (116, 9)]

/--
What comes after a backslash.
-/
def readEscape : Bytes → Option (Bytes × Bytes)
  | [] => none
  | c :: s => if c = 117 then readUnicode s else (escapes.lookup c).map ([·], s)

/--
A character of a string.
-/
def readChar : Bytes → Option (Bytes × Bytes)
  | [] => none
  | c :: s => if c = 92 then readEscape s else if isPlain c then some ([c], s) else none

/--
What comes after the opening quotation mark, read in at most so many characters.
-/
def readChars : Nat → Bytes → Option (Bytes × Bytes)
  | 0, _ => none
  | n + 1, s =>
    if s.head? = some 34 then
      some ([], s.tail)
    else
      match readChar s with
      | none => none
      | some (char, s) => (readChars n s).map fun (chars, s) => (char ++ chars, s)

def readString (s : Bytes) : Option (Bytes × Bytes) :=
  if s.head? = some 34 then readChars s.length s.tail else none

def isNumberByte (c : UInt8) : Bool :=
  Bytes.isDigit c || c == 43 || c == 45 || c == 46 || c == 69 || c == 101

def isFraction (s : Bytes) : Bool :=
  s.isEmpty || (s.head? == some 46 && !s.tail.isEmpty && s.tail.all Bytes.isDigit)

def isExponent (s : Bytes) : Bool :=
  let digits := if s.tail.head? = some 43 ∨ s.tail.head? = some 45 then s.tail.tail else s.tail
  s.isEmpty || (!digits.isEmpty && digits.all Bytes.isDigit)

/--
An integer without leading zeros, a fraction and an exponent.
-/
def isNumber (s : Bytes) : Bool :=
  let s := if s.head? = some 45 then s.tail else s
  let integer := s.takeWhile Bytes.isDigit
  let s := s.dropWhile Bytes.isDigit
  let fraction := s.takeWhile fun c => c != 69 && c != 101
  let exponent := s.dropWhile fun c => c != 69 && c != 101
  !integer.isEmpty && (integer == [48] || integer.head? != some 48) && isFraction fraction && isExponent exponent

def readNumber (s : Bytes) : Option (Json × Bytes) :=
  let text := s.takeWhile isNumberByte
  if isNumber text then some (.number text, s.dropWhile isNumberByte) else none

def literals : List (Bytes × Json) :=
  [(bytes "null", .null), (bytes "true", .bool true), (bytes "false", .bool false)]

def readLiteral (s : Bytes) : Option (Json × Bytes) :=
  (literals.find? fun e => e.1.isPrefixOf s).map fun e => (e.2, s.drop e.1.length)

section lists

variable {α : Type} (close : UInt8) (item : Bytes → Option (α × Bytes))

/--
Items with commas between them, at most so many, and the bracket that closes them.
-/
def readItems : Nat → Bytes → Option (List α × Bytes)
  | 0, _ => none
  | n + 1, s =>
    match item s with
    | none => none
    | some (x, s) =>
      let s := skipSpace s
      if s.head? = some close then
        some ([x], s.tail)
      else if s.head? = some comma then
        (readItems n s.tail).map fun (xs, s) => (x :: xs, s)
      else
        none

/--
What comes after an opening bracket.
-/
def readList (s : Bytes) : Option (List α × Bytes) :=
  let t := skipSpace s
  if t.head? = some close then some ([], t.tail) else readItems close item s.length s

end lists

def readMember (value : Bytes → Option (Json × Bytes)) (s : Bytes) : Option ((Bytes × Json) × Bytes) :=
  match readString (skipSpace s) with
  | none => none
  | some (key, s) =>
    let s := skipSpace s
    if s.head? = some colon then (value s.tail).map fun (v, s) => ((key, v), s) else none

/--
A value that is nested at most so deep.
-/
def readValue : Nat → Bytes → Option (Json × Bytes)
  | 0, _ => none
  | n + 1, s =>
    let s := skipSpace s
    if s.head? = some 34 then
      (readString s).map fun (chars, s) => (.string chars, s)
    else if s.head? = some 123 then
      (readList 125 (readMember (readValue n)) s.tail).map fun (members, s) => (.object members, s)
    else if s.head? = some 91 then
      (readList 93 (readValue n) s.tail).map fun (items, s) => (.array items, s)
    else
      (readLiteral s).or (readNumber s)

/--
The value that a text is. No value is nested deeper than its text is long.
-/
def decode (s : Bytes) : Option Json :=
  match readValue (s.length + 1) s with
  | none => none
  | some (v, s) => if skipSpace s = [] then some v else none

/--
The member of this name, the last one if there are several.
-/
def get? (members : List (Bytes × Json)) (key : Bytes) : Option Json :=
  (members.reverse.find? fun m => m.1 == key).map (·.2)

end Json
end SimpleRsyncd
