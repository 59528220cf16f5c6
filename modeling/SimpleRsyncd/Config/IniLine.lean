import SimpleRsyncd.Config.Ini

/-!
This module determines what a line of an INI file is, and what the loop over the lines does for each kind of line.
-/

namespace SimpleRsyncd
namespace Configuration

/--
The kinds of lines. A header has the text between its brackets, a pair has a value without quotes, and a line
that is neither has its text.
-/
inductive IniLine where
  | blank
  | header (name : Bytes)
  | pair (key value : Bytes)
  | malformed (text : Bytes)

def IniLine.read (line : Bytes) : IniLine :=
  let text := trim line
  if text.isEmpty || text.head? = some 35 || text.head? = some 59 then
    .blank
  else if text.head? = some 91 && text.getLast? = some 93 then
    .header (trim ((text.drop 1).take (text.length - 2)))
  else
    match Bytes.cut 61 text with
    | none => .malformed text
    | some (key, value) => .pair (trim key) (unquote (trim value))

def IniState.next (state : IniState) : IniState :=
  { state with lineNumber := state.lineNumber + 1 }

/--
Only the number of the line is different from now on.
-/
theorem parsePair_next (state : IniState) (key value : Bytes)
    : parsePair state.next key value = parsePair state key value := rfl

variable (getenv : Bytes → Option Bytes)

theorem parseLine_eq (state : IniState) (line : Bytes)
    : parseLine getenv state line
      = match IniLine.read line with
        | .blank => (state.next, [])
        | .header name => parseHeader state.next name
        | .pair key value => (state.next, parsePair state.next key (substituteEnvironmentVariables getenv value))
        | .malformed text =>
          (
            state.next,
            [.error (bytes "Invalid line " ++ Bytes.ofNat state.next.lineNumber ++ bytes ": " ++ text)]
          ) := by
  unfold parseLine IniLine.read IniState.next
  simp only
  split
  . rfl
  . split
    . rfl
    . cases Bytes.cut 61 (trim line) <;> rfl

theorem apply_ite_eq {α β : Type} {c : Prop} [Decidable c] {f : α → β} {a b : α} {r : β} (ha : f a = r) (hb : f b = r)
    : f (if c then a else b) = r := by
  split
  . exact ha
  . exact hb

end Configuration
end SimpleRsyncd
