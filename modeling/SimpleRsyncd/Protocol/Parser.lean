import SimpleRsyncd.Bytes.Basic

/-!
This module contains `ProtocolParser`: the parsing of one request and the building of responses.
The protocol version of the header line is left out, nothing reads it.
-/

namespace SimpleRsyncd

inductive ProtocolCommand where
  | list
  | get
  | put
  | delete
  | stat
  | auth
  | unknown
  deriving DecidableEq

/--
The `key=value` arguments of a request, at most one value for each key.
-/
abbrev Arguments := List (Bytes × Bytes)

/--
`args[key] = value`.
-/
def Arguments.insert (args : Arguments) (key value : Bytes) : Arguments :=
  (key, value) :: args.filter (·.1 ≠ key)

structure ProtocolMessage where
  command : ProtocolCommand := .unknown
  module : Bytes := []
  path : Bytes := []
  arguments : Arguments := []
  valid : Bool := false
  errorMessage : Bytes := []
  deriving DecidableEq

namespace ProtocolParser

def parseCommand (line : Bytes) : ProtocolCommand :=
  let cmd := ((Bytes.words line).head?.getD []).map Bytes.toupper
  if cmd = bytes "LIST" || cmd = bytes "LS" then
    .list
  else if cmd = bytes "GET" || cmd = bytes "DOWNLOAD" then
    .get
  else if cmd = bytes "PUT" || cmd = bytes "UPLOAD" || cmd = bytes "SEND" then
    .put
  else if cmd = bytes "DELETE" || cmd = bytes "DEL" || cmd = bytes "RM" then
    .delete
  else if cmd = bytes "STAT" || cmd = bytes "STATUS" || cmd = bytes "INFO" then
    .stat
  else if cmd = bytes "AUTH" || cmd = bytes "LOGIN" then
    .auth
  else
    .unknown

/--
The second word of the line, empty if there is none.
-/
def parseModule (line : Bytes) : Bytes :=
  (Bytes.words line)[1]?.getD []

/--
The third word of the line, empty if there is none.
-/
def parsePath (line : Bytes) : Bytes :=
  (Bytes.words line)[2]?.getD []

def equals : UInt8 := 61

def parseArguments (line : Bytes) : Arguments :=
  ((Bytes.words line).drop 3).foldl add []
where
  add (args : Arguments) (token : Bytes) : Arguments :=
    if equals ∈ token then
      args.insert (token.takeWhile (· ≠ equals)) (token.dropWhile (· ≠ equals)).tail
    else
      args

/--
A line without header: an unknown command keeps the other fields empty, and a module is required.
-/
def parseBareLine (line : Bytes) : ProtocolMessage :=
  let command := parseCommand line
  if command ≠ .unknown then
    {
      command
      module := parseModule line
      path := parsePath line
      arguments := parseArguments line
      valid := !(parseModule line).isEmpty
    }
  else
    { command }

/--
The line after a header, where no module is required.
-/
def parseHeadedLine (line : Bytes) : ProtocolMessage :=
  let command := parseCommand line
  {
    command
    module := parseModule line
    path := parsePath line
    arguments := parseArguments line
    valid := command ≠ .unknown
  }

/--
Only the first line counts, or the second one if the first is a header. What follows is dropped.
-/
def parse (data : Bytes) : ProtocolMessage :=
  match Bytes.getline data with
  | none => { errorMessage := bytes "Empty data" }
  | some (line, rest) =>
    if Bytes.startsWith line (bytes "@RSYNCD:") then
      match Bytes.getline rest with
      | none => {}
      | some (line, _) => parseHeadedLine line
    else
      parseBareLine line

def formatSuccess (message : Bytes) : Bytes :=
  bytes "@RSYNCD: OK\n" ++ message ++ bytes "\n"

def formatError (code : Int) (message : Bytes) : Bytes :=
  bytes "@RSYNCD: ERROR " ++ Bytes.ofInt code ++ bytes "\n" ++ message ++ bytes "\n"

def buildResponse (success : Bool) (message : Bytes) : Bytes :=
  if success then formatSuccess message else formatError (-1) message

def buildErrorResponse (errorCode : Int) (errorMessage : Bytes) : Bytes :=
  formatError errorCode errorMessage

example : parse (bytes "@RSYNCD: 30\nlist mod /x recursive=true\nGET a b\n")
    = {
        command := .list
        module := bytes "mod"
        path := bytes "/x"
        arguments := [(bytes "recursive", bytes "true")]
        valid := true
      } := by
  decide

theorem mem_words_or_nil (line : Bytes) (i : Nat)
    : (Bytes.words line)[i]?.getD [] ∈ Bytes.words line ∨ (Bytes.words line)[i]?.getD [] = [] := by
  cases h : (Bytes.words line)[i]? with
  | none => simp
  | some w => exact .inl (by simpa using List.mem_of_getElem? h)

theorem not_isspace_of_word {line : Bytes} {i : Nat}
    : ∀ c ∈ (Bytes.words line)[i]?.getD [], Bytes.isspace c = false := by
  cases mem_words_or_nil line i with
  | inl h => exact Bytes.not_isspace_of_mem_words h
  | inr h => simp [h]

theorem parseBareLine_no_space (line : Bytes)
    : (∀ c ∈ (parseBareLine line).module, Bytes.isspace c = false)
        ∧ ∀ c ∈ (parseBareLine line).path, Bytes.isspace c = false := by
  unfold parseBareLine
  dsimp only
  split
  . exact ⟨not_isspace_of_word, not_isspace_of_word⟩
  . simp

/--
The module and the path of a request are single words.
-/
theorem parse_no_space (data : Bytes)
    : (∀ c ∈ (parse data).module, Bytes.isspace c = false)
        ∧ ∀ c ∈ (parse data).path, Bytes.isspace c = false := by
  unfold parse
  split
  . simp
  . split
    . split
      . simp
      . exact ⟨not_isspace_of_word, not_isspace_of_word⟩
    . apply parseBareLine_no_space

end ProtocolParser
end SimpleRsyncd
