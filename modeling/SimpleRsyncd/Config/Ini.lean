import SimpleRsyncd.Config.Assignment
import SimpleRsyncd.Config.Environment

/-!
This module contains the loader for configuration files that are neither JSON nor YAML: lines with
`key = value` pairs below section headers.
-/

namespace SimpleRsyncd
namespace Configuration

def flagValue (value : Bytes) : Bool :=
  value = bytes "true" || value = bytes "1" || value = bytes "yes"

/--
A key may have a second spelling.
-/
def isKey (key : Bytes) (spellings : List String) : Bool :=
  spellings.any fun s => key = bytes s

def parseGlobalConfig (key value : Bytes) : List Assignment :=
  if isKey key ["bind_address", "address"] then
    [.set .bindAddress value]
  else if isKey key ["bind_port", "port"] then
    match stoul value with
    | some n => [.set .bindPort (UInt16.ofNat n)]
    | none => [.error (bytes "Invalid port value: " ++ value)]
  else if isKey key ["max_connections"] then
    match stoul value with
    | some n => [.set .maxConnections n]
    | none => [.error (bytes "Invalid max_connections value: " ++ value)]
  else if isKey key ["ssl_enabled"] then
    [.set .sslEnabled (flagValue value)]
  else if isKey key ["ssl_certificate_file", "ssl_cert"] then
    [.set .certificateFile value]
  else if isKey key ["ssl_private_key_file", "ssl_key"] then
    [.set .privateKeyFile value]
  else if isKey key ["ssl_ca_file", "ssl_ca"] then
    [.set .caFile value]
  else if isKey key ["auth_enabled"] then
    [.set .authEnabled (flagValue value)]
  else if isKey key ["auth_method"] then
    [.set .method value]
  else if isKey key ["auth_password_file", "password_file"] then
    [.set .passwordFile value]
  else if isKey key ["auth_public_key_file", "public_key_file"] then
    [.set .publicKeyFile value]
  else if isKey key ["auth_realm"] then
    [.set .realm value]
  else if isKey key ["auth_anonymous_access", "anonymous_access"] then
    [.set .anonymousAccess (flagValue value)]
  else if isKey key ["reject_plaintext_passwords"] then
    [.set .rejectPlaintextPasswords (flagValue value)]
  else if isKey key ["log_level", "log"] then
    [.set .logLevel value]
  else if isKey key ["log_file"] then
    [.set .logFile value, .set .fileOutput true]
  else if isKey key ["pid_file"] then
    [.set .pidFile value]
  else if isKey key ["user"] then
    [.set .user value, .set .securityUser value]
  else if isKey key ["group"] then
    [.set .group value, .set .securityGroup value]
  else
    []

/--
The assignment to a module, a key that is not known becomes a custom option.
-/
def moduleAssignment (key value : Bytes) : ModuleAssignment :=
  if isKey key ["path"] then
    .set .path value
  else if isKey key ["comment"] then
    .set .comment value
  else if isKey key ["read_only", "read only"] then
    .set .readOnly (flagValue value)
  else if isKey key ["list"] then
    .set .list (flagValue value)
  else if isKey key ["delete"] then
    .set .allowDelete (flagValue value)
  else if isKey key ["overwrite"] then
    .set .overwrite (flagValue value)
  else if isKey key ["exclude"] then
    .exclude value
  else if isKey key ["include"] then
    .includes value
  else if isKey key ["pre_transfer_script", "pre-transfer-script"] then
    .set .preTransferScript value
  else if isKey key ["post_transfer_script", "post-transfer-script"] then
    .set .postTransferScript value
  else if isKey key ["pre_delete_script", "pre-delete-script"] then
    .set .preDeleteScript value
  else if isKey key ["post_delete_script", "post-delete-script"] then
    .set .postDeleteScript value
  else if isKey key ["pre_list_script", "pre-list-script"] then
    .set .preListScript value
  else if isKey key ["post_list_script", "post-list-script"] then
    .set .postListScript value
  else
    .option key value

def parseModuleConfig (moduleName key value : Bytes) : List Assignment :=
  [.inModule moduleName .declare, .inModule moduleName (moduleAssignment key value)]

/--
What the loop over the lines keeps from one line to the next.
-/
structure IniState where
  currentSection : Bytes := []
  lineNumber : Nat := 0
  inModule : Bool := false
  currentModule : Bytes := []

def trim (s : Bytes) : Bytes :=
  Bytes.trimRight (Bytes.trimLeft s)

/--
A value without the quotes around it.
-/
def unquote (value : Bytes) : Bytes :=
  if !value.isEmpty && (value.head? = some 34 && value.getLast? = some 34
      || value.head? = some 39 && value.getLast? = some 39) then
    (value.drop 1).take (value.length - 2)
  else
    value

def parseHeader (state : IniState) (header : Bytes) : IniState × List Assignment :=
  if header = bytes "global" then
    ({ state with currentSection := header, inModule := false }, [])
  else if Bytes.startsWith header (bytes "module:") then
    let currentModule := header.drop 7
    (
      { state with currentModule, currentSection := bytes "module", inModule := true },
      [.inModule currentModule .declare]
    )
  else
    ({ state with currentSection := header, inModule := false }, [])

variable (getenv : Bytes → Option Bytes)

/--
The assignments of a line with a key and a value, there are none in a section that is not known.
-/
def parsePair (state : IniState) (key value : Bytes) : List Assignment :=
  if state.currentSection = bytes "global" || state.currentSection.isEmpty then
    parseGlobalConfig key value
  else if state.inModule && state.currentSection = bytes "module" then
    parseModuleConfig state.currentModule key value
  else
    []

def parseLine (state : IniState) (line : Bytes) : IniState × List Assignment :=
  let state := { state with lineNumber := state.lineNumber + 1 }
  let line := trim line
  if line.isEmpty || line.head? = some 35 || line.head? = some 59 then
    (state, [])
  else if line.head? = some 91 && line.getLast? = some 93 then
    parseHeader state (trim ((line.drop 1).take (line.length - 2)))
  else
    match Bytes.cut 61 line with
    | none =>
      (state, [.error (bytes "Invalid line " ++ Bytes.ofNat state.lineNumber ++ bytes ": " ++ line)])
    | some (key, value) =>
      let value := substituteEnvironmentVariables getenv (unquote (trim value))
      (state, parsePair state (trim key) value)

/--
The assignments of all lines.
-/
def parseLines (state : IniState) : List Bytes → List Assignment
  | [] => []
  | line :: lines =>
    let (state, assignments) := parseLine getenv state line
    assignments ++ parseLines state lines

def parseIni (content : Bytes) : List Assignment :=
  parseLines getenv {} (Bytes.getlines newline content)

end Configuration
end SimpleRsyncd
