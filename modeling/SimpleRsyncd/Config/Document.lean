import SimpleRsyncd.Config.Assignment

/-!
This module contains the loaders for JSON and YAML documents. The libraries that parse the documents
are a parameter, the loaders differ in a few keys only.
-/

namespace SimpleRsyncd

/--
A library for documents. A function that throws returns what the exception says.
-/
structure DocumentLibrary where
  Node : Type
  parse : Bytes → Except Bytes Node
  /-- `isMember` and `operator[]` in jsoncpp, `operator[]` and `IsDefined` in yaml-cpp. -/
  find : Node → Bytes → Except Bytes (Option Node)
  isNull : Node → Bool
  asString : Node → Except Bytes Bytes
  asBool : Node → Except Bytes Bool
  asUInt : Node → Except Bytes UInt32
  asSize : Node → Except Bytes UInt64
  /-- The elements of an array. -/
  elements : Node → Option (List Node)
  /-- The members of an object, with the names as strings. -/
  members : Node → Option (List (Except Bytes Bytes × Node))

/--
A library that understands no document.
-/
def DocumentLibrary.unavailable : DocumentLibrary where
  Node := Unit
  parse := fun _ => .error (bytes "parsing not available")
  find := fun _ _ => .ok none
  isNull := fun _ => true
  asString := fun _ => .ok []
  asBool := fun _ => .ok false
  asUInt := fun _ => .ok 0
  asSize := fun _ => .ok 0
  elements := fun _ => none
  members := fun _ => none

/--
A computation that makes assignments and may throw.
-/
abbrev Loader := ExceptT Bytes (StateM (List Assignment))

namespace Loader

def assign (assignments : List Assignment) : Loader Unit :=
  modify (· ++ assignments)

/--
The assignments made, and what was thrown in the end.
-/
def run (loader : Loader Unit) : Except Bytes Unit × List Assignment :=
  StateT.run (ExceptT.run loader) []

end Loader

namespace DocumentLibrary

variable (lib : DocumentLibrary) (node : lib.Node)

/--
Do something with the member of that name, if there is one.
-/
def onMember (key : String) (f : lib.Node → Loader Unit) : Loader Unit := do
  match ← lib.find node (bytes key) with
  | some member => f member
  | none => pure ()

/--
The same for a member with two names, the first one is preferred.
-/
def onEither (key key' : String) (f : lib.Node → Loader Unit) : Loader Unit := do
  match ← lib.find node (bytes key) with
  | some member => f member
  | none => lib.onMember node key' f

def setString (set : Bytes → List Assignment) (node : lib.Node) : Loader Unit := do
  Loader.assign (set (← lib.asString node))

def setBool (set : Bool → List Assignment) (node : lib.Node) : Loader Unit := do
  Loader.assign (set (← lib.asBool node))

def setUInt (set : UInt32 → List Assignment) (node : lib.Node) : Loader Unit := do
  Loader.assign (set (← lib.asUInt node))

def setSize (set : UInt64 → List Assignment) (node : lib.Node) : Loader Unit := do
  Loader.assign (set (← lib.asSize node))

/--
One assignment for each element, there are none in a node that is not an array.
-/
def pushStrings (push : Bytes → Assignment) (node : lib.Node) : Loader Unit :=
  match lib.elements node with
  | none => pure ()
  | some elements => elements.forM (lib.setString fun v => [push v])

/--
`parseJSONGlobal` and `parseYAMLGlobal`.
-/
def parseGlobal (global : lib.Node) : Loader Unit := do
  lib.onEither global "bind_address" "address" (lib.setString fun v => [.set .bindAddress v])
  lib.onEither global "bind_port" "port" (lib.setUInt fun v => [.set .bindPort v.toUInt16])
  lib.onMember global "max_connections" (lib.setUInt fun v => [.set .maxConnections v.toNat])
  lib.onMember global "pid_file" (lib.setString fun v => [.set .pidFile v])
  lib.onMember global "user" (lib.setString fun v => [.set .user v, .set .securityUser v])
  lib.onMember global "group" (lib.setString fun v => [.set .group v, .set .securityGroup v])

/--
The global settings are either in a section of their own or at the root.
-/
def parseGlobalSection (root : lib.Node) : Loader Unit := do
  match ← lib.find root (bytes "global") with
  | some global => lib.parseGlobal global
  | none => lib.parseGlobal root

def parseNetwork (net : lib.Node) : Loader Unit := do
  lib.onMember net "bind_address" (lib.setString fun v => [.set .bindAddress v])
  lib.onMember net "bind_port" (lib.setUInt fun v => [.set .bindPort v.toUInt16])
  lib.onMember net "max_connections" (lib.setUInt fun v => [.set .maxConnections v.toNat])
  lib.onMember net "backlog" (lib.setUInt fun v => [.set .backlog v.toInt32])
  lib.onMember net "worker_threads" (lib.setUInt fun v => [.set .workerThreads v.toNat])

def parseSSL (ssl : lib.Node) : Loader Unit := do
  lib.onMember ssl "enabled" (lib.setBool fun v => [.set .sslEnabled v])
  lib.onMember ssl "certificate_file" (lib.setString fun v => [.set .certificateFile v])
  lib.onMember ssl "private_key_file" (lib.setString fun v => [.set .privateKeyFile v])
  lib.onMember ssl "ca_file" (lib.setString fun v => [.set .caFile v])

def parseAuth (auth : lib.Node) : Loader Unit := do
  lib.onMember auth "enabled" (lib.setBool fun v => [.set .authEnabled v])
  lib.onMember auth "method" (lib.setString fun v => [.set .method v])
  lib.onMember auth "password_file" (lib.setString fun v => [.set .passwordFile v])
  lib.onMember auth "public_key_file" (lib.setString fun v => [.set .publicKeyFile v])
  lib.onMember auth "realm" (lib.setString fun v => [.set .realm v])
  lib.onMember auth "anonymous_access" (lib.setBool fun v => [.set .anonymousAccess v])
  lib.onMember auth "allowed_users" (lib.pushStrings .allowUser)
  lib.onMember auth "denied_users" (lib.pushStrings .denyUser)

def parsePolicy (policy : lib.Node) : Loader Unit := do
  lib.onMember policy "min_length" (lib.setSize fun v => [.set .minLength v.toNat])
  lib.onMember policy "require_uppercase" (lib.setBool fun v => [.set .requireUppercase v])
  lib.onMember policy "require_lowercase" (lib.setBool fun v => [.set .requireLowercase v])
  lib.onMember policy "require_digits" (lib.setBool fun v => [.set .requireDigits v])
  lib.onMember policy "require_special" (lib.setBool fun v => [.set .requireSpecial v])
  lib.onMember policy "expiration_hours"
    (lib.setUInt fun v => [.set .expirationHours (Int.ofNat v.toNat)])

def parseLog (log : lib.Node) : Loader Unit := do
  lib.onMember log "level" (lib.setString fun v => [.set .logLevel v])
  lib.onMember log "file" (lib.setString fun v => [.set .logFile v, .set .fileOutput true])
  lib.onMember log "format"
    (lib.setString fun v => [.set .logFormat (if v = bytes "json" then v else bytes "text")])
  lib.onMember log "max_file_size" (lib.setSize fun v => [.set .maxFileSize v.toNat])
  lib.onMember log "max_files" (lib.setSize fun v => [.set .maxFiles v.toNat])
  lib.onMember log "compress_old_logs" (lib.setBool fun v => [.set .compressOldLogs v])

def parseReload (config : lib.Node) : Loader Unit := do
  lib.onMember config "auto_reload" (lib.setBool fun v => [.set .autoReload v])
  lib.onMember config "reload_interval" (lib.setUInt fun v => [.set .reloadInterval v.toNat])

/--
What `parseJSONModule` and `parseYAMLModule` have in common at their beginning.
-/
def parseModuleBasics (name : Bytes) (module' : lib.Node) : Loader Unit := do
  Loader.assign [.inModule name .declare, .inModule name (.set .name name)]
  lib.onMember module' "path" (lib.setString fun v => [.inModule name (.set .path v)])
  lib.onMember module' "comment" (lib.setString fun v => [.inModule name (.set .comment v)])
  lib.onMember module' "read_only" (lib.setBool fun v => [.inModule name (.set .readOnly v)])
  lib.onMember module' "list" (lib.setBool fun v => [.inModule name (.set .list v)])

def parseJSONModule (name : Bytes) (module' : lib.Node) : Loader Unit := do
  lib.parseModuleBasics name module'
  lib.onMember module' "allow_delete" (lib.setBool fun v => [.inModule name (.set .allowDelete v)])
  lib.onMember module' "overwrite" (lib.setBool fun v => [.inModule name (.set .overwrite v)])
  lib.onMember module' "exclude" (lib.pushStrings fun v => .inModule name (.exclude v))
  lib.onMember module' "include" (lib.pushStrings fun v => .inModule name (.includes v))

def parseYAMLModule (name : Bytes) (module' : lib.Node) : Loader Unit := do
  lib.parseModuleBasics name module'
  lib.onEither module' "allow_delete" "delete"
    (lib.setBool fun v => [.inModule name (.set .allowDelete v)])
  lib.onMember module' "overwrite" (lib.setBool fun v => [.inModule name (.set .overwrite v)])
  lib.onEither module' "exclude" "exclude_patterns"
    (lib.pushStrings fun v => .inModule name (.exclude v))
  lib.onEither module' "include" "include_patterns"
    (lib.pushStrings fun v => .inModule name (.includes v))
  let script (key : String) (s : Bytes → ModuleAssignment) : Loader Unit :=
    lib.onMember module' key (lib.setString fun v => [.inModule name (s v)])
  script "pre_transfer_script" (.set .preTransferScript)
  script "post_transfer_script" (.set .postTransferScript)
  script "pre_delete_script" (.set .preDeleteScript)
  script "post_delete_script" (.set .postDeleteScript)
  script "pre_list_script" (.set .preListScript)
  script "post_list_script" (.set .postListScript)

def parseModules (parseModule : Bytes → lib.Node → Loader Unit) (modules : lib.Node) : Loader Unit :=
  match lib.members modules with
  | none => pure ()
  | some members => members.forM fun e => do parseModule (← e.1) e.2

def parseJSON (root : lib.Node) : Loader Unit := do
  lib.parseGlobalSection root
  lib.onMember root "network" lib.parseNetwork
  lib.onMember root "ssl" lib.parseSSL
  lib.onMember root "auth" lib.parseAuth
  lib.onMember root "modules" (lib.parseModules lib.parseJSONModule)

def parseYAML (root : lib.Node) : Loader Unit := do
  lib.parseGlobalSection root
  lib.onMember root "network" lib.parseNetwork
  lib.onMember root "ssl" lib.parseSSL
  lib.onMember root "auth" fun auth => do
    lib.parseAuth auth
    lib.onMember auth "password_policy" lib.parsePolicy
    lib.onMember auth "session" fun session =>
      lib.onMember session "timeout" (lib.setUInt fun v => [.set .sessionTimeout v.toNat])
  lib.onMember root "log" lib.parseLog
  lib.onMember root "config" lib.parseReload
  lib.onMember root "modules" (lib.parseModules lib.parseYAMLModule)

end DocumentLibrary
end SimpleRsyncd
