import SimpleRsyncd.Config.Effect
import SimpleRsyncd.Config.IniText
import SimpleRsyncd.Config.Tree

/-!
This module contains the settings that are documented for all formats, and how values for them are
written as an INI text, as a JSON tree and as a YAML tree.
-/

namespace SimpleRsyncd

/--
A text that fits on a line.
-/
structure Line where
  text : Bytes
  single : newline ∉ text

/--
What the values of a documented setting are.
-/
inductive ValueKind where
  | text
  | flag
  | port
  | count

namespace ValueKind

def Value : ValueKind → Type
  | .text => Line
  | .flag => Bool
  | .port => UInt16
  | .count => UInt64

def flagText (b : Bool) : Bytes :=
  if b then bytes "true" else bytes "false"

/--
A value in an INI file.
-/
def iniText : (k : ValueKind) → k.Value → Bytes
  | .text, v => Line.text v
  | .flag, v => flagText v
  | .port, v => Bytes.ofNat (UInt16.toNat v)
  | .count, v => Bytes.ofNat (UInt64.toNat v)

def tree : (k : ValueKind) → k.Value → Tree
  | .text, v => .text (Line.text v)
  | .flag, v => .flag v
  | .port, v => .number (UInt16.toNat v)
  | .count, v => .number (UInt64.toNat v)

end ValueKind

inductive DocumentedSetting where
  | bindAddress
  | bindPort
  | maxConnections
  | sslEnabled
  | certificateFile
  | privateKeyFile
  | caFile
  | authEnabled
  | method
  | passwordFile
  | publicKeyFile
  | realm
  | anonymousAccess
  deriving DecidableEq

namespace DocumentedSetting

def kind : DocumentedSetting → ValueKind
  | .bindAddress | .certificateFile | .privateKeyFile | .caFile => .text
  | .method | .passwordFile | .publicKeyFile | .realm => .text
  | .sslEnabled | .authEnabled | .anonymousAccess => .flag
  | .bindPort => .port
  | .maxConnections => .count

/--
The key in the section `global` of an INI file.
-/
def iniKey : DocumentedSetting → String
  | .bindAddress => "bind_address"
  | .bindPort => "bind_port"
  | .maxConnections => "max_connections"
  | .sslEnabled => "ssl_enabled"
  | .certificateFile => "ssl_certificate_file"
  | .privateKeyFile => "ssl_private_key_file"
  | .caFile => "ssl_ca_file"
  | .authEnabled => "auth_enabled"
  | .method => "auth_method"
  | .passwordFile => "auth_password_file"
  | .publicKeyFile => "auth_public_key_file"
  | .realm => "auth_realm"
  | .anonymousAccess => "auth_anonymous_access"

/--
The key in its section of a JSON or a YAML document.
-/
def key : DocumentedSetting → String
  | .bindAddress => "bind_address"
  | .bindPort => "bind_port"
  | .maxConnections => "max_connections"
  | .sslEnabled | .authEnabled => "enabled"
  | .certificateFile => "certificate_file"
  | .privateKeyFile => "private_key_file"
  | .caFile => "ca_file"
  | .method => "method"
  | .passwordFile => "password_file"
  | .publicKeyFile => "public_key_file"
  | .realm => "realm"
  | .anonymousAccess => "anonymous_access"

def setting : DocumentedSetting → Setting
  | .bindAddress => .bindAddress
  | .bindPort => .bindPort
  | .maxConnections => .maxConnections
  | .sslEnabled => .sslEnabled
  | .certificateFile => .certificateFile
  | .privateKeyFile => .privateKeyFile
  | .caFile => .caFile
  | .authEnabled => .authEnabled
  | .method => .method
  | .passwordFile => .passwordFile
  | .publicKeyFile => .publicKeyFile
  | .realm => .realm
  | .anonymousAccess => .anonymousAccess

/--
The value of the setting that is meant, with `expand` applied to a text.
-/
def meaning (expand : Bytes → Bytes) : (s : DocumentedSetting) → s.kind.Value → s.setting.Value
  | .bindAddress, v => expand (Line.text v)
  | .bindPort, v => (v : UInt16)
  | .maxConnections, v => UInt64.toNat v
  | .sslEnabled, v => (v : Bool)
  | .certificateFile, v => expand (Line.text v)
  | .privateKeyFile, v => expand (Line.text v)
  | .caFile, v => expand (Line.text v)
  | .authEnabled, v => (v : Bool)
  | .method, v => expand (Line.text v)
  | .passwordFile, v => expand (Line.text v)
  | .publicKeyFile, v => expand (Line.text v)
  | .realm, v => expand (Line.text v)
  | .anonymousAccess, v => (v : Bool)

def assignment (expand : Bytes → Bytes) (s : DocumentedSetting) (v : s.kind.Value) : Assignment :=
  .set s.setting (s.meaning expand v)

end DocumentedSetting

inductive DocumentedModuleSetting where
  | path
  | comment
  | readOnly
  | list
  | allowDelete
  | overwrite
  | preTransferScript
  | postTransferScript
  | preDeleteScript
  | postDeleteScript
  | preListScript
  | postListScript
  deriving DecidableEq

namespace DocumentedModuleSetting

def kind : DocumentedModuleSetting → ValueKind
  | .readOnly | .list | .allowDelete | .overwrite => .flag
  | .path | .comment | .preTransferScript | .postTransferScript => .text
  | .preDeleteScript | .postDeleteScript | .preListScript | .postListScript => .text

def iniKey : DocumentedModuleSetting → String
  | .path => "path"
  | .comment => "comment"
  | .readOnly => "read_only"
  | .list => "list"
  | .allowDelete => "delete"
  | .overwrite => "overwrite"
  | .preTransferScript => "pre_transfer_script"
  | .postTransferScript => "post_transfer_script"
  | .preDeleteScript => "pre_delete_script"
  | .postDeleteScript => "post_delete_script"
  | .preListScript => "pre_list_script"
  | .postListScript => "post_list_script"

/--
The key in a JSON or a YAML document, which spell one of the settings differently.
-/
def key : DocumentedModuleSetting → String
  | .allowDelete => "allow_delete"
  | s => s.iniKey

def setting : DocumentedModuleSetting → ModuleSetting
  | .path => .path
  | .comment => .comment
  | .readOnly => .readOnly
  | .list => .list
  | .allowDelete => .allowDelete
  | .overwrite => .overwrite
  | .preTransferScript => .preTransferScript
  | .postTransferScript => .postTransferScript
  | .preDeleteScript => .preDeleteScript
  | .postDeleteScript => .postDeleteScript
  | .preListScript => .preListScript
  | .postListScript => .postListScript

def meaning (expand : Bytes → Bytes) : (s : DocumentedModuleSetting) → s.kind.Value → s.setting.Value
  | .path, v => expand (Line.text v)
  | .comment, v => expand (Line.text v)
  | .readOnly, v => (v : Bool)
  | .list, v => (v : Bool)
  | .allowDelete, v => (v : Bool)
  | .overwrite, v => (v : Bool)
  | .preTransferScript, v => expand (Line.text v)
  | .postTransferScript, v => expand (Line.text v)
  | .preDeleteScript, v => expand (Line.text v)
  | .postDeleteScript, v => expand (Line.text v)
  | .preListScript, v => expand (Line.text v)
  | .postListScript, v => expand (Line.text v)

def assignment (expand : Bytes → Bytes) (s : DocumentedModuleSetting) (v : s.kind.Value) : ModuleAssignment :=
  .set s.setting (s.meaning expand v)

/--
The settings of a module without its hooks.
-/
def basic : List DocumentedModuleSetting :=
  [.path, .comment, .readOnly, .list, .allowDelete, .overwrite]

def hooks : List DocumentedModuleSetting :=
  [
    .preTransferScript, .postTransferScript, .preDeleteScript, .postDeleteScript, .preListScript,
    .postListScript
  ]

end DocumentedModuleSetting

/--
Values for the settings of a module, a setting without a value does not occur in the file.
-/
structure ModuleDocument where
  value : (s : DocumentedModuleSetting) → Option s.kind.Value := fun _ => none
  exclude : List Line := []
  includes : List Line := []

namespace ModuleDocument

open DocumentedModuleSetting (basic hooks)

variable (m : ModuleDocument)

def pairs (settings : List DocumentedModuleSetting) : List (String × Bytes) :=
  settings.flatMap fun s => (m.value s).toList.map fun v => (s.iniKey, s.kind.iniText v)

def iniPairs : List (String × Bytes) :=
  m.pairs basic ++ m.exclude.map (fun v => ("exclude", v.text)) ++ m.includes.map (fun v => ("include", v.text))
    ++ m.pairs hooks

def fields (settings : List DocumentedModuleSetting) : List (String × Option Tree) :=
  settings.map fun s => (s.key, (m.value s).map s.kind.tree)

/--
The members of the module in a document. The names of the arrays of patterns depend on the format.
-/
def members (exclude includes : String) : List (String × Option Tree) :=
  m.fields basic
    ++ [(exclude, some (.texts (m.exclude.map Line.text))), (includes, some (.texts (m.includes.map Line.text)))]
    ++ m.fields hooks

def assignments (expand : Bytes → Bytes) (settings : List DocumentedModuleSetting) : List ModuleAssignment :=
  settings.flatMap fun s => (m.value s).toList.map (s.assignment expand)

/--
The assignments for all but the hooks.
-/
def basicAssignments (expand : Bytes → Bytes) : List ModuleAssignment :=
  m.assignments expand basic ++ m.exclude.map (fun v => .exclude (expand v.text))
    ++ m.includes.map fun v => .includes (expand v.text)

def allAssignments (expand : Bytes → Bytes) : List ModuleAssignment :=
  m.basicAssignments expand ++ m.assignments expand hooks

/--
What the three loaders do with a module once it is declared. The INI loader declares it again and again,
and never sets its name.
-/
def iniAssignments (expand : Bytes → Bytes) : List ModuleAssignment :=
  (m.allAssignments expand).flatMap fun a => [.declare, a]

def jsonAssignments (name : Bytes) : List ModuleAssignment :=
  .set .name name :: m.basicAssignments id

def yamlAssignments (name : Bytes) : List ModuleAssignment :=
  .set .name name :: m.allAssignments id

end ModuleDocument

/--
Values for the documented settings, and any number of modules. The name of a module can be written in
a section header.
-/
structure Document where
  value : (s : DocumentedSetting) → Option s.kind.Value := fun _ => none
  modules : OrderedMap Bytes ModuleDocument := .empty
  names : ∀ e ∈ modules.entries, (∀ c ∈ e.1.getLast?, Bytes.isblank c = false) ∧ newline ∉ e.1

namespace Document

variable (d : Document)

def networkSettings : List DocumentedSetting :=
  [.bindAddress, .bindPort, .maxConnections]

def sslSettings : List DocumentedSetting :=
  [.sslEnabled, .certificateFile, .privateKeyFile, .caFile]

def authSettings : List DocumentedSetting :=
  [.authEnabled, .method, .passwordFile, .publicKeyFile, .realm, .anonymousAccess]

def settings : List DocumentedSetting :=
  networkSettings ++ sslSettings ++ authSettings

def iniPairs : List (String × Bytes) :=
  settings.flatMap fun s => (d.value s).toList.map fun v => (s.iniKey, s.kind.iniText v)

def ini : Bytes :=
  Configuration.iniText d.iniPairs (d.modules.entries.map fun e => (e.1, e.2.iniPairs))

def fields (settings : List DocumentedSetting) : List (String × Option Tree) :=
  settings.map fun s => (s.key, (d.value s).map s.kind.tree)

def members (exclude includes : String) : List (String × Option Tree) :=
  [
    ("network", some (.record (d.fields networkSettings))),
    ("ssl", some (.record (d.fields sslSettings))),
    ("auth", some (.record (d.fields authSettings))),
    ("modules", some (.object (d.modules.entries.map fun e => (e.1, .record (e.2.members exclude includes)))))
  ]

def json : Tree := .record (d.members "exclude" "include")

def yaml : Tree := .record (d.members "exclude_patterns" "include_patterns")

def assignments (expand : Bytes → Bytes) (settings : List DocumentedSetting) : List Assignment :=
  settings.flatMap fun s => (d.value s).toList.map (s.assignment expand)

def inModules (f : Bytes → ModuleDocument → List ModuleAssignment) (names : List Bytes) : List Assignment :=
  names.flatMap fun name =>
    .inModule name .declare :: (f name ((d.modules.lookup name).getD {})).map (.inModule name)

end Document
open Configuration
open DocumentedModuleSetting (basic hooks)

variable {getenv : Bytes → Option Bytes}

theorem flagValue_flagText (b : Bool)
    : flagValue (substituteEnvironmentVariables getenv (ValueKind.flagText b)) = b := by
  rw [substituteEnvironmentVariables_of_notMem (by cases b <;> decide)]
  cases b <;> decide

theorem substitute_ofNat (n : Nat) : substituteEnvironmentVariables getenv (Bytes.ofNat n) = Bytes.ofNat n :=
  substituteEnvironmentVariables_of_notMem fun hmem => absurd (Bytes.isDigit_of_mem_ofNat hmem) (by decide)

theorem stoul_substitute_ofNat {n : Nat} (h : n < 2 ^ 64)
    : stoul (substituteEnvironmentVariables getenv (Bytes.ofNat n)) = some n := by
  rw [substitute_ofNat, stoul_ofNat h]

theorem parseGlobalConfig_bindPort {text : Bytes} {n : Nat} (h : stoul text = some n)
    : parseGlobalConfig (bytes "bind_port") text = [.set .bindPort (UInt16.ofNat n)] := by
  have hother : isKey (bytes "bind_port") ["bind_address", "address"] = false := by decide +kernel
  have hkey : isKey (bytes "bind_port") ["bind_port", "port"] = true := by decide +kernel
  simp [parseGlobalConfig, hother, hkey, h]

theorem parseGlobalConfig_maxConnections {text : Bytes} {n : Nat} (h : stoul text = some n)
    : parseGlobalConfig (bytes "max_connections") text = [.set .maxConnections n] := by
  have hother : isKey (bytes "max_connections") ["bind_address", "address"] = false := by decide +kernel
  have hport : isKey (bytes "max_connections") ["bind_port", "port"] = false := by decide +kernel
  have hkey : isKey (bytes "max_connections") ["max_connections"] = true := by decide +kernel
  simp [parseGlobalConfig, hother, hport, hkey, h]

/--
The INI loader reads the value of a setting.
-/
theorem parseGlobalConfig_iniKey (s : DocumentedSetting) (v : s.kind.Value)
    : parseGlobalConfig (bytes s.iniKey) (substituteEnvironmentVariables getenv (s.kind.iniText v))
      = [s.assignment (substituteEnvironmentVariables getenv) v] := by
  cases s with
  | bindAddress | certificateFile | privateKeyFile | caFile | method | passwordFile | publicKeyFile | realm =>
    rfl
  | sslEnabled => exact congrArg (fun b : Bool => [Assignment.set .sslEnabled b]) (flagValue_flagText v)
  | authEnabled => exact congrArg (fun b : Bool => [Assignment.set .authEnabled b]) (flagValue_flagText v)
  | anonymousAccess => exact congrArg (fun b : Bool => [Assignment.set .anonymousAccess b]) (flagValue_flagText v)
  | bindPort =>
    have hlt : UInt16.toNat v < 2 ^ 64 := Nat.lt_trans (UInt16.toNat_lt v) (by decide)
    have hv : UInt16.ofNat (UInt16.toNat v) = v := UInt16.ofNat_toNat
    exact (parseGlobalConfig_bindPort (stoul_substitute_ofNat hlt)).trans
      (congrArg (fun n : UInt16 => [Assignment.set .bindPort n]) hv)
  | maxConnections =>
    exact parseGlobalConfig_maxConnections (stoul_substitute_ofNat (UInt64.toNat_lt v))

theorem moduleAssignment_iniKey (s : DocumentedModuleSetting) (v : s.kind.Value)
    : moduleAssignment (bytes s.iniKey) (substituteEnvironmentVariables getenv (s.kind.iniText v))
      = s.assignment (substituteEnvironmentVariables getenv) v := by
  cases s with
  | path | comment | preTransferScript | postTransferScript | preDeleteScript | postDeleteScript | preListScript
    | postListScript =>
    rfl
  | readOnly => exact congrArg (fun b : Bool => ModuleAssignment.set .readOnly b) (flagValue_flagText v)
  | list => exact congrArg (fun b : Bool => ModuleAssignment.set .list b) (flagValue_flagText v)
  | allowDelete => exact congrArg (fun b : Bool => ModuleAssignment.set .allowDelete b) (flagValue_flagText v)
  | overwrite => exact congrArg (fun b : Bool => ModuleAssignment.set .overwrite b) (flagValue_flagText v)

theorem newline_notMem_iniText (k : ValueKind) (v : k.Value) : newline ∉ k.iniText v := by
  cases k with
  | text => exact Line.single v
  | flag => cases (v : Bool) <;> decide
  | port | count => exact fun hmem => absurd (Bytes.isDigit_of_mem_ofNat hmem) (by decide)

theorem isPlain_iniKey (s : DocumentedSetting) : IsPlain s.iniKey := by
  cases s <;> decide +kernel

theorem isPlain_moduleKey (s : DocumentedModuleSetting) : IsPlain s.iniKey := by
  cases s <;> decide +kernel

namespace ModuleDocument

variable (m : ModuleDocument)

theorem isPlain_of_mem_iniPairs {pair : String × Bytes} (h : pair ∈ m.iniPairs)
    : IsPlain pair.1 ∧ newline ∉ pair.2 := by
  have hpairs : ∀ settings, pair ∈ m.pairs settings → IsPlain pair.1 ∧ newline ∉ pair.2 := by
    intro settings hmem
    simp only [pairs, List.mem_flatMap, List.mem_map] at hmem
    obtain ⟨s, -, v, -, rfl⟩ := hmem
    exact ⟨isPlain_moduleKey s, newline_notMem_iniText s.kind v⟩
  simp only [iniPairs, List.mem_append, List.mem_map] at h
  rcases h with ((h | ⟨v, -, rfl⟩) | ⟨v, -, rfl⟩) | h
  . exact hpairs _ h
  . exact ⟨show IsPlain "exclude" by decide +kernel, v.single⟩
  . exact ⟨show IsPlain "include" by decide +kernel, v.single⟩
  . exact hpairs _ h

/--
What the INI loader makes of the pairs of a module.
-/
theorem map_moduleAssignment_iniPairs
    : m.iniPairs.map (fun pair => moduleAssignment (bytes pair.1) (substituteEnvironmentVariables getenv pair.2))
      = m.allAssignments (substituteEnvironmentVariables getenv) := by
  have hpairs : ∀ settings, (m.pairs settings).map
      (fun pair => moduleAssignment (bytes pair.1) (substituteEnvironmentVariables getenv pair.2))
      = m.assignments (substituteEnvironmentVariables getenv) settings := by
    intro settings
    simp only [pairs, assignments, List.map_flatMap, List.map_map, Function.comp_def, moduleAssignment_iniKey]
  simp only [iniPairs, allAssignments, basicAssignments, List.map_append, hpairs, List.map_map, Function.comp_def]
  rfl

end ModuleDocument

namespace Document

variable (d : Document)

theorem inModules_keys (f : Bytes → ModuleDocument → List ModuleAssignment)
    : d.inModules f (d.modules.entries.map Prod.fst)
      = d.modules.entries.flatMap fun e => .inModule e.1 .declare :: (f e.1 e.2).map (.inModule e.1) := by
  rw [inModules, List.flatMap_map]
  apply List.flatMap_congr
  intro e he
  rw [d.modules.mem_entries_iff.mp he]
  rfl

/--
The assignments the INI text amounts to.
-/
theorem parseIni_ini
    : parseIni getenv d.ini
      = d.assignments (substituteEnvironmentVariables getenv) settings
        ++ d.inModules (fun _ m => m.iniAssignments (substituteEnvironmentVariables getenv))
          (d.modules.entries.map Prod.fst) := by
  rw [ini, parseIni_iniText, inModules_keys]
  . simp only [iniPairs, assignments, ModuleDocument.iniAssignments, List.map_eq_flatMap, List.flatMap_assoc,
      parseGlobalConfig_iniKey, parseModuleConfig, ← ModuleDocument.map_moduleAssignment_iniPairs,
      List.flatMap_cons, List.flatMap_nil, List.append_nil, List.singleton_append]
  . intro pair hpair
    simp only [iniPairs, List.mem_flatMap, List.mem_map] at hpair
    obtain ⟨s, -, v, -, rfl⟩ := hpair
    exact ⟨isPlain_iniKey s, newline_notMem_iniText s.kind v⟩
  . intro e he
    obtain ⟨e', he', rfl⟩ := List.mem_map.mp he
    exact d.names e' he'
  . intro e he pair hpair
    obtain ⟨e', -, rfl⟩ := List.mem_map.mp he
    exact e'.2.isPlain_of_mem_iniPairs hpair

end Document
end SimpleRsyncd
