import SimpleRsyncd.Config.Port

/-!
This module determines which port the loaders for JSON and YAML documents set.
-/

namespace SimpleRsyncd

open Collector

namespace DocumentLibrary

variable (lib : DocumentLibrary) (node : lib.Node)

/--
The number that the member of that name is, if there is one.
-/
def number (key : String) : Except Bytes (Option UInt32) := do
  match ← lib.find node (bytes key) with
  | some member => return some (← lib.asUInt member)
  | none => return none

def globalPort (global : lib.Node) : Except Bytes (Option UInt32) := do
  match ← lib.number global "bind_port" with
  | some n => return some n
  | none => lib.number global "port"

/--
The number that a document gives for the port, the one in the section `network` is read last.
-/
def port (root : lib.Node) : Except Bytes (Option UInt32) := do
  let global ← lib.globalPort ((← lib.find root (bytes "global")).getD root)
  match ← lib.find root (bytes "network") with
  | some net => return (← lib.number net "bind_port").or global
  | none => return global

/--
Only assignments to other settings.
-/
abbrev NoPort (loader : Loader Unit) : Prop :=
  Only (·.port? = none) loader

abbrev LeavesPort (n : Option UInt32) (loader : Loader Unit) : Prop :=
  Leaves Assignment.port? (n.map UInt32.toUInt16) loader

section noPort

variable {lib} {node} {key key' : String} {f : lib.Node → Loader Unit}

theorem noPort_onMember (hf : ∀ member, NoPort (f member)) : NoPort (lib.onMember node key f) := by
  refine (only_lift _).bind fun member => ?_
  cases member with
  | none => exact only_pure ()
  | some member => exact hf member

theorem noPort_onEither (hf : ∀ member, NoPort (f member)) : NoPort (lib.onEither node key key' f) := by
  refine (only_lift _).bind fun member => ?_
  cases member with
  | none => exact noPort_onMember hf
  | some member => exact hf member

theorem noPort_assign {assignments : List Assignment} (h : assignments.filterMap Assignment.port? = [])
    : NoPort (Loader.assign assignments) :=
  only_modify (List.filterMap_eq_nil_iff.mp h)

/--
A member that is read in some way and then assigned to other settings.
-/
theorem noPort_read {α : Type} {read : lib.Node → Except Bytes α} {set : α → List Assignment}
    (h : ∀ v, (set v).filterMap Assignment.port? = [])
    : NoPort (lib.onMember node key fun member => do Loader.assign (set (← read member))) :=
  noPort_onMember fun _ => (only_lift _).bind fun v => noPort_assign (h v)

theorem noPort_pushStrings {push : Bytes → Assignment} (h : ∀ v, (push v).port? = none) (node : lib.Node)
    : NoPort (lib.pushStrings push node) := by
  unfold pushStrings
  cases lib.elements node with
  | none => exact only_pure ()
  | some elements =>
    refine only_forM (fun element => ?_) elements
    exact (only_lift _).bind fun v => noPort_assign (by simp [h v])

theorem noPort_parseSSL (ssl : lib.Node) : NoPort (lib.parseSSL ssl) := by
  unfold parseSSL
  repeat refine (noPort_read fun _ => rfl).bind fun _ => ?_
  exact noPort_read fun _ => rfl

theorem noPort_parseAuth (auth : lib.Node) : NoPort (lib.parseAuth auth) := by
  unfold parseAuth
  iterate 6 refine (noPort_read fun _ => rfl).bind fun _ => ?_
  refine (noPort_onMember (noPort_pushStrings fun _ => rfl)).bind fun _ => ?_
  exact noPort_onMember (noPort_pushStrings fun _ => rfl)

theorem noPort_parsePolicy (policy : lib.Node) : NoPort (lib.parsePolicy policy) := by
  unfold parsePolicy
  repeat refine (noPort_read fun _ => rfl).bind fun _ => ?_
  exact noPort_read fun _ => rfl

theorem noPort_parseLog (log : lib.Node) : NoPort (lib.parseLog log) := by
  unfold parseLog
  repeat refine (noPort_read fun _ => rfl).bind fun _ => ?_
  exact noPort_read fun _ => rfl

theorem noPort_parseReload (config : lib.Node) : NoPort (lib.parseReload config) := by
  unfold parseReload
  exact (noPort_read fun _ => rfl).bind fun _ => noPort_read fun _ => rfl

theorem noPort_parseModuleBasics (name : Bytes) (module' : lib.Node) : NoPort (lib.parseModuleBasics name module') := by
  unfold parseModuleBasics
  refine (noPort_assign rfl).bind fun _ => ?_
  repeat refine (noPort_read fun _ => rfl).bind fun _ => ?_
  exact noPort_read fun _ => rfl

theorem noPort_parseJSONModule (name : Bytes) (module' : lib.Node) : NoPort (lib.parseJSONModule name module') := by
  unfold parseJSONModule
  refine (noPort_parseModuleBasics name module').bind fun _ => ?_
  iterate 2 refine (noPort_read fun _ => rfl).bind fun _ => ?_
  refine (noPort_onMember (noPort_pushStrings fun _ => rfl)).bind fun _ => ?_
  exact noPort_onMember (noPort_pushStrings fun _ => rfl)

theorem noPort_parseYAMLModule (name : Bytes) (module' : lib.Node) : NoPort (lib.parseYAMLModule name module') := by
  unfold parseYAMLModule
  refine (noPort_parseModuleBasics name module').bind fun _ => ?_
  refine (noPort_onEither fun _ => (only_lift _).bind fun _ => noPort_assign rfl).bind fun _ => ?_
  refine (noPort_read fun _ => rfl).bind fun _ => ?_
  refine (noPort_onEither (noPort_pushStrings fun _ => rfl)).bind fun _ => ?_
  refine (noPort_onEither (noPort_pushStrings fun _ => rfl)).bind fun _ => ?_
  repeat refine (noPort_read fun _ => rfl).bind fun _ => ?_
  exact noPort_read fun _ => rfl

theorem noPort_parseModules {parseModule : Bytes → lib.Node → Loader Unit}
    (h : ∀ name module', NoPort (parseModule name module')) (modules : lib.Node)
    : NoPort (lib.parseModules parseModule modules) := by
  unfold parseModules
  cases lib.members modules with
  | none => exact only_pure ()
  | some members => exact only_forM (fun e => (only_lift _).bind fun name => h name e.2) members

end noPort

section leavesPort

variable {lib} {node} {n : Option UInt32}

theorem exists_of_bind_eq_ok {ε α β : Type} {x : Except ε α} {f : α → Except ε β} {r : β} (h : x >>= f = .ok r)
    : ∃ v, x = .ok v ∧ f v = .ok r := by
  cases x with
  | error e => contradiction
  | ok v => exact ⟨v, rfl, h⟩

theorem leavesPort_setUInt {member : lib.Node} {v : UInt32} (h : lib.asUInt member = .ok v)
    : LeavesPort (some v) (lib.setUInt (fun v => [.set .bindPort v.toUInt16]) member) :=
  leaves_lift h (leaves_modify _)

theorem leavesPort_number {key : String} (h : lib.number node key = .ok n)
    : LeavesPort n (lib.onMember node key (lib.setUInt fun v => [.set .bindPort v.toUInt16])) := by
  obtain ⟨member, hfind, h⟩ := exists_of_bind_eq_ok h
  refine leaves_lift hfind ?_
  cases member with
  | none =>
    obtain rfl : none = n := Except.ok.inj h
    exact (only_pure ()).leaves
  | some member =>
    obtain ⟨v, hread, h⟩ := exists_of_bind_eq_ok h
    obtain rfl : some v = n := Except.ok.inj h
    exact leavesPort_setUInt hread

theorem leavesPort_either (h : lib.globalPort node = .ok n)
    : LeavesPort n (lib.onEither node "bind_port" "port" (lib.setUInt fun v => [.set .bindPort v.toUInt16])) := by
  obtain ⟨first, hfirst, h⟩ := exists_of_bind_eq_ok h
  obtain ⟨member, hfind, hfirst⟩ := exists_of_bind_eq_ok hfirst
  refine leaves_lift hfind ?_
  cases member with
  | none =>
    obtain rfl : none = first := Except.ok.inj hfirst
    exact leavesPort_number h
  | some member =>
    obtain ⟨v, hread, hfirst⟩ := exists_of_bind_eq_ok hfirst
    obtain rfl : some v = first := Except.ok.inj hfirst
    obtain rfl : some v = n := Except.ok.inj h
    exact leavesPort_setUInt hread

/--
Other settings before and after do not matter.
-/
theorem LeavesPort.after {loader loader' : Loader Unit} (h : NoPort loader) (h' : LeavesPort n loader')
    : LeavesPort n (do loader; loader') := by
  have hboth := h.leaves.bind fun _ => h'
  rwa [Option.or_none] at hboth

theorem LeavesPort.before {loader loader' : Loader Unit} (h : LeavesPort n loader) (h' : NoPort loader')
    : LeavesPort n (do loader; loader') :=
  Leaves.bind h fun _ => h'.leaves

theorem leavesPort_parseGlobal (h : lib.globalPort node = .ok n) : LeavesPort n (lib.parseGlobal node) := by
  unfold parseGlobal
  refine .after (noPort_onEither fun _ => (only_lift _).bind fun _ => noPort_assign rfl) ?_
  refine .before (leavesPort_either h) ?_
  repeat refine (noPort_read fun _ => rfl).bind fun _ => ?_
  exact noPort_read fun _ => rfl

theorem leavesPort_parseNetwork (h : lib.number node "bind_port" = .ok n) : LeavesPort n (lib.parseNetwork node) := by
  unfold parseNetwork
  refine .after (noPort_read fun _ => rfl) ?_
  refine .before (leavesPort_number h) ?_
  repeat refine (noPort_read fun _ => rfl).bind fun _ => ?_
  exact noPort_read fun _ => rfl

/--
What both loaders start with.
-/
theorem leavesPort_sections {root : lib.Node} {loader : Loader Unit} (h : lib.port root = .ok n)
    (hloader : NoPort loader)
    : LeavesPort n (do
        lib.parseGlobalSection root
        lib.onMember root "network" lib.parseNetwork
        loader) := by
  obtain ⟨section', hsection, h⟩ := exists_of_bind_eq_ok h
  obtain ⟨global, hglobal, h⟩ := exists_of_bind_eq_ok h
  obtain ⟨net, hnet, h⟩ := exists_of_bind_eq_ok h
  have hglobalSection : LeavesPort global (lib.parseGlobalSection root) := by
    refine leaves_lift hsection ?_
    cases section' <;> exact leavesPort_parseGlobal hglobal
  have hboth : ∀ {m}, LeavesPort m (lib.onMember root "network" lib.parseNetwork) → LeavesPort (m.or global) (do
      lib.parseGlobalSection root
      lib.onMember root "network" lib.parseNetwork
      loader) := by
    intro m hnetwork
    have hall := Leaves.bind hglobalSection fun _ => hnetwork.before hloader
    rwa [← Option.map_or] at hall
  cases net with
  | none =>
    obtain rfl : global = n := Except.ok.inj h
    rw [← Option.none_or (o := global)]
    exact hboth (leaves_lift hnet (only_pure ()).leaves)
  | some net =>
    obtain ⟨m, hnumber, h⟩ := exists_of_bind_eq_ok h
    obtain rfl : m.or global = n := Except.ok.inj h
    exact hboth (leaves_lift hnet (leavesPort_parseNetwork hnumber))

theorem leavesPort_parseJSON {root : lib.Node} (h : lib.port root = .ok n) : LeavesPort n (lib.parseJSON root) := by
  refine leavesPort_sections h ?_
  refine (noPort_onMember noPort_parseSSL).bind fun _ => ?_
  refine (noPort_onMember noPort_parseAuth).bind fun _ => ?_
  exact noPort_onMember (noPort_parseModules noPort_parseJSONModule)

theorem leavesPort_parseYAML {root : lib.Node} (h : lib.port root = .ok n) : LeavesPort n (lib.parseYAML root) := by
  refine leavesPort_sections h ?_
  refine (noPort_onMember noPort_parseSSL).bind fun _ => ?_
  refine (noPort_onMember fun auth => ?_).bind fun _ => ?_
  . refine (noPort_parseAuth auth).bind fun _ => ?_
    refine (noPort_onMember noPort_parsePolicy).bind fun _ => ?_
    exact noPort_onMember fun _ => noPort_read fun _ => rfl
  . refine (noPort_onMember noPort_parseLog).bind fun _ => ?_
    refine (noPort_onMember noPort_parseReload).bind fun _ => ?_
    exact noPort_onMember (noPort_parseModules noPort_parseYAMLModule)

end leavesPort

end DocumentLibrary

namespace Configuration

/--
Whatever else there is in a JSON document, the last number for the port does not make a load a success with another
port.
-/
def KeepsJSONPort (value : UInt32) : Prop :=
  ∀ (machine : Machine) (json : Bytes) (root : machine.json.Node) (c : Configuration),
    machine.json.parse json = .ok root →
    machine.json.port root = .ok (some value) →
    KeepsPort (portNumber value.toNat) c.network.bindPort (c.loadFromJSON machine json)

def KeepsYAMLPort (value : UInt32) : Prop :=
  ∀ (machine : Machine) (yaml : Bytes) (root : machine.yaml.Node) (c : Configuration),
    machine.yaml.parse yaml = .ok root →
    machine.yaml.port root = .ok (some value) →
    KeepsPort (portNumber value.toNat) c.network.bindPort (c.loadFromYAML machine yaml)

section keepsPort

variable {machine : Machine} {c : Configuration} {value : UInt32}

/--
The numbers for which all goes well: the port is the given one, or it becomes zero and the load fails.
-/
def IsSafeNumber (value : UInt32) : Prop :=
  portNumber value.toNat ≠ none ∨ value.toNat % 65536 = 0

theorem IsSafeNumber.keepsPort (hvalue : IsSafeNumber value) {outcome : Bool × List Assignment}
    {result : Except LoadError Bool × Configuration} (h : Loads machine c outcome result)
    (hlast : outcome.1 = true → Cell.last Assignment.port? outcome.2 = some value.toUInt16)
    : KeepsPort (portNumber value.toNat) c.network.bindPort result := by
  intro hsuccess
  have hne := bindPort_ne_zero_of_loads h hsuccess
  have hport : result.2.network.bindPort.toNat = value.toNat % 65536 := by
    rw [bindPort_of_loads h, hlast (h.returns.mp hsuccess).1]
    rfl
  cases hnumber : portNumber value.toNat with
  | some n =>
    obtain ⟨rfl, -, hle⟩ := portNumber_eq_some_iff.mp hnumber
    show UInt16.toNat _ = _
    omega
  | none =>
    refine absurd ?_ hne
    rw [← UInt16.toNat_inj, hport]
    exact hvalue.resolve_left (not_not_intro hnumber)

theorem last_jsonOutcome {json : Bytes} {root : machine.json.Node} (hparse : machine.json.parse json = .ok root)
    {n : Option UInt32} (hport : machine.json.port root = .ok n) (h : (jsonOutcome machine json).1 = true)
    : Cell.last Assignment.port? (jsonOutcome machine json).2 = n.map UInt32.toUInt16 := by
  unfold jsonOutcome at h ⊢
  rw [hparse] at h ⊢
  split
  . next hempty => simp [hempty] at h
  . next hnonempty =>
    have hlast := DocumentLibrary.leavesPort_parseJSON hport
    simp only [hnonempty] at h ⊢
    cases hrun : (machine.json.parseJSON root).run with
    | mk outcome assignments =>
      cases outcome with
      | error what => simp [hrun] at h
      | ok => exact hlast.last_eq hrun

theorem last_yamlOutcome {yaml : Bytes} {root : machine.yaml.Node} (hparse : machine.yaml.parse yaml = .ok root)
    {n : Option UInt32} (hport : machine.yaml.port root = .ok n) (h : (yamlOutcome machine yaml).1 = true)
    : Cell.last Assignment.port? (yamlOutcome machine yaml).2 = n.map UInt32.toUInt16 := by
  unfold yamlOutcome at h ⊢
  rw [hparse] at h ⊢
  split
  . next hempty => simp [hempty] at h
  . next hnonempty =>
    have hlast := DocumentLibrary.leavesPort_parseYAML hport
    simp only [hnonempty] at h ⊢
    split
    . next hnull => simp [hnull] at h
    . next hdefined =>
      simp only [hdefined] at h
      cases hrun : (machine.yaml.parseYAML root).run with
      | mk outcome assignments =>
        cases outcome with
        | error what => simp [hrun] at h
        | ok => exact hlast.last_eq hrun

end keepsPort

/--
A library for which every text is a document with a port and nothing else.
-/
def portLibrary (value : UInt32) : DocumentLibrary where
  Node := Bool
  parse := fun _ => .ok true
  find := fun node key => .ok (if node && key = bytes "port" then some false else none)
  isNull := fun _ => false
  asString := fun _ => .ok []
  asBool := fun _ => .ok false
  asUInt := fun _ => .ok value
  asSize := fun _ => .ok 0
  elements := fun _ => none
  members := fun _ => none

section portLibrary

variable (value : UInt32)

/--
A machine with this library for both formats.
-/
def documentMachine : Machine :=
  { fileMachine [] with json := portLibrary value, yaml := portLibrary value }

theorem port_portLibrary : (portLibrary value).port true = .ok (some value) := rfl

/--
The load is a success without a report unless the port becomes zero.
-/
theorem finishLoad_documentMachine (h : value.toNat % 65536 ≠ 0)
    : ((({} : Configuration).assign [.set .bindPort value.toUInt16]).finishLoad (documentMachine value)).1 = .ok true
        ∧ ((({} : Configuration).assign [.set .bindPort value.toUInt16]).finishLoad
          (documentMachine value)).2.errors = [] := by
  refine finishLoad_eq _ ?_ (show 100 ≠ 0 by decide) rfl rfl rfl
  exact fun hzero => h (congrArg UInt16.toNat hzero)

theorem loadFromJSON_portLibrary (h : value.toNat % 65536 ≠ 0)
    : (({} : Configuration).loadFromJSON (documentMachine value) (bytes "m")).1 = .ok true
        ∧ (({} : Configuration).loadFromJSON (documentMachine value) (bytes "m")).2.errors = [] :=
  finishLoad_documentMachine value h

theorem loadFromYAML_portLibrary (h : value.toNat % 65536 ≠ 0)
    : (({} : Configuration).loadFromYAML (documentMachine value) (bytes "m")).1 = .ok true
        ∧ (({} : Configuration).loadFromYAML (documentMachine value) (bytes "m")).2.errors = [] :=
  finishLoad_documentMachine value h

/--
A success without a report is not what is wanted for a number that is no port.
-/
theorem isSafeNumber_of_keepsPort {result : Except LoadError Bool × Configuration} {before : UInt16}
    (hresult : value.toNat % 65536 ≠ 0 → result.1 = .ok true ∧ result.2.errors = [])
    (hkeeps : KeepsPort (portNumber value.toNat) before result)
    : IsSafeNumber value := by
  by_contra hnot
  simp only [IsSafeNumber, ne_eq, not_or, not_not] at hnot
  obtain ⟨hsuccess, herrors⟩ := hresult hnot.2
  have hport := hkeeps hsuccess
  rw [hnot.1] at hport
  exact hport.2 herrors

theorem keepsJSONPort_iff : KeepsJSONPort value ↔ IsSafeNumber value := by
  constructor
  . intro hkeeps
    exact isSafeNumber_of_keepsPort value (loadFromJSON_portLibrary value)
      (hkeeps (documentMachine value) (bytes "m") true {} rfl (port_portLibrary value))
  . intro hsafe machine json root c hparse hport
    exact hsafe.keepsPort (loads_loadFromJSON machine c json) (last_jsonOutcome hparse hport)

theorem keepsYAMLPort_iff : KeepsYAMLPort value ↔ IsSafeNumber value := by
  constructor
  . intro hkeeps
    exact isSafeNumber_of_keepsPort value (loadFromYAML_portLibrary value)
      (hkeeps (documentMachine value) (bytes "m") true {} rfl (port_portLibrary value))
  . intro hsafe machine yaml root c hparse hport
    exact hsafe.keepsPort (loads_loadFromYAML machine c yaml) (last_yamlOutcome hparse hport)

end portLibrary

/--
A value is never changed without a report if and only if it is a port, or if it becomes zero.
-/
theorem keepsPort_iff (value : Bytes) (number : UInt32)
    : (KeepsIniPort value ↔ IsSafe value)
        ∧ (KeepsJSONPort number ↔ IsSafeNumber number)
        ∧ (KeepsYAMLPort number ↔ IsSafeNumber number) :=
  ⟨keepsIniPort_iff value, keepsJSONPort_iff number, keepsYAMLPort_iff number⟩

/--
The port 70000 becomes 4464.
-/
theorem not_keepsPort_single
    : ¬KeepsIniPort (bytes "70000") ∧ ¬KeepsJSONPort 70000 ∧ ¬KeepsYAMLPort 70000
        ∧ (({} : Configuration).loadFromFile (fileMachine (bytes "port=70000")) (bytes "/m")).1 = .ok true
        ∧ (({} : Configuration).loadFromFile (fileMachine (bytes "port=70000")) (bytes "/m")).2.network.bindPort = 4464
        ∧ (({} : Configuration).loadFromFile (fileMachine (bytes "port=70000")) (bytes "/m")).2.errors = [] := by
  have hini : ¬IsSafe (bytes "70000") := by
    have hnone : portNumeral (bytes "70000") = none := by decide
    have hstoul : stoul (bytes "70000") = some 70000 := by decide
    simp [IsSafe, hnone, hstoul]
  have hnumber : ¬IsSafeNumber 70000 := by
    have hnone : portNumber 70000 = none := by decide
    simp [IsSafeNumber, hnone]
  refine ⟨?_, ?_, ?_, by decide, by decide, by decide⟩
  . rwa [keepsIniPort_iff]
  . rwa [keepsJSONPort_iff]
  . rwa [keepsYAMLPort_iff]

end Configuration
end SimpleRsyncd
