import SimpleRsyncd.Config.Documented

/-!
This module determines what the loaders for JSON and YAML make of a document with the documented
settings.
-/

namespace SimpleRsyncd

open Configuration
open DocumentedModuleSetting (basic hooks)
open Loader

variable {lib : DocumentLibrary} {node : lib.Node} {d : Document} {m : ModuleDocument}

section distinct

theorem ValueKind.distinct_tree (k : ValueKind) (v : k.Value) : (k.tree v).Distinct := by
  cases k <;> constructor

theorem Document.distinct_section (settings : List DocumentedSetting)
    (hnodup : ((settings.map DocumentedSetting.key).map bytes).Nodup)
    : (Tree.record (d.fields settings)).Distinct := by
  apply Tree.distinct_record
  . simpa [Document.fields, Function.comp_def] using hnodup
  . intro e he t ht
    obtain ⟨s, -, rfl⟩ := List.mem_map.mp he
    obtain ⟨v, -, rfl⟩ := Option.map_eq_some_iff.mp ht
    exact s.kind.distinct_tree v

variable {exclude includes : String}
  (hnodup : ((basic.map DocumentedModuleSetting.key ++ [exclude, includes]
    ++ hooks.map DocumentedModuleSetting.key).map bytes).Nodup)

include hnodup

theorem ModuleDocument.distinct_members : (Tree.record (m.members exclude includes)).Distinct := by
  apply Tree.distinct_record
  . exact hnodup
  . intro e he t ht
    have hsettings : ∀ settings, e ∈ m.fields settings → t.Distinct := by
      intro settings hmem
      obtain ⟨s, -, rfl⟩ := List.mem_map.mp hmem
      obtain ⟨v, -, rfl⟩ := Option.map_eq_some_iff.mp ht
      exact s.kind.distinct_tree v
    rcases List.mem_append.mp he with he | he
    . rcases List.mem_append.mp he with he | he
      . exact hsettings _ he
      . simp only [List.mem_cons, List.not_mem_nil, or_false] at he
        rcases he with rfl | rfl
        all_goals
          obtain rfl := Option.some.inj ht
          exact .texts _
    . exact hsettings _ he

/--
The names in the tree of a document are different from each other, so that there is a library that shows it.
-/
theorem Document.distinct_members : (Tree.record (d.members exclude includes)).Distinct := by
  apply Tree.distinct_record
  . show ((["network", "ssl", "auth", "modules"] : List String).map bytes).Nodup
    decide
  . intro e he t ht
    simp only [Document.members, List.mem_cons, List.not_mem_nil, or_false] at he
    rcases he with rfl | rfl | rfl | rfl <;> obtain rfl := Option.some.inj ht
    . exact d.distinct_section _ (by decide)
    . exact d.distinct_section _ (by decide)
    . exact d.distinct_section _ (by decide)
    . refine .object ?_ ?_
      . simpa [Function.comp_def] using d.modules.nodup_keys
      . intro e he
        obtain ⟨e', -, rfl⟩ := List.mem_map.mp he
        exact e'.2.distinct_members hnodup

end distinct

theorem Document.distinct_json (d : Document) : d.json.Distinct :=
  d.distinct_members (by decide)

theorem Document.distinct_yaml (d : Document) : d.yaml.Distinct :=
  d.distinct_members (by decide)

namespace DocumentLibrary

theorem makes_bindPort {fields : List (String × Option Tree)} {v : Option UInt16}
    (h : lib.Shows node (.record fields)) (hnodup : (fields.map fun e => bytes e.1).Nodup)
    (hfield : Tree.field fields (bytes "bind_port") = v.map (ValueKind.tree .port))
    : Makes (lib.onMember node "bind_port" (lib.setUInt fun n => [.set .bindPort n.toUInt16]))
        (v.toList.map (DocumentedSetting.assignment id .bindPort)) := by
  refine makes_number h hnodup "bind_port" hfield ?_ ?_
  . intro n _
    exact Nat.lt_trans (UInt16.toNat_lt n) (by decide)
  . intro n _
    have hn : (UInt32.ofNat n.toNat).toUInt16 = n := by
      apply UInt16.toNat_inj.mp
      simpa using UInt16.toNat_lt n
    rw [hn]
    rfl

theorem makes_maxConnections {fields : List (String × Option Tree)} {v : Option UInt64}
    (h : lib.Shows node (.record fields)) (hnodup : (fields.map fun e => bytes e.1).Nodup)
    (hfield : Tree.field fields (bytes "max_connections") = v.map (ValueKind.tree .count))
    (hsmall : ∀ n ∈ v, UInt64.toNat n < 2 ^ 32)
    : Makes (lib.onMember node "max_connections" (lib.setUInt fun n => [.set .maxConnections n.toNat]))
        (v.toList.map (DocumentedSetting.assignment id .maxConnections)) := by
  refine makes_number h hnodup "max_connections" hfield hsmall ?_
  intro n hn
  rw [UInt32.toNat_ofNat_of_lt' (hsmall n hn)]
  rfl

section global

variable (h : lib.Shows node (.record (d.fields Document.networkSettings)))

include h

theorem makes_parseNetwork (hsmall : ∀ n ∈ d.value .maxConnections, UInt64.toNat n < 2 ^ 32)
    : Makes (lib.parseNetwork node) (d.assignments id Document.networkSettings) := by
  have hnodup : ((Document.networkSettings.map DocumentedSetting.key).map bytes).Nodup := by decide
  refine (makes_text h hnodup "bind_address" rfl).seq ?_
  refine (makes_bindPort h hnodup rfl).seq ?_
  refine (makes_maxConnections h hnodup rfl hsmall).seq ?_
  exact (makes_absent h hnodup "backlog" rfl).seq (makes_absent h hnodup "worker_threads" rfl)

/--
The number of connections is an `unsigned int` in JSON and YAML.
-/
theorem throws_parseNetwork {n : UInt64} (hn : d.value .maxConnections = some n) (hlarge : 2 ^ 32 ≤ UInt64.toNat n)
    : Throws (lib.parseNetwork node) (d.assignments id [.bindAddress, .bindPort]) := by
  have hnodup : ((Document.networkSettings.map DocumentedSetting.key).map bytes).Nodup := by decide
  refine (makes_text h hnodup "bind_address" rfl).throws ?_
  refine (makes_bindPort h hnodup rfl).throws ?_
  exact (throws_number h hnodup "max_connections" (congrArg (Option.map (ValueKind.tree .count)) hn) hlarge).seq

end global

theorem makes_parseSSL (h : lib.Shows node (.record (d.fields Document.sslSettings)))
    : Makes (lib.parseSSL node) (d.assignments id Document.sslSettings) := by
  have hnodup : ((Document.sslSettings.map DocumentedSetting.key).map bytes).Nodup := by decide
  refine (makes_flag h hnodup "enabled" rfl).seq ?_
  refine (makes_text h hnodup "certificate_file" rfl).seq ?_
  refine (makes_text h hnodup "private_key_file" rfl).seq ?_
  exact (makes_text h hnodup "ca_file" rfl).of_eq (List.append_nil _).symm

theorem makes_parseAuth (h : lib.Shows node (.record (d.fields Document.authSettings)))
    : Makes (lib.parseAuth node) (d.assignments id Document.authSettings) := by
  have hnodup : ((Document.authSettings.map DocumentedSetting.key).map bytes).Nodup := by decide
  refine (makes_flag h hnodup "enabled" rfl).seq ?_
  refine (makes_text h hnodup "method" rfl).seq ?_
  refine (makes_text h hnodup "password_file" rfl).seq ?_
  refine (makes_text h hnodup "public_key_file" rfl).seq ?_
  refine (makes_text h hnodup "realm" rfl).seq ?_
  refine (makes_flag h hnodup "anonymous_access" rfl).seq ?_
  exact (makes_absent h hnodup "allowed_users" rfl).seq (makes_absent h hnodup "denied_users" rfl)

section module'

variable {exclude includes : String} (name : Bytes) (h : lib.Shows node (.record (m.members exclude includes)))
  (hnodup : ((m.members exclude includes).map fun e => bytes e.1).Nodup)

theorem map_assignments (settings : List DocumentedModuleSetting)
    : (m.assignments id settings).map (.inModule name)
      = settings.flatMap fun s => (m.value s).toList.map fun v => Assignment.inModule name (s.assignment id v) := by
  simp only [ModuleDocument.assignments, List.map_flatMap, List.map_map, Function.comp_def]

include h hnodup

theorem makes_parseModuleBasics
    : Makes (lib.parseModuleBasics name node)
        ([.inModule name .declare, .inModule name (.set .name name)]
          ++ (m.assignments id [.path, .comment, .readOnly, .list]).map (.inModule name)) := by
  rw [map_assignments]
  refine makes_assign.seq ?_
  refine (makes_text h hnodup "path" rfl).seq ?_
  refine (makes_text h hnodup "comment" rfl).seq ?_
  refine (makes_flag h hnodup "read_only" rfl).seq ?_
  exact (makes_flag h hnodup "list" rfl).of_eq (List.append_nil _).symm

end module'

theorem makes_parseJSONModule (name : Bytes) (h : lib.Shows node (.record (m.members "exclude" "include")))
    : Makes (lib.parseJSONModule name node)
        (.inModule name .declare :: (m.jsonAssignments name).map (.inModule name)) := by
  have hnodup : ((m.members "exclude" "include").map fun e => bytes e.1).Nodup := by
    show (((basic.map DocumentedModuleSetting.key ++ ["exclude", "include"]
      ++ hooks.map DocumentedModuleSetting.key)).map bytes).Nodup
    decide
  refine ((makes_parseModuleBasics name h hnodup).seq <|
    (makes_flag h hnodup "allow_delete" rfl).seq <|
    (makes_flag h hnodup "overwrite" rfl).seq <|
    (makes_texts h hnodup "exclude" rfl).seq <|
    makes_texts h hnodup "include" rfl).of_eq ?_
  simp only [ModuleDocument.jsonAssignments, ModuleDocument.basicAssignments, map_assignments, basic, List.map_cons,
    List.map_append, List.map_map,
    List.flatMap_cons, List.flatMap_nil, List.append_nil, List.append_assoc, List.cons_append, List.nil_append]
  rfl

theorem makes_parseYAMLModule (name : Bytes)
    (h : lib.Shows node (.record (m.members "exclude_patterns" "include_patterns")))
    : Makes (lib.parseYAMLModule name node)
        (.inModule name .declare :: (m.yamlAssignments name).map (.inModule name)) := by
  have hnodup : ((m.members "exclude_patterns" "include_patterns").map fun e => bytes e.1).Nodup := by
    show (((basic.map DocumentedModuleSetting.key ++ ["exclude_patterns", "include_patterns"]
      ++ hooks.map DocumentedModuleSetting.key)).map bytes).Nodup
    decide
  have hexclude : lib.find node (bytes "exclude") = .ok none := h.find hnodup (bytes "exclude")
  have hinclude : lib.find node (bytes "include") = .ok none := h.find hnodup (bytes "include")
  rw [parseYAMLModule, onEither_of_absent h hnodup "allow_delete" rfl, onEither_of_none hexclude,
    onEither_of_none hinclude]
  refine ((makes_parseModuleBasics name h hnodup).seq <|
    (makes_flag h hnodup "allow_delete" rfl).seq <|
    (makes_flag h hnodup "overwrite" rfl).seq <|
    (makes_texts h hnodup "exclude_patterns" rfl).seq <|
    (makes_texts h hnodup "include_patterns" rfl).seq <|
    (makes_text h hnodup "pre_transfer_script" rfl).seq <|
    (makes_text h hnodup "post_transfer_script" rfl).seq <|
    (makes_text h hnodup "pre_delete_script" rfl).seq <|
    (makes_text h hnodup "post_delete_script" rfl).seq <|
    (makes_text h hnodup "pre_list_script" rfl).seq <|
    makes_text h hnodup "post_list_script" rfl).of_eq ?_
  simp only [ModuleDocument.yamlAssignments, ModuleDocument.allAssignments, ModuleDocument.basicAssignments,
    map_assignments, basic, hooks, List.map_cons, List.map_append, List.map_map,
    List.flatMap_cons, List.flatMap_nil, List.append_nil, List.append_assoc, List.cons_append, List.nil_append]
  rfl

/--
The modules of a document are read one after the other.
-/
theorem exists_makes_parseModules {exclude includes : String} {parseModule : Bytes → lib.Node → Loader Unit}
    {f : Bytes → ModuleDocument → List ModuleAssignment}
    (h : lib.Shows node (.object (d.modules.entries.map fun e => (e.1, .record (e.2.members exclude includes)))))
    (hf : ∀ (name : Bytes) (m : ModuleDocument) (member : lib.Node),
      lib.Shows member (.record (m.members exclude includes)) →
      Makes (parseModule name member) (.inModule name .declare :: (f name m).map (.inModule name)))
    : ∃ names : List Bytes, names.Perm (d.modules.entries.map Prod.fst)
        ∧ Makes (lib.parseModules parseModule node) (d.inModules f names) := by
  have hread : ∀ name t member,
      (d.modules.entries.map fun e => (e.1, Tree.record (e.2.members exclude includes))).lookup name = some t →
      lib.Shows member t →
      Makes (parseModule name member)
        (.inModule name .declare :: (f name ((d.modules.lookup name).getD {})).map (.inModule name)) := by
    intro name t member ht hshows
    rw [d.modules.lookup_map_entries fun m => Tree.record (m.members exclude includes)] at ht
    obtain ⟨m, hm, rfl⟩ := Option.map_eq_some_iff.mp ht
    rw [hm]
    exact hf name m member hshows
  obtain ⟨names, hnames, hmakes⟩ := makes_parseModules h hread
  refine ⟨names, ?_, hmakes⟩
  simpa [List.map_map, Function.comp_def] using hnames

section root

variable {exclude includes : String} (h : lib.Shows node (.record (d.members exclude includes)))

include h

/--
A document without global settings outside of the sections.
-/
theorem makes_parseGlobalSection : Makes (lib.parseGlobalSection node) [] := by
  have hnodup : ((["network", "ssl", "auth", "modules"] : List String).map bytes).Nodup := by decide
  have hglobal : lib.find node (bytes "global") = .ok none := h.find hnodup (bytes "global")
  have hsection : lib.parseGlobalSection node = lib.parseGlobal node := by
    rw [parseGlobalSection, hglobal]
    rfl
  rw [hsection, parseGlobal, onEither_of_absent h hnodup "bind_address" rfl,
    onEither_of_absent h hnodup "bind_port" rfl]
  refine (makes_absent h hnodup "bind_address" rfl).seq ?_
  refine (makes_absent h hnodup "bind_port" rfl).seq ?_
  refine (makes_absent h hnodup "max_connections" rfl).seq ?_
  refine (makes_absent h hnodup "pid_file" rfl).seq ?_
  exact (makes_absent h hnodup "user" rfl).seq (makes_absent h hnodup "group" rfl)

end root

/--
The assignments a JSON document amounts to.
-/
theorem exists_makes_parseJSON (h : lib.Shows node d.json)
    (hsmall : ∀ n ∈ d.value .maxConnections, UInt64.toNat n < 2 ^ 32)
    : ∃ names : List Bytes, names.Perm (d.modules.entries.map Prod.fst)
        ∧ Makes (lib.parseJSON node) (d.assignments id Document.settings
            ++ d.inModules (fun name m => m.jsonAssignments name) names) := by
  have hnodup : ((["network", "ssl", "auth", "modules"] : List String).map bytes).Nodup := by decide
  obtain ⟨net, hnet, hnetwork⟩ := exists_member h hnodup "network" rfl
  obtain ⟨ssl, hssl, hssl'⟩ := exists_member h hnodup "ssl" rfl
  obtain ⟨auth, hauth, hauth'⟩ := exists_member h hnodup "auth" rfl
  obtain ⟨modules, hmodules, hmodules'⟩ := exists_member h hnodup "modules" rfl
  obtain ⟨names, hnames, hmakes⟩ := exists_makes_parseModules hmodules fun name m member => makes_parseJSONModule name
  refine ⟨names, hnames, ?_⟩
  rw [parseJSON, hnetwork, hssl', hauth', hmodules']
  refine ((makes_parseGlobalSection h).seq <| (makes_parseNetwork hnet hsmall).seq <|
    (makes_parseSSL hssl).seq <| (makes_parseAuth hauth).seq hmakes).of_eq ?_
  simp [Document.assignments, Document.settings]

/--
The assignments a YAML document amounts to.
-/
theorem exists_makes_parseYAML (h : lib.Shows node d.yaml)
    (hsmall : ∀ n ∈ d.value .maxConnections, UInt64.toNat n < 2 ^ 32)
    : ∃ names : List Bytes, names.Perm (d.modules.entries.map Prod.fst)
        ∧ Makes (lib.parseYAML node) (d.assignments id Document.settings
            ++ d.inModules (fun name m => m.yamlAssignments name) names) := by
  have hnodup : ((["network", "ssl", "auth", "modules"] : List String).map bytes).Nodup := by decide
  have hnodupAuth : ((Document.authSettings.map DocumentedSetting.key).map bytes).Nodup := by decide
  obtain ⟨net, hnet, hnetwork⟩ := exists_member h hnodup "network" rfl
  obtain ⟨ssl, hssl, hssl'⟩ := exists_member h hnodup "ssl" rfl
  obtain ⟨auth, hauth, hauth'⟩ := exists_member h hnodup "auth" rfl
  obtain ⟨modules, hmodules, hmodules'⟩ := exists_member h hnodup "modules" rfl
  obtain ⟨names, hnames, hmakes⟩ := exists_makes_parseModules hmodules fun name m member => makes_parseYAMLModule name
  refine ⟨names, hnames, ?_⟩
  rw [parseYAML, hnetwork, hssl', hauth', hmodules']
  refine ((makes_parseGlobalSection h).seq <| (makes_parseNetwork hnet hsmall).seq <|
    (makes_parseSSL hssl).seq <|
    ((makes_parseAuth hauth).seq <|
      (makes_absent hauth hnodupAuth "password_policy" rfl).seq (makes_absent hauth hnodupAuth "session" rfl)).seq <|
    (makes_absent h hnodup "log" rfl).seq <| (makes_absent h hnodup "config" rfl).seq hmakes).of_eq ?_
  simp [Document.assignments, Document.settings]

/--
Both loaders end at a number of connections that is too large.
-/
theorem throws_of_large {exclude includes : String} {n : UInt64} {rest : Loader Unit}
    (h : lib.Shows node (.record (d.members exclude includes))) (hn : d.value .maxConnections = some n)
    (hlarge : 2 ^ 32 ≤ UInt64.toNat n)
    : Throws (do lib.parseGlobalSection node; lib.onMember node "network" lib.parseNetwork; rest)
        (d.assignments id [.bindAddress, .bindPort]) := by
  have hnodup : ((["network", "ssl", "auth", "modules"] : List String).map bytes).Nodup := by decide
  obtain ⟨net, hnet, hnetwork⟩ := exists_member h hnodup "network" rfl
  rw [hnetwork]
  exact (makes_parseGlobalSection h).throws (throws_parseNetwork hnet hn hlarge).seq

end DocumentLibrary
end SimpleRsyncd
