import SimpleRsyncd.Config.DocumentedTree
import SimpleRsyncd.Config.Load

/-!
This module compares what is loaded from three files that contain the same document, one in each of the
formats.
-/

namespace SimpleRsyncd

open Configuration
open DocumentedModuleSetting (basic hooks)

variable {getenv : Bytes → Option Bytes}

theorem substitute_iniText {k : ValueKind} (hk : k ≠ .text) (v : k.Value)
    : substituteEnvironmentVariables getenv (k.iniText v) = k.iniText v := by
  cases k with
  | text => contradiction
  | flag => exact substituteEnvironmentVariables_of_notMem (by cases (v : Bool) <;> decide)
  | port | count => exact substitute_ofNat _

namespace DocumentedSetting

theorem setting_injective {s s' : DocumentedSetting} (h : s.setting = s'.setting) : s = s' := by
  cases s <;> cases s' <;> first | rfl | cases h

/--
What matters is whether the value as it is written refers to the environment.
-/
theorem meaning_eq_iff (s : DocumentedSetting) (v : s.kind.Value)
    : s.meaning (substituteEnvironmentVariables getenv) v = s.meaning id v
        ↔
      substituteEnvironmentVariables getenv (s.kind.iniText v) = s.kind.iniText v := by
  cases s with
  | bindAddress | certificateFile | privateKeyFile | caFile | method | passwordFile | publicKeyFile | realm =>
    exact .rfl
  | bindPort => exact iff_of_true rfl (substitute_iniText (k := .port) nofun v)
  | maxConnections => exact iff_of_true rfl (substitute_iniText (k := .count) nofun v)
  | sslEnabled | authEnabled | anonymousAccess =>
    exact iff_of_true rfl (substitute_iniText (k := .flag) nofun v)

end DocumentedSetting

namespace DocumentedModuleSetting

theorem setting_injective {s s' : DocumentedModuleSetting} (h : s.setting = s'.setting) : s = s' := by
  cases s <;> cases s' <;> first | rfl | cases h

theorem setting_ne_name (s : DocumentedModuleSetting) : s.setting ≠ .name := by
  cases s <;> nofun

theorem meaning_eq_iff (s : DocumentedModuleSetting) (v : s.kind.Value)
    : s.meaning (substituteEnvironmentVariables getenv) v = s.meaning id v
        ↔
      substituteEnvironmentVariables getenv (s.kind.iniText v) = s.kind.iniText v := by
  cases s with
  | path | comment | preTransferScript | postTransferScript | preDeleteScript | postDeleteScript | preListScript
    | postListScript =>
    exact .rfl
  | readOnly | list | allowDelete | overwrite =>
    exact iff_of_true rfl (substitute_iniText (k := .flag) nofun v)

theorem mem_basic_or_mem_hooks (s : DocumentedModuleSetting) : s ∈ basic ∨ s ∈ hooks := by
  cases s <;> decide

theorem not_mem_hooks_of_mem_basic {s : DocumentedModuleSetting} (h : s ∈ basic) : s ∉ hooks := by
  cases s <;> revert h <;> decide

/--
A hook has its default value exactly if it is written as an empty text.
-/
theorem meaning_eq_default_iff {s : DocumentedModuleSetting} (hs : s ∈ hooks) (v : s.kind.Value) (name : Bytes)
    : s.meaning id v = s.setting.get ({ name := name } : ModuleConfig) ↔ s.kind.iniText v = [] := by
  cases s with
  | path | comment | readOnly | list | allowDelete | overwrite => exact absurd hs (by decide)
  | preTransferScript | postTransferScript | preDeleteScript | postDeleteScript | preListScript
    | postListScript =>
    exact .rfl

end DocumentedModuleSetting

theorem DocumentedModuleSetting.value?_assignment_of_ne {s : DocumentedModuleSetting} {t : ModuleSetting}
    (h : s.setting ≠ t) (expand : Bytes → Bytes) (v : s.kind.Value)
    : (s.assignment expand v).value? t = none :=
  dif_neg h

namespace ModuleDocument

variable {m : ModuleDocument} {expand : Bytes → Bytes} {settings : List DocumentedModuleSetting}
  {a : ModuleAssignment}

theorem mem_assignments
    : a ∈ m.assignments expand settings ↔ ∃ s ∈ settings, ∃ v, m.value s = some v ∧ a = s.assignment expand v := by
  simp only [assignments, List.mem_flatMap, List.mem_map, Option.mem_toList, eq_comm]

/--
An assignment sets one of the documented settings, or it adds a pattern and sets none.
-/
theorem mem_basicAssignments (h : a ∈ m.basicAssignments expand)
    : (∃ s ∈ basic, ∃ v, m.value s = some v ∧ a = s.assignment expand v) ∨ ∀ t, a.value? t = none := by
  simp only [basicAssignments, List.mem_append, List.mem_map, mem_assignments] at h
  rcases h with (h | ⟨p, -, rfl⟩) | ⟨p, -, rfl⟩
  . exact .inl h
  . exact .inr fun t => rfl
  . exact .inr fun t => rfl

theorem mem_allAssignments (h : a ∈ m.allAssignments expand)
    : (∃ s v, m.value s = some v ∧ a = s.assignment expand v) ∨ ∀ t, a.value? t = none := by
  rcases List.mem_append.mp h with h | h
  . refine (mem_basicAssignments h).imp_left ?_
    rintro ⟨s, -, h⟩
    exact ⟨s, h⟩
  . obtain ⟨s, -, h⟩ := mem_assignments.mp h
    exact .inl ⟨s, h⟩

theorem assignment_mem_allAssignments {s : DocumentedModuleSetting} {v : s.kind.Value} (h : m.value s = some v)
    : s.assignment expand v ∈ m.allAssignments expand := by
  have hmem : ∀ settings, s ∈ settings → s.assignment expand v ∈ m.assignments expand settings :=
    fun settings hs => mem_assignments.mpr ⟨s, hs, v, h, rfl⟩
  rcases s.mem_basic_or_mem_hooks with hs | hs
  . exact List.mem_append_left _ (List.mem_append_left _ (List.mem_append_left _ (hmem basic hs)))
  . exact List.mem_append_right _ (hmem hooks hs)

end ModuleDocument

namespace ModuleConfig

/--
The INI loader declares a module again and again.
-/
theorem assign_declares (m : ModuleConfig) (l : List ModuleAssignment)
    : m.assign (l.flatMap fun a => [.declare, a]) = m.assign l := by
  induction l generalizing m with
  | nil => rfl
  | cons a l ih => exact ih (a.apply m)

theorem assign_append (m : ModuleConfig) (l l' : List ModuleAssignment) : m.assign (l ++ l') = (m.assign l).assign l' :=
  List.foldl_append

theorem assign_eq_self {m : ModuleConfig} {l : List ModuleAssignment} (h : ∀ a ∈ l, a.apply m = m) : m.assign l = m := by
  induction l with
  | nil => rfl
  | cons a l ih =>
    have hcons : m.assign (a :: l) = (a.apply m).assign l := rfl
    rw [hcons, h a List.mem_cons_self, ih fun b hb => h b (List.mem_cons_of_mem a hb)]

theorem get_assign_of_none (m : ModuleConfig) {l : List ModuleAssignment} {t : ModuleSetting}
    (h : ∀ a ∈ l, a.value? t = none)
    : t.get (m.assign l) = t.get m := by
  rw [get_assign, Cell.overwrite_of_none _ h]

variable {d : ModuleDocument} {expand : Bytes → Bytes}

/--
A documented setting has the value that is meant.
-/
theorem get_assign_allAssignments (m : ModuleConfig) {s : DocumentedModuleSetting} {v : s.kind.Value}
    (h : d.value s = some v)
    : s.setting.get (m.assign (d.allAssignments expand)) = s.meaning expand v := by
  rw [get_assign]
  apply Cell.overwrite_eq_of_forall
  . refine ⟨_, ModuleDocument.assignment_mem_allAssignments h, ?_⟩
    simp [DocumentedModuleSetting.assignment, ModuleAssignment.value?]
  . intro a ha z hz
    rcases ModuleDocument.mem_allAssignments ha with ⟨s', v', hv', rfl⟩ | hnone
    . simp only [DocumentedModuleSetting.assignment, ModuleAssignment.value?] at hz
      split at hz
      . next heq =>
        obtain rfl := DocumentedModuleSetting.setting_injective heq
        obtain rfl := Option.some.inj (hv'.symm.trans h)
        simpa using hz.symm
      . contradiction
    . simp [hnone] at hz

theorem name_assign_allAssignments (m : ModuleConfig) : (m.assign (d.allAssignments expand)).name = m.name := by
  apply get_assign_of_none (t := .name)
  intro a ha
  rcases ModuleDocument.mem_allAssignments ha with ⟨s, v, -, rfl⟩ | hnone
  . exact s.value?_assignment_of_ne s.setting_ne_name expand v
  . exact hnone .name

/--
Without the hooks they keep the values there are.
-/
theorem get_assign_basicAssignments (m : ModuleConfig) {s : DocumentedModuleSetting} (hs : s ∈ hooks)
    : s.setting.get (m.assign (d.basicAssignments expand)) = s.setting.get m := by
  apply get_assign_of_none
  intro a ha
  rcases ModuleDocument.mem_basicAssignments ha with ⟨s', hs', v, -, rfl⟩ | hnone
  . refine s'.value?_assignment_of_ne ?_ expand v
    intro heq
    obtain rfl := DocumentedModuleSetting.setting_injective heq
    exact DocumentedModuleSetting.not_mem_hooks_of_mem_basic hs' hs
  . exact hnone _

theorem patterns_assign_allAssignments (m : ModuleConfig)
    : (m.assign (d.allAssignments expand)).excludePatterns
        = m.excludePatterns ++ d.exclude.map (fun p => expand p.text)
      ∧ (m.assign (d.allAssignments expand)).includePatterns
        = m.includePatterns ++ d.includes.map (fun p => expand p.text) := by
  have hset : ∀ settings, (d.assignments expand settings).flatMap ModuleAssignment.excluded = []
      ∧ (d.assignments expand settings).flatMap ModuleAssignment.included = [] := by
    intro settings
    constructor
    all_goals
      rw [List.flatMap_eq_nil_iff]
      intro a ha
      obtain ⟨s, -, v, -, rfl⟩ := ModuleDocument.mem_assignments.mp ha
      rfl
  rw [excludePatterns_assign, includePatterns_assign, Cell.extend_eq, Cell.extend_eq]
  simp only [ModuleDocument.allAssignments, ModuleDocument.basicAssignments, List.flatMap_append, hset,
    List.flatMap_map, ModuleAssignment.excluded, ModuleAssignment.included, List.nil_append]
  simp [List.map_eq_flatMap]

end ModuleConfig

namespace ModuleDocument

variable {d : ModuleDocument}

theorem iniText_mem_iniPairs {s : DocumentedModuleSetting} {v : s.kind.Value} (h : d.value s = some v)
    : (s.iniKey, s.kind.iniText v) ∈ d.iniPairs := by
  have hmem : ∀ settings, s ∈ settings → (s.iniKey, s.kind.iniText v) ∈ d.pairs settings := by
    intro settings hs
    simp only [pairs, List.mem_flatMap, List.mem_map]
    exact ⟨s, hs, v, by simp [h], rfl⟩
  rcases s.mem_basic_or_mem_hooks with hs | hs
  . exact List.mem_append_left _ (List.mem_append_left _ (List.mem_append_left _ (hmem basic hs)))
  . exact List.mem_append_right _ (hmem hooks hs)

theorem exclude_mem_iniPairs {p : Line} (h : p ∈ d.exclude) : ("exclude", p.text) ∈ d.iniPairs := by
  have hmem : ("exclude", p.text) ∈ d.exclude.map fun v => ("exclude", v.text) := List.mem_map.mpr ⟨p, h, rfl⟩
  simp [iniPairs, hmem]

theorem include_mem_iniPairs {p : Line} (h : p ∈ d.includes) : ("include", p.text) ∈ d.iniPairs := by
  have hmem : ("include", p.text) ∈ d.includes.map fun v => ("include", v.text) := List.mem_map.mpr ⟨p, h, rfl⟩
  simp [iniPairs, hmem]

/--
What it takes for all formats to agree about a module: an INI file does not set the name, and a JSON file
does not set the hooks.
-/
structure Portable (getenv : Bytes → Option Bytes) (name : Bytes) (d : ModuleDocument) : Prop where
  name : name = []
  hooks : ∀ s ∈ hooks, ∀ v, d.value s = some v → s.kind.iniText v = []
  unexpanded : ∀ pair ∈ d.iniPairs, substituteEnvironmentVariables getenv pair.2 = pair.2

/--
Without references to the environment all texts are taken as they are.
-/
theorem allAssignments_congr (h : ∀ pair ∈ d.iniPairs, substituteEnvironmentVariables getenv pair.2 = pair.2)
    : d.allAssignments (substituteEnvironmentVariables getenv) = d.allAssignments id := by
  have hsettings : ∀ settings, d.assignments (substituteEnvironmentVariables getenv) settings
      = d.assignments id settings := by
    intro settings
    apply List.flatMap_congr
    intro s _
    apply List.map_congr_left
    intro v hv
    have hmeaning := (s.meaning_eq_iff v).mpr (h _ (iniText_mem_iniPairs (Option.mem_toList.mp hv)))
    rw [DocumentedModuleSetting.assignment, DocumentedModuleSetting.assignment, hmeaning]
  have hexclude : d.exclude.map (fun p => ModuleAssignment.exclude (substituteEnvironmentVariables getenv p.text))
      = d.exclude.map fun p => .exclude (id p.text) :=
    List.map_congr_left fun p hp => congrArg ModuleAssignment.exclude (h _ (exclude_mem_iniPairs hp))
  have hinclude : d.includes.map (fun p => ModuleAssignment.includes (substituteEnvironmentVariables getenv p.text))
      = d.includes.map fun p => .includes (id p.text) :=
    List.map_congr_left fun p hp => congrArg ModuleAssignment.includes (h _ (include_mem_iniPairs hp))
  rw [allAssignments, allAssignments, basicAssignments, basicAssignments, hsettings, hsettings, hexclude, hinclude]

/--
If an INI file leads to the settings of the texts as they are, no text of it has been replaced.
-/
theorem unexpanded_of_assign_eq {name : Bytes}
    (h : ({} : ModuleConfig).assign (d.allAssignments (substituteEnvironmentVariables getenv))
      = ({ name := name } : ModuleConfig).assign (d.allAssignments id))
    : ∀ pair ∈ d.iniPairs, substituteEnvironmentVariables getenv pair.2 = pair.2 := by
  intro pair hpair
  have hexclude := congrArg ModuleConfig.excludePatterns h
  have hinclude := congrArg ModuleConfig.includePatterns h
  simp only [ModuleConfig.patterns_assign_allAssignments, List.nil_append] at hexclude hinclude
  have hsettings : ∀ settings, pair ∈ d.pairs settings →
      substituteEnvironmentVariables getenv pair.2 = pair.2 := by
    intro settings hmem
    simp only [pairs, List.mem_flatMap, List.mem_map] at hmem
    obtain ⟨s, -, v, hv, rfl⟩ := hmem
    have hget := congrArg s.setting.get h
    rw [ModuleConfig.get_assign_allAssignments _ (by simpa using hv),
      ModuleConfig.get_assign_allAssignments _ (by simpa using hv)] at hget
    exact (s.meaning_eq_iff v).mp hget
  simp only [iniPairs, List.mem_append, List.mem_map] at hpair
  rcases hpair with ((hpair | ⟨p, hp, rfl⟩) | ⟨p, hp, rfl⟩) | hpair
  . exact hsettings _ hpair
  . exact List.map_inj_left.mp hexclude p hp
  . exact List.map_inj_left.mp hinclude p hp
  . exact hsettings _ hpair

/--
Hooks that are not set make no difference.
-/
theorem assign_allAssignments_of_hooks (h : ∀ s ∈ hooks, ∀ v, d.value s = some v → s.kind.iniText v = [])
    : ({} : ModuleConfig).assign (d.allAssignments id) = ({} : ModuleConfig).assign (d.basicAssignments id) := by
  rw [allAssignments, ModuleConfig.assign_append]
  apply ModuleConfig.assign_eq_self
  intro a ha
  obtain ⟨s, hs, v, hv, rfl⟩ := mem_assignments.mp ha
  have hdefault := (DocumentedModuleSetting.meaning_eq_default_iff hs v []).mpr (h s hs v hv)
  have hkeep : s.setting.get (({} : ModuleConfig).assign (d.basicAssignments id)) = s.setting.get {} :=
    ModuleConfig.get_assign_basicAssignments _ hs
  rw [DocumentedModuleSetting.assignment, ModuleAssignment.apply, hdefault, ← hkeep]
  exact ModuleSetting.set_get _ _

theorem agree_iff {name : Bytes}
    : ({} : ModuleConfig).assign (d.iniAssignments (substituteEnvironmentVariables getenv))
          = ({} : ModuleConfig).assign (d.jsonAssignments name)
        ∧ ({} : ModuleConfig).assign (d.jsonAssignments name) = ({} : ModuleConfig).assign (d.yamlAssignments name)
        ↔
      d.Portable getenv name := by
  have hini : ({} : ModuleConfig).assign (d.iniAssignments (substituteEnvironmentVariables getenv))
      = ({} : ModuleConfig).assign (d.allAssignments (substituteEnvironmentVariables getenv)) :=
    ModuleConfig.assign_declares {} _
  have hjson : ({} : ModuleConfig).assign (d.jsonAssignments name)
      = ({ name := name } : ModuleConfig).assign (d.basicAssignments id) := rfl
  have hyaml : ({} : ModuleConfig).assign (d.yamlAssignments name)
      = ({ name := name } : ModuleConfig).assign (d.allAssignments id) := rfl
  rw [hini, hjson, hyaml]
  constructor
  . rintro ⟨hij, hjy⟩
    have hiy := hij.trans hjy
    refine ⟨?_, ?_, unexpanded_of_assign_eq hiy⟩
    . have hname := congrArg ModuleConfig.name hiy
      rw [ModuleConfig.name_assign_allAssignments, ModuleConfig.name_assign_allAssignments] at hname
      exact hname.symm
    . intro s hs v hv
      have hget := congrArg s.setting.get hjy
      rw [ModuleConfig.get_assign_basicAssignments _ hs, ModuleConfig.get_assign_allAssignments _ hv] at hget
      exact (DocumentedModuleSetting.meaning_eq_default_iff hs v name).mp hget.symm
  . intro h
    obtain rfl := h.name
    rw [allAssignments_congr h.unexpanded]
    have hhooks := assign_allAssignments_of_hooks h.hooks
    exact ⟨hhooks, hhooks.symm⟩

end ModuleDocument

namespace Document

variable {d : Document} {expand : Bytes → Bytes} {f : Bytes → ModuleDocument → List ModuleAssignment}
  {names : List Bytes} {a : Assignment}

theorem mem_assignments {settings : List DocumentedSetting}
    : a ∈ d.assignments expand settings ↔ ∃ s ∈ settings, ∃ v, d.value s = some v ∧ a = s.assignment expand v := by
  simp only [assignments, List.mem_flatMap, List.mem_map, Option.mem_toList, eq_comm]

theorem mem_settings (s : DocumentedSetting) : s ∈ settings := by
  cases s <;> decide

theorem mem_inModules (h : a ∈ d.inModules f names) : ∃ name b, a = .inModule name b := by
  obtain ⟨name, -, ha⟩ := List.mem_flatMap.mp h
  rw [← List.map_cons, List.mem_map] at ha
  obtain ⟨b, -, rfl⟩ := ha
  exact ⟨name, b, rfl⟩

/--
What the assignments do to one of the modules.
-/
theorem filterMap_inside_inModules (hnodup : names.Nodup) (name : Bytes)
    : (d.inModules f names).filterMap (·.inside name)
      = if name ∈ names then .declare :: f name ((d.modules.lookup name).getD {}) else [] := by
  have hinside : ∀ (k : Bytes) (l : List ModuleAssignment), (l.map (Assignment.inModule k)).filterMap (·.inside name)
      = if name = k then l else [] := by
    intro k l
    rw [List.filterMap_map]
    by_cases hk : name = k <;> simp [hk, Function.comp_def, Assignment.inside]
  induction names with
  | nil => rfl
  | cons k names ih =>
    obtain ⟨hk, hnodup⟩ := List.nodup_cons.mp hnodup
    have hcons : d.inModules f (k :: names)
        = (.declare :: f k ((d.modules.lookup k).getD {})).map (.inModule k) ++ d.inModules f names := rfl
    rw [hcons, List.filterMap_append, hinside, ih hnodup]
    by_cases hname : name = k
    . subst hname
      simp [hk]
    . simp [hname]

theorem lookup_assign_inModules (hnames : names.Perm (d.modules.entries.map Prod.fst)) (name : Bytes)
    : (({} : Configuration).assign (d.assignments expand settings ++ d.inModules f names)).modules.lookup name
      = (d.modules.lookup name).map fun m => ({} : ModuleConfig).assign (f name m) := by
  have hsettings : (d.assignments expand settings).filterMap (·.inside name) = [] := by
    rw [List.filterMap_eq_nil_iff]
    intro a ha
    obtain ⟨s, -, v, -, rfl⟩ := mem_assignments.mp ha
    rfl
  have hnodup := (hnames.nodup_iff).mpr d.modules.nodup_keys
  have hmem : name ∈ names ↔ d.modules.lookup name ≠ none := by
    rw [hnames.mem_iff, d.modules.mem_keys_iff]
  rw [lookup_modules_assign, List.filterMap_append, hsettings, List.nil_append, filterMap_inside_inModules hnodup]
  cases hlookup : d.modules.lookup name with
  | none => simp [hmem, hlookup]
  | some m =>
    simp [hmem, hlookup]
    rfl

theorem get_assign_of_value {s : DocumentedSetting} {v : s.kind.Value} (h : d.value s = some v)
    : s.setting.get (({} : Configuration).assign (d.assignments expand settings ++ d.inModules f names))
      = s.meaning expand v := by
  rw [get_assign]
  apply Cell.overwrite_eq_of_forall
  . refine ⟨s.assignment expand v, ?_, ?_⟩
    . exact List.mem_append_left _ (mem_assignments.mpr ⟨s, mem_settings s, v, h, rfl⟩)
    . simp [DocumentedSetting.assignment, Assignment.value?]
  . intro a ha z hz
    rcases List.mem_append.mp ha with ha | ha
    . obtain ⟨s', -, v', hv', rfl⟩ := mem_assignments.mp ha
      simp only [DocumentedSetting.assignment, Assignment.value?] at hz
      split at hz
      . next heq =>
        obtain rfl := DocumentedSetting.setting_injective heq
        obtain rfl := Option.some.inj (hv'.symm.trans h)
        simpa using hz.symm
      . contradiction
    . obtain ⟨name, b, rfl⟩ := mem_inModules ha
      simp [Assignment.value?] at hz

/--
Assignments to modules leave the rest as it is.
-/
theorem assign_inModules {M : List Assignment} (hM : ∀ a ∈ M, ∃ name b, a = .inModule name b) (c : Configuration)
    : c.assign M = { c with modules := (c.assign M).modules } := by
  induction M generalizing c with
  | nil => rfl
  | cons a M ih =>
    obtain ⟨name, b, rfl⟩ := hM _ List.mem_cons_self
    have hcons : c.assign (.inModule name b :: M) = ((Assignment.inModule name b).apply c).assign M := rfl
    rw [hcons, ih fun a ha => hM a (List.mem_cons_of_mem _ ha)]
    rfl

variable (expand) in
/--
The order in which the modules are read makes no difference.
-/
theorem assign_inModules_congr {f' : Bytes → ModuleDocument → List ModuleAssignment} {names' : List Bytes}
    (hnames : names.Perm (d.modules.entries.map Prod.fst)) (hnames' : names'.Perm (d.modules.entries.map Prod.fst))
    (h : ∀ name m, d.modules.lookup name = some m →
      ({} : ModuleConfig).assign (f name m) = ({} : ModuleConfig).assign (f' name m))
    : ({} : Configuration).assign (d.assignments expand settings ++ d.inModules f names)
      = ({} : Configuration).assign (d.assignments expand settings ++ d.inModules f' names') := by
  have happend : ∀ l, ({} : Configuration).assign (d.assignments expand settings ++ l)
      = (({} : Configuration).assign (d.assignments expand settings)).assign l := fun l => List.foldl_append
  have hmodules : (({} : Configuration).assign (d.assignments expand settings ++ d.inModules f names)).modules
      = (({} : Configuration).assign (d.assignments expand settings ++ d.inModules f' names')).modules := by
    apply OrderedMap.ext_lookup
    intro name
    rw [lookup_assign_inModules hnames, lookup_assign_inModules hnames']
    cases hm : d.modules.lookup name with
    | none => rfl
    | some m => simp [h name m hm]
  rw [happend, happend] at hmodules ⊢
  rw [assign_inModules fun a => mem_inModules, hmodules, ← assign_inModules fun a => mem_inModules]

theorem assignments_congr (h : ∀ pair ∈ d.iniPairs, substituteEnvironmentVariables getenv pair.2 = pair.2)
    (settings : List DocumentedSetting)
    : d.assignments (substituteEnvironmentVariables getenv) settings = d.assignments id settings := by
  apply List.flatMap_congr
  intro s _
  apply List.map_congr_left
  intro v hv
  have hpair : (s.iniKey, s.kind.iniText v) ∈ d.iniPairs := by
    simp only [iniPairs, List.mem_flatMap, List.mem_map]
    exact ⟨s, mem_settings s, v, hv, rfl⟩
  rw [DocumentedSetting.assignment, DocumentedSetting.assignment, (s.meaning_eq_iff v).mpr (h _ hpair)]

/--
Three files that contain the document, one in each of the formats. The libraries show the trees that the
texts stand for.
-/
structure WrittenTo (machine : Machine) (ini json yaml : Bytes) (d : Document) : Prop where
  iniFormat : format ini ≠ bytes ".json" ∧ format ini ≠ bytes ".yml" ∧ format ini ≠ bytes ".yaml"
  jsonFormat : format json = bytes ".json"
  yamlFormat : format yaml = bytes ".yml" ∨ format yaml = bytes ".yaml"
  ini : openFile machine ini = some (.ok d.ini)
  json : ∃ text root, openFile machine json = some (.ok text) ∧ text ≠ []
    ∧ machine.json.parse text = .ok root ∧ machine.json.Shows root d.json
  yaml : ∃ text root, openFile machine yaml = some (.ok text) ∧ text ≠ []
    ∧ machine.yaml.parse text = .ok root ∧ machine.yaml.Shows root d.yaml

variable {machine : Machine} {filename ini json yaml : Bytes}

theorem same_loadFromFile {content : Bytes} (h : openFile machine filename = some (.ok content))
    : (({} : Configuration).loadFromFile machine filename).2.Same
        (({} : Configuration).assign (textOutcome machine filename (.ok content)).2) := by
  have hexists : machine.fs.exists filename = .ok true := by
    have hread : machine.fs.read filename = some content := by
      unfold openFile at h
      split at h
      . contradiction
      . split at h
        . next hread => simp_all
        . split at h <;> simp at h
    unfold FileSystem.read at hread
    split at hread
    . next l hresolve => simp [FileSystem.exists, hresolve]
    . contradiction
  have hload := (loads_loadFromFile machine {} filename).same
  rw [fileOutcome, hexists, h] at hload
  exact hload

theorem WrittenTo.same_ini (h : d.WrittenTo machine ini json yaml)
    : (({} : Configuration).loadFromFile machine ini).2.Same
        (({} : Configuration).assign (d.assignments (substituteEnvironmentVariables machine.getenv) settings
          ++ d.inModules (fun _ m => m.iniAssignments (substituteEnvironmentVariables machine.getenv))
            (d.modules.entries.map Prod.fst))) := by
  obtain ⟨hjson, hyml, hyaml⟩ := h.iniFormat
  rw [← parseIni_ini]
  have htext : textOutcome machine ini (.ok d.ini) = (true, parseIni machine.getenv d.ini) := by
    simp only [textOutcome, hjson, hyml, hyaml, if_false, decide_false, Bool.or_self, Bool.false_eq_true]
    rfl
  have hload := same_loadFromFile h.ini
  rwa [htext] at hload

/--
A loader for JSON or YAML has made these assignments, whether it has thrown in the end or not.
-/
theorem WrittenTo.same_json (h : d.WrittenTo machine ini json yaml)
    (hsmall : ∀ n ∈ d.value .maxConnections, UInt64.toNat n < 2 ^ 32)
    : ∃ names : List Bytes, names.Perm (d.modules.entries.map Prod.fst)
        ∧ (({} : Configuration).loadFromFile machine json).2.Same
          (({} : Configuration).assign (d.assignments id settings
            ++ d.inModules (fun name m => m.jsonAssignments name) names)) := by
  obtain ⟨text, root, hopen, hne, hparse, hshows⟩ := h.json
  obtain ⟨names, hnames, hmakes⟩ := DocumentLibrary.exists_makes_parseJSON hshows hsmall
  refine ⟨names, hnames, ?_⟩
  have hload := same_loadFromFile hopen
  simpa [textOutcome, h.jsonFormat, jsonOutcome, hne, hparse, hmakes.run_eq] using hload

theorem WrittenTo.same_yaml (h : d.WrittenTo machine ini json yaml)
    (hsmall : ∀ n ∈ d.value .maxConnections, UInt64.toNat n < 2 ^ 32)
    : ∃ names : List Bytes, names.Perm (d.modules.entries.map Prod.fst)
        ∧ (({} : Configuration).loadFromFile machine yaml).2.Same
          (({} : Configuration).assign (d.assignments id settings
            ++ d.inModules (fun name m => m.yamlAssignments name) names)) := by
  obtain ⟨text, root, hopen, hne, hparse, hshows⟩ := h.yaml
  obtain ⟨names, hnames, hmakes⟩ := DocumentLibrary.exists_makes_parseYAML hshows hsmall
  refine ⟨names, hnames, ?_⟩
  have hnull : machine.yaml.isNull root = false := by
    cases hshows with
    | object _ _ hnull => exact hnull
  have hload := same_loadFromFile hopen
  have hformat : format yaml ≠ bytes ".json" := by
    rcases h.yamlFormat with hyml | hyaml
    . rw [hyml]
      decide
    . rw [hyaml]
      decide
  simpa [textOutcome, hformat, h.yamlFormat, yamlOutcome, hne, hparse, hnull, hmakes.run_eq] using hload

/--
The JSON loader gets no further than to the number of connections if that is too large.
-/
theorem WrittenTo.same_json_of_large (h : d.WrittenTo machine ini json yaml) {n : UInt64}
    (hn : d.value .maxConnections = some n) (hlarge : 2 ^ 32 ≤ UInt64.toNat n)
    : (({} : Configuration).loadFromFile machine json).2.Same
        (({} : Configuration).assign (d.assignments id [.bindAddress, .bindPort])) := by
  obtain ⟨text, root, hopen, hne, hparse, hshows⟩ := h.json
  obtain ⟨what, hrun⟩ := (DocumentLibrary.throws_of_large hshows hn hlarge).run_eq
  have hrun : (machine.json.parseJSON root).run = _ := hrun
  have hload := same_loadFromFile hopen
  simpa [textOutcome, h.jsonFormat, jsonOutcome, hne, hparse, hrun] using hload

/--
What it takes for all formats to agree about a document. An INI file replaces references to the
environment, and JSON and YAML read a number as an `unsigned int`.
-/
structure Portable (getenv : Bytes → Option Bytes) (d : Document) : Prop where
  connections : ∀ n, d.value .maxConnections = some n → UInt64.toNat n < 2 ^ 32
  unexpanded : ∀ pair ∈ d.iniPairs, substituteEnvironmentVariables getenv pair.2 = pair.2
  modules : ∀ name m, d.modules.lookup name = some m → m.Portable getenv name

theorem WrittenTo.connections_of_same (h : d.WrittenTo machine ini json yaml)
    (hsame : (({} : Configuration).loadFromFile machine ini).2.Same (({} : Configuration).loadFromFile machine json).2)
    {n : UInt64} (hn : d.value .maxConnections = some n)
    : UInt64.toNat n < 2 ^ 32 := by
  by_contra hlarge
  have hget := (h.same_ini.symm.trans (hsame.trans (h.same_json_of_large hn (by omega)))).get .maxConnections
  have hdefault : Setting.maxConnections.get (({} : Configuration).assign (d.assignments id [.bindAddress, .bindPort]))
      = (100 : Nat) := by
    rw [get_assign, Cell.overwrite_of_none]
    . rfl
    . intro a ha
      obtain ⟨s, hs, v, -, rfl⟩ := mem_assignments.mp ha
      have hne : s.setting ≠ .maxConnections := by
        intro heq
        obtain rfl : s = .maxConnections := DocumentedSetting.setting_injective heq
        revert hs
        decide
      exact dif_neg hne
  rw [hdefault] at hget
  have hn' : UInt64.toNat n = 100 := (get_assign_of_value hn).symm.trans hget
  omega

/--
The three files lead to the same settings exactly if the document has nothing in it that one of the
formats treats in its own way.
-/
theorem same_iff (h : d.WrittenTo machine ini json yaml)
    : (({} : Configuration).loadFromFile machine ini).2.Same (({} : Configuration).loadFromFile machine json).2
        ∧ (({} : Configuration).loadFromFile machine json).2.Same (({} : Configuration).loadFromFile machine yaml).2
        ↔
      d.Portable machine.getenv := by
  constructor
  . rintro ⟨hij, hjy⟩
    have hsmall : ∀ n ∈ d.value .maxConnections, UInt64.toNat n < 2 ^ 32 := fun n hn => h.connections_of_same hij hn
    obtain ⟨names, hnames, hjson⟩ := h.same_json hsmall
    obtain ⟨names', hnames', hyaml⟩ := h.same_yaml hsmall
    -- all three configurations are assignments to the default one, and can be compared one by one
    have hij := h.same_ini.symm.trans (hij.trans hjson)
    have hjy := hjson.symm.trans (hjy.trans hyaml)
    refine ⟨hsmall, ?_, ?_⟩
    . intro pair hpair
      simp only [iniPairs, List.mem_flatMap, List.mem_map] at hpair
      obtain ⟨s, -, v, hv, rfl⟩ := hpair
      have hget := hij.get s.setting
      rw [get_assign_of_value (by simpa using hv), get_assign_of_value (by simpa using hv)] at hget
      exact (s.meaning_eq_iff v).mp hget
    . intro name m hm
      have hlookup := congrArg (OrderedMap.lookup · name) hij.modules
      have hlookup' := congrArg (OrderedMap.lookup · name) hjy.modules
      simp only [lookup_assign_inModules .rfl, lookup_assign_inModules hnames, lookup_assign_inModules hnames', hm]
        at hlookup hlookup'
      exact ModuleDocument.agree_iff.mp ⟨Option.some.inj hlookup, Option.some.inj hlookup'⟩
  . intro hportable
    obtain ⟨names, hnames, hjson⟩ := h.same_json hportable.connections
    obtain ⟨names', hnames', hyaml⟩ := h.same_yaml hportable.connections
    have hini := h.same_ini
    rw [assignments_congr hportable.unexpanded] at hini
    have hij := assign_inModules_congr id .rfl hnames fun name m hm =>
      (ModuleDocument.agree_iff.mpr (hportable.modules name m hm)).1
    have hjy := assign_inModules_congr id hnames hnames' fun name m hm =>
      (ModuleDocument.agree_iff.mpr (hportable.modules name m hm)).2
    rw [hij] at hini
    rw [← hjy] at hyaml
    exact ⟨hini.trans hjson.symm, hjson.trans hyaml.symm⟩

/--
A machine with the directory `/m` and with files that contain the document. Its libraries parse no other
text.
-/
def stored (d : Document) (json yaml : String) : Machine where
  fs := {
    entries := [
      (⟨bytes "m", isName_m⟩, .dir []),
      (⟨bytes "c.conf", by decide⟩, .file d.ini),
      (⟨bytes "c.json", by decide⟩, .file (bytes json)),
      (⟨bytes "c.yaml", by decide⟩, .file (bytes yaml))
    ]
  }
  json := Tree.library fun text => if text = bytes json then .ok d.json else .error (bytes "Syntax error")
  yaml := Tree.library fun text => if text = bytes yaml then .ok d.yaml else .error (bytes "bad conversion")

theorem writtenTo_stored (d : Document) {json yaml : String} (hjson : bytes json ≠ []) (hyaml : bytes yaml ≠ [])
    : d.WrittenTo (d.stored json yaml) (bytes "/c.conf") (bytes "/c.json") (bytes "/c.yaml") where
  iniFormat := by decide
  jsonFormat := by decide
  yamlFormat := by decide
  ini := rfl
  json := ⟨bytes json, d.json, rfl, hjson, if_pos rfl, Tree.shows_library d.distinct_json⟩
  yaml := ⟨bytes yaml, d.yaml, rfl, hyaml, if_pos rfl, Tree.shows_library d.distinct_yaml⟩

def onlyPort : Document where
  value := fun
    | .bindPort => some (874 : UInt16)
    | _ => none
  names := by simp [OrderedMap.empty]

def onlyPortJSON : String :=
  "\x7b\"network\":\x7b\"bind_port\":874\x7d,\"ssl\":\x7b\x7d,\"auth\":\x7b\x7d,\"modules\":\x7b\x7d\x7d"

def onlyPortYAML : String :=
  "network:\n  bind_port: 874\nssl: \x7b\x7d\nauth: \x7b\x7d\nmodules: \x7b\x7d\n"

/--
What a new `Configuration` loads from a file of that machine.
-/
def loaded (d : Document) (json yaml filename : String) : Configuration :=
  (({} : Configuration).loadFromFile (d.stored json yaml) (bytes filename)).2

theorem same_single
    : (onlyPort.loaded onlyPortJSON onlyPortYAML "/c.conf").Same (onlyPort.loaded onlyPortJSON onlyPortYAML "/c.json")
        ∧ (onlyPort.loaded onlyPortJSON onlyPortYAML "/c.json").Same
          (onlyPort.loaded onlyPortJSON onlyPortYAML "/c.yaml") := by
  have hportable : onlyPort.Portable (onlyPort.stored onlyPortJSON onlyPortYAML).getenv := by
    refine ⟨nofun, by decide +kernel, ?_⟩
    intro name m hm
    contradiction
  exact (same_iff (onlyPort.writtenTo_stored (by decide) (by decide))).mpr hportable

/--
A module `a` with a path.
-/
def onlyModule : Document where
  modules := OrderedMap.empty.insert (bytes "a")
    {
      value := fun
        | .path => some (⟨bytes "/m", by decide⟩ : Line)
        | _ => none
    }
  names := by decide +kernel

def onlyModuleJSON : String :=
  "\x7b\"network\":\x7b\x7d,\"ssl\":\x7b\x7d,\"auth\":\x7b\x7d,"
    ++ "\"modules\":\x7b\"a\":\x7b\"path\":\"/m\",\"exclude\":[],\"include\":[]\x7d\x7d\x7d"

def onlyModuleYAML : String :=
  "network: \x7b\x7d\nssl: \x7b\x7d\nauth: \x7b\x7d\n"
    ++ "modules:\n  a:\n    path: /m\n    exclude_patterns: []\n    include_patterns: []\n"

/--
The INI loader leaves the name of the module empty.
-/
theorem not_same_single
    : onlyModule.WrittenTo (onlyModule.stored onlyModuleJSON onlyModuleYAML) (bytes "/c.conf") (bytes "/c.json")
          (bytes "/c.yaml")
        ∧ (∀ filename ∈ ["/c.conf", "/c.json", "/c.yaml"], (({} : Configuration).loadFromFile
          (onlyModule.stored onlyModuleJSON onlyModuleYAML) (bytes filename)).1 = .ok true)
        ∧ ¬(onlyModule.loaded onlyModuleJSON onlyModuleYAML "/c.conf").Same
          (onlyModule.loaded onlyModuleJSON onlyModuleYAML "/c.json") := by
  refine ⟨onlyModule.writtenTo_stored (by decide) (by decide), by decide +kernel, ?_⟩
  intro h
  have hmodules := congrArg (·.lookup (bytes "a")) h.modules
  revert hmodules
  decide +kernel

end Document
end SimpleRsyncd
