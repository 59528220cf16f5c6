import SimpleRsyncd.Config.IniText
import SimpleRsyncd.Config.Load

/-!
This module determines what the loader makes of an INI file that consists of sections. No section has an effect on
what the next ones mean, so that their order does not matter.
-/

namespace SimpleRsyncd
namespace Configuration

/--
A header and the lines up to the next header. With an empty name the lines would be read as global ones.
-/
structure IniBlock where
  header : Bytes
  name : Bytes
  body : List Bytes
  read_header : IniLine.read header = .header name
  name_ne_nil : name ≠ []
  read_body : ∀ line ∈ body, ∀ name, IniLine.read line ≠ .header name

def IniBlock.lines (b : IniBlock) : List Bytes :=
  b.header :: b.body

/--
Whether at most one section may have this name.
-/
def isUnique (name : Bytes) : Bool :=
  name = bytes "global" || Bytes.startsWith name (bytes "module:")

section blocks

variable (getenv : Bytes → Option Bytes)

/--
The assignments of a line other than a header, without the reports.
-/
def pairAssignments (state : IniState) (line : Bytes) : List Assignment :=
  match IniLine.read line with
  | .pair key value => parsePair state key (substituteEnvironmentVariables getenv value)
  | _ => []

/--
The assignments of a section, wherever it stands.
-/
def IniBlock.assignments (b : IniBlock) : List Assignment :=
  let (state, assignments) := parseHeader {} b.name
  assignments ++ b.body.flatMap (pairAssignments getenv state)

variable {getenv}

theorem snd_parseHeader (state : IniState) (name : Bytes) : (parseHeader state name).2 = (parseHeader {} name).2 := by
  unfold parseHeader
  split
  . rfl
  . split <;> rfl

/--
A header overwrites all that matters for the lines below it.
-/
theorem parsePair_parseHeader (state : IniState) (name : Bytes)
    : parsePair (parseHeader state name).1 = parsePair (parseHeader {} name).1 := by
  funext key value
  unfold parseHeader
  split
  . rfl
  . split <;> rfl

section observation

variable (getenv) {β : Type} {f : Assignment → List β} (hf : ∀ message, f (.error message) = [])

include hf

/--
A line other than a header adds no more to the state than its number.
-/
theorem parseLine_of_not_header {line : Bytes} (hline : ∀ name, IniLine.read line ≠ .header name) (state : IniState)
    : (parseLine getenv state line).1 = state.next
        ∧ (parseLine getenv state line).2.flatMap f = (pairAssignments getenv state line).flatMap f := by
  rw [parseLine_eq, pairAssignments]
  generalize IniLine.read line = kind at hline
  cases kind with
  | blank => exact ⟨rfl, rfl⟩
  | header name => exact absurd rfl (hline name)
  | pair key value => exact ⟨rfl, rfl⟩
  | malformed text => exact ⟨rfl, by simp [hf]⟩

theorem parseLines_body {body : List Bytes} (hbody : ∀ line ∈ body, ∀ name, IniLine.read line ≠ .header name)
    {state state' : IniState} (hstate : parsePair state = parsePair state') (rest : List Bytes)
    : ∃ state'', (parseLines getenv state (body ++ rest)).flatMap f
        = (body.flatMap (pairAssignments getenv state')).flatMap f ++ (parseLines getenv state'' rest).flatMap f := by
  induction body generalizing state with
  | nil => exact ⟨state, rfl⟩
  | cons line body ih =>
    obtain ⟨hnext, hassignments⟩ := parseLine_of_not_header getenv hf (hbody line List.mem_cons_self) state
    have hpair : pairAssignments getenv state line = pairAssignments getenv state' line := by
      unfold pairAssignments
      rw [hstate]
    have hkeep : parsePair state.next = parsePair state' := hstate
    obtain ⟨state'', hrest⟩ := ih (fun line hline => hbody line (List.mem_cons_of_mem _ hline)) hkeep
    refine ⟨state'', ?_⟩
    rw [List.cons_append, parseLines]
    simp only [List.flatMap_append, List.flatMap_cons]
    rw [hnext, hassignments, hrest, hpair, List.append_assoc]

theorem parseLines_blocks (blocks : List IniBlock) (state : IniState)
    : (parseLines getenv state (blocks.flatMap IniBlock.lines)).flatMap f
      = blocks.flatMap fun b => (b.assignments getenv).flatMap f := by
  induction blocks generalizing state with
  | nil => rfl
  | cons b blocks ih =>
    have hheader : parseLine getenv state b.header = parseHeader state.next b.name := by
      rw [parseLine_eq, b.read_header]
    obtain ⟨state', hbody⟩ := parseLines_body getenv hf b.read_body (parsePair_parseHeader state.next b.name)
      (blocks.flatMap IniBlock.lines)
    rw [List.flatMap_cons, List.flatMap_cons, IniBlock.lines, List.cons_append, parseLines, hheader]
    simp only [List.flatMap_append]
    rw [hbody, ih, snd_parseHeader, IniBlock.assignments]
    simp only [List.flatMap_append, List.append_assoc]

end observation

theorem isUnique_eq_true_iff {name : Bytes}
    : isUnique name = true ↔ name = bytes "global" ∨ ∃ moduleName, name = bytes "module:" ++ moduleName := by
  rw [isUnique, Bool.or_eq_true, decide_eq_true_eq, Bytes.startsWith_iff]
  refine or_congr_right ?_
  constructor
  . rintro ⟨moduleName, hname⟩
    exact ⟨moduleName, hname.symm⟩
  . rintro ⟨moduleName, rfl⟩
    exact List.prefix_append _ _

theorem parseHeader_of_not_isUnique {name : Bytes} (h : isUnique name = false)
    : parseHeader {} name = ({ currentSection := name }, []) := by
  simp only [isUnique, Bool.or_eq_false_iff, decide_eq_false_iff_not] at h
  rw [parseHeader, if_neg h.1, h.2]
  rfl

theorem parsePair_of_not_isUnique {name : Bytes} (hne : name ≠ []) (h : isUnique name = false) (key value : Bytes)
    : parsePair { currentSection := name } key value = [] := by
  simp only [isUnique, Bool.or_eq_false_iff, decide_eq_false_iff_not] at h
  simp [parsePair, h.1, hne]

theorem parseHeader_global
    : parseHeader {} (bytes "global") = ({ currentSection := bytes "global" }, []) :=
  if_pos rfl

/--
A line of the global section only sets values.
-/
theorem flatMap_parseGlobalConfig {β : Type} {f : Assignment → List β} (hf : ∀ message, f (.error message) = [])
    (hset : ∀ s v, f (.set s v) = []) (key value : Bytes)
    : (parseGlobalConfig key value).flatMap f = [] := by
  have herror : ∀ message, [Assignment.error message].flatMap f = [] := fun message => by simp [hf]
  have hone : ∀ s v, [Assignment.set s v].flatMap f = [] := fun s v => by simp [hset]
  have htwo : ∀ s v s' v', [Assignment.set s v, .set s' v'].flatMap f = [] := fun s v s' v' => by simp [hset]
  unfold parseGlobalConfig
  repeat' apply apply_ite_eq
  case hb.ha | hb.hb.ha =>
    cases stoul value with
    | none => exact herror _
    | some n => exact hone _ _
  all_goals first | exact hone _ _ | exact htwo _ _ _ _ | rfl

theorem parsePair_module (name key value : Bytes)
    : parsePair { currentSection := bytes "module", inModule := true, currentModule := name } key value
      = parseModuleConfig name key value := by
  have hsection : (bytes "module" = bytes "global" || (bytes "module").isEmpty) = false := by decide
  rw [parsePair, hsection, if_neg Bool.false_ne_true]
  exact if_pos rfl

/--
What is not about the owner of a section is not in any other section.
-/
theorem flatMap_assignments_eq_nil {β : Type} {f : Assignment → List β} (hf : ∀ message, f (.error message) = [])
    {owner : Bytes} (hglobal : bytes "global" ≠ owner → ∀ s v, f (.set s v) = [])
    (hmodule : ∀ name, bytes "module:" ++ name ≠ owner → ∀ a, f (.inModule name a) = [])
    {b : IniBlock} (hb : b.name ≠ owner)
    : (b.assignments getenv).flatMap f = [] := by
  cases hunique : isUnique b.name with
  | false =>
    rw [IniBlock.assignments, parseHeader_of_not_isUnique hunique]
    simp only [List.nil_append, List.flatMap_assoc, List.flatMap_eq_nil_iff]
    intro line _
    unfold pairAssignments
    cases IniLine.read line <;> simp [parsePair_of_not_isUnique b.name_ne_nil hunique]
  | true =>
    rcases isUnique_eq_true_iff.mp hunique with hname | ⟨moduleName, hname⟩
    . rw [hname] at hb
      rw [IniBlock.assignments, hname, parseHeader_global]
      simp only [List.nil_append, List.flatMap_assoc]
      rw [List.flatMap_eq_nil_iff]
      intro line _
      unfold pairAssignments
      cases IniLine.read line with
      | blank | header | malformed => rfl
      | pair key value => exact flatMap_parseGlobalConfig hf (hglobal hb) _ _
    -- the header makes an assignment of its own, the module has to exist
    . rw [hname] at hb
      have hmodule := hmodule moduleName hb
      rw [IniBlock.assignments, hname, parseHeader_module]
      simp only [List.flatMap_append, List.flatMap_assoc]
      refine List.append_eq_nil_iff.mpr ⟨by simp [hmodule], ?_⟩
      rw [List.flatMap_eq_nil_iff]
      intro line _
      unfold pairAssignments
      cases IniLine.read line with
      | blank | header | malformed => rfl
      | pair key value =>
        simp only [parsePair_module]
        simp [parseModuleConfig, hmodule]

end blocks

/--
No two of the sections have the same name, if one of them is the global section or a module.
-/
def Exclusive (blocks : List IniBlock) : Prop :=
  blocks.Pairwise fun b b' => b.name = b'.name → isUnique b.name = false

section order

variable (getenv : Bytes → Option Bytes) {blocks blocks' : List IniBlock} (hperm : blocks.Perm blocks')
  (hexclusive : Exclusive blocks)

include hperm hexclusive

/--
What is about the owner of a section is the same in any order.
-/
theorem parseLines_perm {β : Type} {f : Assignment → List β} (hf : ∀ message, f (.error message) = [])
    {owner : Bytes} (howner : isUnique owner = true)
    (hglobal : bytes "global" ≠ owner → ∀ s v, f (.set s v) = [])
    (hmodule : ∀ name, bytes "module:" ++ name ≠ owner → ∀ a, f (.inModule name a) = [])
    : (parseLines getenv {} (blocks.flatMap IniBlock.lines)).flatMap f
      = (parseLines getenv {} (blocks'.flatMap IniBlock.lines)).flatMap f := by
  rw [parseLines_blocks getenv hf, parseLines_blocks getenv hf]
  apply Cell.flatMap_eq_of_perm hperm
  refine hexclusive.imp fun {b b'} hnames => ?_
  by_cases hb : b.name = owner
  . refine .inr (flatMap_assignments_eq_nil hf hglobal hmodule ?_)
    intro hb'
    have hfalse := hnames (hb.trans hb'.symm)
    rw [hb, howner] at hfalse
    contradiction
  . exact .inl (flatMap_assignments_eq_nil hf hglobal hmodule hb)

theorem same_assign_perm (c : Configuration)
    : (c.assign (parseLines getenv {} (blocks.flatMap IniBlock.lines))).Same
        (c.assign (parseLines getenv {} (blocks'.flatMap IniBlock.lines))) := by
  have hglobal : isUnique (bytes "global") = true := by decide
  have hmodule : ∀ name, isUnique (bytes "module:" ++ name) = true :=
    fun name => isUnique_eq_true_iff.mpr (.inr ⟨name, rfl⟩)
  apply same_of_get
  . rw [rateLimit_assign, rateLimit_assign]
  . intro s
    have hset := parseLines_perm getenv hperm hexclusive (f := fun a => (a.value? s).toList)
      (fun _ => rfl) hglobal (fun hne => absurd rfl hne) (fun _ _ _ => rfl)
    rw [← List.filterMap_eq_flatMap_toList, ← List.filterMap_eq_flatMap_toList] at hset
    rw [get_assign, get_assign, Cell.overwrite_eq, Cell.overwrite_eq, Cell.last_eq_getLast?, Cell.last_eq_getLast?, hset]
  . rw [allowedUsers_assign, allowedUsers_assign, Cell.extend_eq, Cell.extend_eq]
    rw [parseLines_perm getenv hperm hexclusive (fun _ => rfl) hglobal (fun _ _ _ => rfl) (fun _ _ _ => rfl)]
  . rw [deniedUsers_assign, deniedUsers_assign, Cell.extend_eq, Cell.extend_eq]
    rw [parseLines_perm getenv hperm hexclusive (fun _ => rfl) hglobal (fun _ _ _ => rfl) (fun _ _ _ => rfl)]
  . intro name
    have hinside := parseLines_perm getenv hperm hexclusive (f := fun a => (a.inside name).toList)
      (fun _ => rfl) (hmodule name) (fun _ _ _ => rfl) fun name' hne a => by
        have hother : name ≠ name' := fun heq => hne (by rw [heq])
        simp [Assignment.inside, hother]
    rw [← List.filterMap_eq_flatMap_toList, ← List.filterMap_eq_flatMap_toList] at hinside
    rw [lookup_modules_assign, lookup_modules_assign, hinside]

end order

/--
The same settings, whatever else there is to the two, have the same outcome.
-/
theorem SameSettings.finishLoad {c c' : Configuration} (h : c.SameSettings c') (machine : Machine)
    : (c.finishLoad machine).1 = (c'.finishLoad machine).1 := by
  have hupdate : (c.updateLastModified machine).SameSettings (c'.updateLastModified machine) :=
    ((same_updateLastModified machine c).toSameSettings.trans h).trans
      (same_updateLastModified machine c').toSameSettings.symm
  have hvalidate := hupdate.validate machine.fs
  unfold Configuration.finishLoad
  generalize (c.updateLastModified machine).validate machine.fs = result at hvalidate ⊢
  generalize (c'.updateLastModified machine).validate machine.fs = result' at hvalidate ⊢
  obtain ⟨valid, validated⟩ := result
  obtain ⟨valid', validated'⟩ := result'
  obtain rfl : valid = valid' := hvalidate
  rcases valid with e | _ | _ <;> rfl

/--
Files with the same sections in another order have the same effect.
-/
theorem loadFromFile_perm {machine : Machine} {filename filename' content content' : Bytes}
    {blocks blocks' : List IniBlock} (h : IsIniFile machine filename content)
    (h' : IsIniFile machine filename' content')
    (hlines : Bytes.getlines newline content = blocks.flatMap IniBlock.lines)
    (hlines' : Bytes.getlines newline content' = blocks'.flatMap IniBlock.lines)
    (hperm : blocks.Perm blocks') (hexclusive : Exclusive blocks) (c : Configuration)
    : (c.loadFromFile machine filename).1 = (c.loadFromFile machine filename').1
        ∧ (c.loadFromFile machine filename).2.Same (c.loadFromFile machine filename').2 := by
  have hassign := same_assign_perm machine.getenv hperm hexclusive
  constructor
  . rw [h.loadFromFile_eq, h'.loadFromFile_eq, loadFromIni, loadFromIni, parseIni, parseIni, hlines, hlines']
    apply SameSettings.finishLoad
    have hpath : ({ c.clearErrors with configFilePath := filename } : Configuration).Same
        { c.clearErrors with configFilePath := filename' } :=
      ⟨⟨rfl, rfl, rfl, rfl, rfl, rfl⟩, rfl, rfl, rfl, rfl, rfl, rfl⟩
    exact ((hpath.assign _).trans (hassign _)).toSameSettings
  . have hsame := (h.loads c).same
    have hsame' := (h'.loads c).same
    simp only [parseIni, hlines, hlines'] at hsame hsame'
    exact (hsame.trans (hassign c)).trans hsame'.symm

section single

def globalBlock : IniBlock where
  header := bytes "[global]"
  name := bytes "global"
  body := [bytes "port=8730"]
  read_header := rfl
  name_ne_nil := by decide
  read_body := by
    intro line hline name
    obtain rfl : line = bytes "port=8730" := by simpa using hline
    nofun

def moduleBlock : IniBlock where
  header := bytes "[module:a]"
  name := bytes "module:a"
  body := [bytes "path=/f", bytes "; a comment", bytes "no pair"]
  read_header := rfl
  name_ne_nil := by decide
  read_body := by
    intro line hline name
    simp only [List.mem_cons, List.not_mem_nil, or_false] at hline
    rcases hline with rfl | rfl | rfl <;> nofun

/--
A machine with the two sections in either order.
-/
def orderMachine : Machine where
  fs := {
    entries := [
      (
        ⟨bytes "m", isName_m⟩,
        .file (bytes "[global]\nport=8730\n[module:a]\npath=/f\n; a comment\nno pair\n")
      ),
      (
        ⟨bytes "n", by decide⟩,
        .file (bytes "[module:a]\npath=/f\n; a comment\nno pair\n[global]\nport=8730")
      )
    ]
  }
  json := .unavailable
  yaml := .unavailable

theorem loadFromFile_perm_single
    : (({} : Configuration).loadFromFile orderMachine (bytes "/m")).1
          = (({} : Configuration).loadFromFile orderMachine (bytes "/n")).1
        ∧ (({} : Configuration).loadFromFile orderMachine (bytes "/m")).2.Same
            (({} : Configuration).loadFromFile orderMachine (bytes "/n")).2 :=
  have h : IsIniFile orderMachine (bytes "/m")
      (bytes "[global]\nport=8730\n[module:a]\npath=/f\n; a comment\nno pair\n") :=
    ⟨by decide, by decide, by decide⟩
  have h' : IsIniFile orderMachine (bytes "/n")
      (bytes "[module:a]\npath=/f\n; a comment\nno pair\n[global]\nport=8730") :=
    ⟨by decide, by decide, by decide⟩
  have hperm : [globalBlock, moduleBlock].Perm [moduleBlock, globalBlock] := .swap _ _ _
  have hne : bytes "global" ≠ bytes "module:a" := by decide
  have hexclusive : Exclusive [globalBlock, moduleBlock] := by
    simp [Exclusive, globalBlock, moduleBlock, hne]
  loadFromFile_perm h h' (by decide) (by decide) hperm hexclusive {}

end single

end Configuration
end SimpleRsyncd
