import SimpleRsyncd.Config.IniLine

/-!
This module determines what the INI loader makes of a text that consists of section headers and of
pairs with a value in quotes.
-/

namespace SimpleRsyncd
namespace Configuration

/--
`key = "value"`.
-/
def pairLine (e : String × Bytes) : Bytes :=
  bytes e.1 ++ bytes " = \"" ++ e.2 ++ bytes "\""

/--
`[module:name]`.
-/
def moduleLine (name : Bytes) : Bytes :=
  bytes "[module:" ++ name ++ bytes "]"

/--
A key that is read as it is written.
-/
def IsPlain (key : String) : Prop :=
  bytes key ≠ [] ∧ ∀ c ∈ bytes key, isNameChar c = true

instance (key : String) : Decidable (IsPlain key) :=
  inferInstanceAs (Decidable (_ ∧ _))

variable {getenv : Bytes → Option Bytes}

theorem ne_of_isNameChar {c : UInt8} (h : isNameChar c = true)
    : ∀ c' ∈ [newline, 32, 9, 35, 59, 61, 91], c ≠ c' := by
  rintro c' hc' rfl
  simp only [List.mem_cons, List.not_mem_nil, or_false] at hc'
  rcases hc' with rfl | rfl | rfl | rfl | rfl | rfl | rfl <;> exact absurd h (by decide)

theorem not_isblank_of_isNameChar {c : UInt8} (h : isNameChar c = true) : Bytes.isblank c = false := by
  have hspace := ne_of_isNameChar h 32 (by simp)
  have htab := ne_of_isNameChar h 9 (by simp)
  simp [Bytes.isblank, hspace, htab]

theorem trim_eq_self {s : Bytes} (hhead : ∀ c ∈ s.head?, Bytes.isblank c = false)
    (hlast : ∀ c ∈ s.getLast?, Bytes.isblank c = false)
    : trim s = s := by
  rw [trim, Bytes.trimLeft_eq_self hhead, Bytes.trimRight_eq_self hlast]

theorem unquote_quoted (value : Bytes) : unquote (34 :: (value ++ [34])) = value := by
  simp [unquote, List.getLast?_cons]

theorem read_pairLine {key : String} (hkey : IsPlain key) (value : Bytes)
    : IniLine.read (pairLine (key, value)) = .pair (bytes key) value := by
  obtain ⟨hne, hname⟩ := hkey
  have hline : pairLine (key, value) = (bytes key ++ [32]) ++ 61 :: (32 :: 34 :: (value ++ [34])) := by
    simp [pairLine, show bytes " = \"" = [32, 61, 32, 34] from rfl, show bytes "\"" = [34] from rfl]
  have hequals : 61 ∉ bytes key := fun hmem => ne_of_isNameChar (hname 61 hmem) 61 (by simp) rfl
  have hlastKey : ∀ c ∈ (bytes key).getLast?, Bytes.isblank c = false :=
    fun c hc => not_isblank_of_isNameChar (hname c (List.mem_of_getLast? hc))
  generalize bytes key = key' at hne hname hline hequals hlastKey ⊢
  cases key' with
  | nil => contradiction
  | cons c rest =>
    have hblank := not_isblank_of_isNameChar (hname c List.mem_cons_self)
    have hne := ne_of_isNameChar (hname c List.mem_cons_self)
    have htrim : trim (pairLine (key, value)) = pairLine (key, value) := by
      apply trim_eq_self
      . simpa [hline] using hblank
      . simp [hline, List.getLast?_cons, List.getLast?_append, Bytes.isblank]
    have hcut : Bytes.cut 61 (pairLine (key, value)) = some (c :: rest ++ [32], 32 :: 34 :: (value ++ [34])) := by
      rw [hline]
      apply Bytes.cut_append
      simp_all
    -- the blank in front of the equals sign belongs to neither the key nor the value
    have htrimKey : trim (c :: rest ++ [32]) = c :: rest := by
      rw [trim, Bytes.trimLeft_eq_self (by simpa using hblank), Bytes.trimRight, List.rdropWhile_concat_pos]
      . exact Bytes.trimRight_eq_self hlastKey
      . decide
    have htrimValue : trim (32 :: 34 :: (value ++ [34])) = 34 :: (value ++ [34]) := by
      rw [trim, Bytes.trimLeft, List.dropWhile_cons_of_pos (by decide)]
      exact trim_eq_self (by simp [Bytes.isblank]) (by simp [List.getLast?_cons, Bytes.isblank])
    have hhead : (pairLine (key, value)).head? = some c := by simp [hline]
    have hnonempty : (pairLine (key, value)).isEmpty = false := by simp [hline]
    simp only [IniLine.read, htrim, hcut, htrimKey, htrimValue, unquote_quoted, hhead, hnonempty]
    simp [hne]

theorem parseLine_pair {key : String} (hkey : IsPlain key) (state : IniState) (value : Bytes)
    : parseLine getenv state (pairLine (key, value))
      = (
        { state with lineNumber := state.lineNumber + 1 },
        parsePair state (bytes key) (substituteEnvironmentVariables getenv value)
      ) := by
  rw [parseLine_eq, read_pairLine hkey]
  rfl

theorem newline_notMem_pairLine {pair : String × Bytes} (hkey : IsPlain pair.1) (hvalue : newline ∉ pair.2)
    : newline ∉ pairLine pair := by
  have hname : newline ∉ bytes pair.1 := fun hmem => ne_of_isNameChar (hkey.2 _ hmem) newline (by simp) rfl
  have hquotes : newline ∉ bytes " = \"" ∧ newline ∉ bytes "\"" := by decide
  simp [pairLine, hname, hvalue, hquotes]

theorem newline_notMem_moduleLine {name : Bytes} (hname : newline ∉ name) : newline ∉ moduleLine name := by
  have hbrackets : newline ∉ bytes "[module:" ∧ newline ∉ bytes "]" := by decide
  simp [moduleLine, hname, hbrackets]

theorem parseHeader_module (state : IniState) (name : Bytes)
    : parseHeader state (bytes "module:" ++ name)
      = (
        { state with currentModule := name, currentSection := bytes "module", inModule := true },
        [.inModule name .declare]
      ) := by
  have hne : bytes "module:" ++ name ≠ bytes "global" := by
    intro heq
    have hhead := congrArg List.head? heq
    simp [bytes] at hhead
  have hdrop : (bytes "module:" ++ name).drop 7 = name := List.drop_left' rfl
  rw [parseHeader, if_neg hne, if_pos (by simp), hdrop]

theorem read_moduleLine {name : Bytes} (hname : ∀ c ∈ name.getLast?, Bytes.isblank c = false)
    : IniLine.read (moduleLine name) = .header (bytes "module:" ++ name) := by
  have hline : moduleLine name = 91 :: (bytes "module:" ++ name ++ [93]) := by
    simp [moduleLine, show bytes "[module:" = 91 :: bytes "module:" from rfl, show bytes "]" = [93] from rfl]
  have htrim : trim (moduleLine name) = moduleLine name :=
    trim_eq_self (by simp [hline, Bytes.isblank])
      (by simp [hline, List.getLast?_cons, List.getLast?_append, Bytes.isblank])
  have hheader : ((moduleLine name).drop 1).take ((moduleLine name).length - 2) = bytes "module:" ++ name := by
    rw [hline, List.drop_one, List.tail_cons, List.length_cons, List.length_append]
    exact List.take_left
  have hlast : ∀ c ∈ (bytes "module:" ++ name).getLast?, Bytes.isblank c = false := by
    cases hlast : name.getLast? with
    | none =>
      obtain rfl : name = [] := by simpa using hlast
      decide +kernel
    | some c =>
      rw [List.getLast?_append, hlast]
      simpa [hlast] using hname
  have htrimHeader : trim (bytes "module:" ++ name) = bytes "module:" ++ name :=
    trim_eq_self (by simp [show bytes "module:" = 109 :: bytes "odule:" from rfl, Bytes.isblank]) hlast
  simp only [IniLine.read, htrim, hheader, htrimHeader]
  simp [hline, List.getLast?_cons, List.getLast?_append]

theorem parseLine_module {name : Bytes} (hname : ∀ c ∈ name.getLast?, Bytes.isblank c = false) (state : IniState)
    : parseLine getenv state (moduleLine name)
      = (
        {
          state with
          lineNumber := state.lineNumber + 1
          currentModule := name
          currentSection := bytes "module"
          inModule := true
        },
        [.inModule name .declare]
      ) := by
  rw [parseLine_eq, read_moduleLine hname]
  exact parseHeader_module state.next name

theorem parseLines_pairs {pairs : List (String × Bytes)} (hkeys : ∀ e ∈ pairs, IsPlain e.1) (state : IniState)
    (lines : List Bytes)
    : parseLines getenv state (pairs.map pairLine ++ lines)
      = pairs.flatMap (fun e => parsePair state (bytes e.1) (substituteEnvironmentVariables getenv e.2))
        ++ parseLines getenv { state with lineNumber := state.lineNumber + pairs.length } lines := by
  induction pairs generalizing state with
  | nil => rfl
  | cons e pairs ih =>
    rw [List.map_cons, List.cons_append, parseLines, parseLine_pair (hkeys e List.mem_cons_self)]
    simp only
    rw [ih fun e he => hkeys e (List.mem_cons_of_mem _ he)]
    simp only [List.flatMap_cons, List.append_assoc, List.length_cons, Nat.add_assoc, Nat.add_comm 1]
    rfl

/--
A section for each of these modules.
-/
def moduleSections (sections : List (Bytes × List (String × Bytes))) : List Bytes :=
  sections.flatMap fun e => moduleLine e.1 :: e.2.map pairLine

theorem parseLines_sections {sections : List (Bytes × List (String × Bytes))}
    (hnames : ∀ e ∈ sections, ∀ c ∈ e.1.getLast?, Bytes.isblank c = false)
    (hkeys : ∀ e ∈ sections, ∀ pair ∈ e.2, IsPlain pair.1) (state : IniState)
    : parseLines getenv state (moduleSections sections)
      = sections.flatMap fun e => .inModule e.1 .declare :: e.2.flatMap fun pair =>
          parseModuleConfig e.1 (bytes pair.1) (substituteEnvironmentVariables getenv pair.2) := by
  induction sections generalizing state with
  | nil => rfl
  | cons e sections ih =>
    simp only [moduleSections, List.flatMap_cons, List.cons_append]
    rw [parseLines, parseLine_module (hnames e List.mem_cons_self)]
    simp only
    rw [parseLines_pairs (hkeys e List.mem_cons_self)]
    have ih := ih (fun e he => hnames e (List.mem_cons_of_mem _ he)) (fun e he => hkeys e (List.mem_cons_of_mem _ he))
    rw [moduleSections] at ih
    rw [ih]
    rfl

/--
The text with these pairs in the section `global`, and a section for each of these modules.
-/
def iniText (globals : List (String × Bytes)) (sections : List (Bytes × List (String × Bytes))) : Bytes :=
  (bytes "[global]" :: (globals.map pairLine ++ moduleSections sections)).flatMap (· ++ [newline])

/--
The assignments that the text amounts to.
-/
theorem parseIni_iniText {globals : List (String × Bytes)} {sections : List (Bytes × List (String × Bytes))}
    (hglobals : ∀ pair ∈ globals, IsPlain pair.1 ∧ newline ∉ pair.2)
    (hnames : ∀ e ∈ sections, (∀ c ∈ e.1.getLast?, Bytes.isblank c = false) ∧ newline ∉ e.1)
    (hsections : ∀ e ∈ sections, ∀ pair ∈ e.2, IsPlain pair.1 ∧ newline ∉ pair.2)
    : parseIni getenv (iniText globals sections)
      = (globals.flatMap fun pair =>
          parseGlobalConfig (bytes pair.1) (substituteEnvironmentVariables getenv pair.2))
        ++ sections.flatMap fun e => .inModule e.1 .declare :: e.2.flatMap fun pair =>
          parseModuleConfig e.1 (bytes pair.1) (substituteEnvironmentVariables getenv pair.2) := by
  have hlines : ∀ line ∈ bytes "[global]" :: (globals.map pairLine ++ moduleSections sections), newline ∉ line := by
    simp only [moduleSections, List.mem_cons, List.mem_append, List.mem_map, List.mem_flatMap]
    rintro line (rfl | ⟨pair, hpair, rfl⟩ | ⟨e, he, rfl | ⟨pair, hpair, rfl⟩⟩)
    . decide
    . exact newline_notMem_pairLine (hglobals pair hpair).1 (hglobals pair hpair).2
    . exact newline_notMem_moduleLine (hnames e he).2
    . exact newline_notMem_pairLine (hsections e he pair hpair).1 (hsections e he pair hpair).2
  rw [parseIni, iniText, Bytes.getlines_flatMap hlines, parseLines]
  have hglobal : parseLine getenv {} (bytes "[global]")
      = ({ currentSection := bytes "global", lineNumber := 1 }, []) := rfl
  rw [hglobal]
  simp only [List.nil_append]
  rw [parseLines_pairs fun pair hpair => (hglobals pair hpair).1, parseLines_sections fun e he => (hnames e he).1]
  . rfl
  . exact fun e he pair hpair => (hsections e he pair hpair).1

end Configuration
end SimpleRsyncd
