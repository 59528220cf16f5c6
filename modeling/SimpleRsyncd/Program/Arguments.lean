import SimpleRsyncd.Bytes.Basic

/-!
This module contains the command line of the program. It is read from left to right, a word that is no
option is the command, and of several values for the same thing the last one counts.
-/

namespace SimpleRsyncd
namespace Program

/--
What the command line can give a value for by an option with an argument.
-/
inductive Field where
  | configFile
  | pidFile
  | user
  | group
  deriving DecidableEq

namespace Field

def names : Field → List Bytes
  | .configFile => [bytes "--config", bytes "-c"]
  | .pidFile => [bytes "--pid-file"]
  | .user => [bytes "--user"]
  | .group => [bytes "--group"]

/--
The error if the option is the last word.
-/
def missing : Field → Bytes
  | .configFile => bytes "Error: --config requires a file path"
  | .pidFile => bytes "Error: --pid-file requires a file path"
  | .user => bytes "Error: --user requires a username"
  | .group => bytes "Error: --group requires a group name"

end Field

/--
What `parseArguments` fills in.
-/
structure Arguments where
  configFile : Bytes := []
  command : Bytes := []
  daemonMode : Bool := false
  verbose : Bool := false
  pidFile : Bytes := []
  user : Bytes := []
  group : Bytes := []
  deriving DecidableEq

def Arguments.set (a : Arguments) : Field → Bytes → Arguments
  | .configFile, text => { a with configFile := text }
  | .pidFile, text => { a with pidFile := text }
  | .user, text => { a with user := text }
  | .group, text => { a with group := text }

def Arguments.get (a : Arguments) : Field → Bytes
  | .configFile => a.configFile
  | .pidFile => a.pidFile
  | .user => a.user
  | .group => a.group

/--
Why `parseArguments` returns false.
-/
inductive Stop where
  | help
  | version
  | missing (field : Field)
  | unknown (arg : Bytes)
  deriving DecidableEq

/--
What a word of the command line is taken for.
-/
inductive Word where
  | help
  | version
  | value (field : Field)
  | verbose
  | daemon
  | foreground
  | command
  | unknown
  deriving DecidableEq

namespace Word

def helpNames : List Bytes := [bytes "--help", bytes "-h"]

def versionNames : List Bytes := [bytes "--version", bytes "-v"]

def verboseNames : List Bytes := [bytes "--verbose", bytes "-V"]

def daemonNames : List Bytes := [bytes "--daemon", bytes "-d"]

def foregroundNames : List Bytes := [bytes "--foreground", bytes "-f"]

def dash : UInt8 := 45

/--
An empty word begins with the zero byte at its end, so it is a command.
-/
def of (arg : Bytes) : Word :=
  if helpNames.contains arg then .help
  else if versionNames.contains arg then .version
  else if Field.configFile.names.contains arg then .value .configFile
  else if verboseNames.contains arg then .verbose
  else if daemonNames.contains arg then .daemon
  else if foregroundNames.contains arg then .foreground
  else if Field.pidFile.names.contains arg then .value .pidFile
  else if Field.user.names.contains arg then .value .user
  else if Field.group.names.contains arg then .value .group
  else if arg.head? ≠ some dash then .command
  else .unknown

/--
The names that stand for a word, `none` if it is recognised by its first byte.
-/
def names? : Word → Option (List Bytes)
  | .help => some helpNames
  | .version => some versionNames
  | .value field => some field.names
  | .verbose => some verboseNames
  | .daemon => some daemonNames
  | .foreground => some foregroundNames
  | .command | .unknown => none

def options : List Bytes :=
  helpNames ++ versionNames ++ verboseNames ++ daemonNames ++ foregroundNames
    ++ [Field.configFile, .pidFile, .user, .group].flatMap Field.names

end Word

/--
The loop over `argv`.
-/
def readArguments (a : Arguments) : List Bytes → Except Stop Arguments
  | [] => .ok a
  | arg :: rest =>
    match Word.of arg with
    | .help => .error .help
    | .version => .error .version
    | .value field =>
      match rest with
      | [] => .error (.missing field)
      | text :: rest => readArguments (a.set field text) rest
    | .verbose => readArguments { a with verbose := true } rest
    | .daemon => readArguments { a with daemonMode := true } rest
    | .foreground => readArguments { a with daemonMode := false } rest
    | .command => readArguments { a with command := arg } rest
    | .unknown => .error (.unknown arg)

/--
The first word is the name of the program.
-/
def parseArguments (argv : List Bytes) : Except Stop Arguments :=
  readArguments {} (argv.drop 1)

/--
What the words of a command line ask for, one after the other.
-/
inductive Item where
  | verbose
  | daemon
  | foreground
  | value (field : Field) (text : Bytes)
  | command (word : Bytes)
  deriving DecidableEq

/--
The ways to write an item.
-/
inductive Item.Written : Item → List Bytes → Prop where
  | verbose {arg : Bytes} (h : arg ∈ Word.verboseNames) : Written .verbose [arg]
  | daemon {arg : Bytes} (h : arg ∈ Word.daemonNames) : Written .daemon [arg]
  | foreground {arg : Bytes} (h : arg ∈ Word.foregroundNames) : Written .foreground [arg]
  | value {field : Field} {arg : Bytes} (h : arg ∈ field.names) (text : Bytes)
    : Written (.value field text) [arg, text]
  | command {word : Bytes} (h : word.head? ≠ some Word.dash) : Written (.command word) [word]

/--
A command line that consists of these items.
-/
inductive Reads : List Item → List Bytes → Prop where
  | nil : Reads [] []
  | cons {item : Item} {items : List Item} {args rest : List Bytes} (hitem : item.Written args)
    (hrest : Reads items rest)
    : Reads (item :: items) (args ++ rest)

/--
What ends the reading early.
-/
inductive Stop.At : Stop → List Bytes → Prop where
  | help {arg : Bytes} (h : arg ∈ Word.helpNames) (rest : List Bytes) : At .help (arg :: rest)
  | version {arg : Bytes} (h : arg ∈ Word.versionNames) (rest : List Bytes) : At .version (arg :: rest)
  | missing {field : Field} {arg : Bytes} (h : arg ∈ field.names) : At (.missing field) [arg]
  | unknown {arg : Bytes} (h : arg.head? = some Word.dash) (hnone : arg ∉ Word.options) (rest : List Bytes)
    : At (.unknown arg) (arg :: rest)

namespace Item

/--
The value that an item gives for a field.
-/
def value? (field : Field) : Item → Option Bytes
  | .value field' text => if field' = field then some text else none
  | _ => none

def command? : Item → Option Bytes
  | .command word => some word
  | _ => none

def daemonMode? : Item → Option Bool
  | .daemon => some true
  | .foreground => some false
  | _ => none

end Item

/--
The last value that some of the items give.
-/
def lastOf {α : Type} (value? : Item → Option α) (items : List Item) (default : α) : α :=
  (items.filterMap value?).getLast?.getD default

/--
What the items of a command line come to.
-/
def Arguments.ofItems (items : List Item) : Arguments where
  configFile := lastOf (Item.value? .configFile) items []
  command := lastOf Item.command? items []
  daemonMode := lastOf Item.daemonMode? items false
  verbose := .verbose ∈ items
  pidFile := lastOf (Item.value? .pidFile) items []
  user := lastOf (Item.value? .user) items []
  group := lastOf (Item.value? .group) items []

namespace Word

variable {arg : Bytes}

theorem of_of_mem {w : Word} {names : List Bytes} (hnames : w.names? = some names) (h : arg ∈ names)
    : Word.of arg = w := by
  have hall : ∀ w ∈ [help, version, value .configFile, value .pidFile, value .user, value .group, verbose, daemon,
      foreground], ∀ arg ∈ w.names?.getD [], Word.of arg = w := by decide +kernel
  refine hall w ?_ arg (by simpa [hnames] using h)
  cases w with
  | value field => cases field <;> decide
  | _ => first | decide | contradiction

theorem mem_options_iff : arg ∈ options ↔ ∃ w names, names? w = some names ∧ arg ∈ names := by
  constructor
  . intro h
    simp only [options, List.mem_append, List.mem_flatMap] at h
    rcases h with ((((h | h) | h) | h) | h) | ⟨field, -, h⟩
    . exact ⟨help, _, rfl, h⟩
    . exact ⟨version, _, rfl, h⟩
    . exact ⟨verbose, _, rfl, h⟩
    . exact ⟨daemon, _, rfl, h⟩
    . exact ⟨foreground, _, rfl, h⟩
    . exact ⟨value field, _, rfl, h⟩
  . rintro ⟨w, names, hnames, h⟩
    cases w with
    | value field =>
      obtain rfl := Option.some.inj hnames
      simp only [options, List.mem_append, List.mem_flatMap]
      refine .inr ⟨field, ?_, h⟩
      cases field <;> simp
    | command | unknown => contradiction
    | _ =>
      obtain rfl := Option.some.inj hnames
      simp [options, h]

theorem head_of_mem_options (h : arg ∈ options) : arg.head? = some dash := by
  have hall : ∀ arg ∈ options, arg.head? = some dash := by decide +kernel
  exact hall arg h

theorem of_of_notMem (h : arg ∉ options) : Word.of arg = if arg.head? ≠ some dash then .command else .unknown := by
  have hnone : ∀ {w : Word} {names : List Bytes}, w.names? = some names → arg ∉ names := fun hnames hmem =>
    h (mem_options_iff.mpr ⟨_, _, hnames, hmem⟩)
  simp only [of, List.contains_iff_mem, hnone (w := help) rfl, hnone (w := version) rfl,
    hnone (w := value .configFile) rfl, hnone (w := verbose) rfl, hnone (w := daemon) rfl, hnone (w := foreground) rfl,
    hnone (w := value .pidFile) rfl, hnone (w := value .user) rfl, hnone (w := value .group) rfl, if_false]

end Word

/--
What an item changes.
-/
def Arguments.apply (a : Arguments) : Item → Arguments
  | .verbose => { a with verbose := true }
  | .daemon => { a with daemonMode := true }
  | .foreground => { a with daemonMode := false }
  | .value field text => a.set field text
  | .command word => { a with command := word }

variable {a : Arguments} {item : Item} {items : List Item} {args rest argv : List Bytes} {stop : Stop}

theorem readArguments_written (h : item.Written args)
    : readArguments a (args ++ rest) = readArguments (a.apply item) rest := by
  cases h with
  | verbose h => simp [readArguments, Word.of_of_mem (w := .verbose) rfl h, Arguments.apply]
  | daemon h => simp [readArguments, Word.of_of_mem (w := .daemon) rfl h, Arguments.apply]
  | foreground h => simp [readArguments, Word.of_of_mem (w := .foreground) rfl h, Arguments.apply]
  | value h text => simp [readArguments, Word.of_of_mem (w := .value _) rfl h, Arguments.apply]
  | command h =>
    have hnone := mt Word.head_of_mem_options h
    simp [readArguments, Word.of_of_notMem hnone, h, Arguments.apply]

theorem readArguments_reads (h : Reads items args)
    : readArguments a (args ++ rest) = readArguments (items.foldl Arguments.apply a) rest := by
  induction h generalizing a with
  | nil => rfl
  | cons hitem _ ih => rw [List.append_assoc, readArguments_written hitem, ih, List.foldl_cons]

theorem readArguments_stop (h : stop.At argv) : readArguments a argv = .error stop := by
  cases h with
  | help h => simp [readArguments, Word.of_of_mem (w := .help) rfl h]
  | version h => simp [readArguments, Word.of_of_mem (w := .version) rfl h]
  | missing h => simp [readArguments, Word.of_of_mem (w := .value _) rfl h]
  | unknown h hnone => simp [readArguments, Word.of_of_notMem hnone, h]

/--
A command line that does not end begins with an item, or its first word ends the reading.
-/
theorem written_or_stops (argv : List Bytes)
    : argv = []
        ∨ (∃ item : Item, ∃ args rest, item.Written args ∧ args ≠ [] ∧ argv = args ++ rest)
        ∨ ∃ stop : Stop, stop.At argv := by
  cases argv with
  | nil => exact .inl rfl
  | cons arg rest =>
    refine .inr ?_
    by_cases hoption : arg ∈ Word.options
    . obtain ⟨w, names, hnames, hmem⟩ := Word.mem_options_iff.mp hoption
      cases w with
      | command | unknown => contradiction
      | value field =>
        obtain rfl := Option.some.inj hnames
        cases rest with
        | nil => exact .inr ⟨_, .missing hmem⟩
        | cons text rest => exact .inl ⟨_, _, rest, .value hmem text, by simp, rfl⟩
      | help =>
        obtain rfl := Option.some.inj hnames
        exact .inr ⟨_, .help hmem rest⟩
      | version =>
        obtain rfl := Option.some.inj hnames
        exact .inr ⟨_, .version hmem rest⟩
      | verbose =>
        obtain rfl := Option.some.inj hnames
        exact .inl ⟨_, _, rest, .verbose hmem, by simp, rfl⟩
      | daemon =>
        obtain rfl := Option.some.inj hnames
        exact .inl ⟨_, _, rest, .daemon hmem, by simp, rfl⟩
      | foreground =>
        obtain rfl := Option.some.inj hnames
        exact .inl ⟨_, _, rest, .foreground hmem, by simp, rfl⟩
    . by_cases hdash : arg.head? = some Word.dash
      . exact .inr ⟨_, .unknown hdash hoption rest⟩
      . exact .inl ⟨_, _, rest, .command hdash, by simp, rfl⟩

/--
How far a command line is read.
-/
theorem reads_or_stops (argv : List Bytes)
    : (∃ items, Reads items argv)
        ∨ ∃ items args rest, ∃ stop : Stop, Reads items args ∧ argv = args ++ rest ∧ stop.At rest := by
  induction hlength : argv.length using Nat.strongRecOn generalizing argv with
  | ind length ih =>
    rcases written_or_stops argv with rfl | ⟨item, args, rest, hitem, hne, rfl⟩ | ⟨stop, hstop⟩
    . exact .inl ⟨[], .nil⟩
    . have hpos := List.length_pos_of_ne_nil hne
      have hlt : rest.length < length := by
        rw [List.length_append] at hlength
        omega
      rcases ih rest.length hlt rest rfl with ⟨items, hreads⟩ | ⟨items, args', rest', stop, hreads, rfl, hstop⟩
      . exact .inl ⟨item :: items, .cons hitem hreads⟩
      . exact .inr ⟨item :: items, args ++ args', rest', stop, .cons hitem hreads, by simp, hstop⟩
    . exact .inr ⟨[], [], argv, stop, .nil, rfl, hstop⟩

theorem lastOf_concat {α : Type} (value? : Item → Option α) (items : List Item) (item : Item) (default : α)
    : lastOf value? (items ++ [item]) default = (value? item).getD (lastOf value? items default) := by
  simp only [lastOf, List.filterMap_append]
  cases h : value? item <;> simp [h]

theorem ofItems_concat (items : List Item) (item : Item)
    : Arguments.ofItems (items ++ [item]) = (Arguments.ofItems items).apply item := by
  simp only [Arguments.ofItems, lastOf_concat]
  cases item with
  | value field text =>
    cases field <;> simp [Arguments.apply, Arguments.set, Item.value?, Item.command?, Item.daemonMode?]
  | _ => simp [Arguments.apply, Item.value?, Item.command?, Item.daemonMode?]

theorem foldl_apply (items : List Item) : items.foldl Arguments.apply {} = Arguments.ofItems items := by
  induction items using List.reverseRecOn with
  | nil => rfl
  | append_singleton items item ih => rw [List.foldl_append, ih, ofItems_concat, List.foldl_cons, List.foldl_nil]

/--
A command line is accepted exactly if it consists of items, and of several values for the same thing the
last one counts. It is rejected exactly if after some items there is a word that ends the reading.
-/
theorem parseArguments_iff (argv : List Bytes)
    : (∀ args, parseArguments argv = .ok args
        ↔
          ∃ items, Reads items (argv.drop 1) ∧ args = .ofItems items)
        ∧ ∀ stop : Stop, parseArguments argv = .error stop
          ↔
            ∃ items args rest, Reads items args ∧ argv.drop 1 = args ++ rest ∧ stop.At rest := by
  unfold parseArguments
  generalize argv.drop 1 = argv
  have hreads : ∀ items, Reads items argv → readArguments {} argv = .ok (.ofItems items) := by
    intro items h
    have hread : readArguments {} (argv ++ []) = .ok (items.foldl Arguments.apply {}) := readArguments_reads h
    rwa [List.append_nil, foldl_apply] at hread
  have hstops : ∀ items args rest, ∀ stop : Stop, Reads items args → argv = args ++ rest → stop.At rest →
      readArguments {} argv = .error stop := by
    rintro items args rest stop h rfl hstop
    rw [readArguments_reads h, readArguments_stop hstop]
  constructor
  . intro args
    constructor
    . intro h
      rcases reads_or_stops argv with ⟨items, hitems⟩ | ⟨items, read, rest, stop, hitems, hargv, hstop⟩
      . exact ⟨items, hitems, Except.ok.inj (h.symm.trans (hreads items hitems))⟩
      . rw [hstops items read rest stop hitems hargv hstop] at h
        contradiction
    . rintro ⟨items, hitems, rfl⟩
      exact hreads items hitems
  . intro stop
    constructor
    . intro h
      rcases reads_or_stops argv with ⟨items, hitems⟩ | ⟨items, read, rest, stop', hitems, hargv, hstop⟩
      . rw [hreads items hitems] at h
        contradiction
      . obtain rfl := Except.error.inj (h.symm.trans (hstops items read rest stop' hitems hargv hstop))
        exact ⟨items, read, rest, hitems, hargv, hstop⟩
    . rintro ⟨items, read, rest, hitems, hargv, hstop⟩
      exact hstops items read rest stop hitems hargv hstop

/--
An example that the usage message gives.
-/
example : parseArguments [bytes "simple-rsyncd", bytes "logs", bytes "--tail", bytes "100"]
    = .error (.unknown (bytes "--tail")) := by decide +kernel

end Program
end SimpleRsyncd
