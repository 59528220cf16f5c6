import SimpleRsyncd.Config.Rejected
import SimpleRsyncd.Config.Rescan

/-!
This module determines for which values of the port in a configuration a load is only a success if this is the
port from then on.
-/

namespace SimpleRsyncd

open Collector

/--
The port that an assignment sets.
-/
def Assignment.port? (a : Assignment) : Option UInt16 :=
  a.value? .bindPort

namespace Configuration

/--
The number as a port, if there is a port with this number.
-/
def portNumber (n : Nat) : Option Nat :=
  if 1 ≤ n ∧ n ≤ 65535 then some n else none

/--
The same for a text, which has to be a numeral and nothing else.
-/
def portNumeral (value : Bytes) : Option Nat :=
  if value ≠ [] ∧ ∀ c ∈ value, Bytes.isDigit c = true then portNumber (Bytes.numeral value) else none

/--
A load is a success only if the port is the given one. If none is given then it has to be the one from before,
and there has to be a report.
-/
def KeepsPort (given : Option Nat) (before : UInt16) (result : Except LoadError Bool × Configuration) : Prop :=
  result.1 = .ok true →
    match given with
    | some n => result.2.network.bindPort.toNat = n
    | none => result.2.network.bindPort = before ∧ result.2.errors ≠ []

theorem portNumber_eq_some_iff {n m : Nat} : portNumber n = some m ↔ n = m ∧ 1 ≤ n ∧ n ≤ 65535 := by
  unfold portNumber
  split <;> simp <;> omega

section validate

variable {fs : FileSystem} {c : Configuration}

theorem run_both_eq_ok_true {check check' : Check Bool} {messages : List Bytes}
    (h : (StateT.run (ExceptT.run (Check.both check check')) messages).1 = .ok true)
    : (StateT.run (ExceptT.run check) messages).1 = .ok true := by
  unfold Check.both at h
  rw [ExceptT.run_bind, StateT.run_bind] at h
  generalize StateT.run (ExceptT.run check) messages = result at h ⊢
  obtain ⟨e | valid, messages'⟩ := result
  . contradiction
  . change (StateT.run (ExceptT.run (check' >>= fun valid' => pure (valid && valid'))) messages').1 = .ok true at h
    rw [ExceptT.run_bind, StateT.run_bind] at h
    generalize StateT.run (ExceptT.run check') messages' = result at h
    obtain ⟨e | valid', messages''⟩ := result
    . contradiction
    . have hboth : (.ok (valid && valid') : Except Errno Bool) = .ok true := h
      simp_all

/--
A configuration with the port zero is not valid.
-/
theorem bindPort_ne_zero_of_validate (h : (c.validate fs).1 = .ok true) : c.network.bindPort ≠ 0 := by
  intro hzero
  have hnetwork : (StateT.run (ExceptT.run (validateNetwork c)) []).1 = .ok true := run_both_eq_ok_true h
  have hport := run_both_eq_ok_true hnetwork
  rw [if_pos hzero] at hport
  contradiction

/--
Without modules, encryption and authentication the network settings are all there is to validate.
-/
theorem validate_eq (hport : c.network.bindPort ≠ 0) (hmax : c.network.maxConnections ≠ 0)
    (hssl : c.ssl.enabled = false) (hauth : c.auth.enabled = false) (hmodules : c.modules = .empty)
    : c.validate fs = (.ok true, { c with errors := [] }) := by
  have hnetwork : validateNetwork c = Check.both (pure true) (pure true) := by
    rw [validateNetwork, if_neg hport, if_neg hmax]
  have hall : check fs c = Check.both (Check.both (pure true) (pure true))
      (Check.both (pure true) (Check.both (pure true) (pure true))) := by
    rw [check, hnetwork, hssl, hauth, validateModules, hmodules]
    rfl
  rw [validate, hall]
  rfl

theorem finishLoad_eq (machine : Machine) (hport : c.network.bindPort ≠ 0) (hmax : c.network.maxConnections ≠ 0)
    (hssl : c.ssl.enabled = false) (hauth : c.auth.enabled = false) (hmodules : c.modules = .empty)
    : (c.finishLoad machine).1 = .ok true ∧ (c.finishLoad machine).2.errors = [] := by
  have hvalidate : (c.updateLastModified machine).validate machine.fs
      = (.ok true, { c.updateLastModified machine with errors := [] }) :=
    validate_eq hport hmax hssl hauth hmodules
  rw [finishLoad, hvalidate]
  exact ⟨rfl, rfl⟩

end validate

section ini

variable (getenv : Bytes → Option Bytes)

/--
The values of the lines for the port in the global section, as they are after the substitution.
-/
def portValue (state : IniState) (line : Bytes) : List Bytes :=
  match IniLine.read line with
  | .pair key value =>
    if (state.currentSection = bytes "global" || state.currentSection.isEmpty)
        && isKey key ["bind_port", "port"] then
      [substituteEnvironmentVariables getenv value]
    else
      []
  | _ => []

def portValues (state : IniState) : List Bytes → List Bytes
  | [] => []
  | line :: lines => portValue getenv state line ++ portValues (parseLine getenv state line).1 lines

/--
The port that a line sets, if it sets one.
-/
def storedPort (value : Bytes) : Option UInt16 :=
  (stoul value).map UInt16.ofNat

/--
The port after lines with these values.
-/
def portAfter (port : UInt16) (values : List Bytes) : UInt16 :=
  (values.filterMap storedPort).getLast?.getD port

variable {getenv}

theorem filterMap_parseGlobalConfig (key value : Bytes)
    : (parseGlobalConfig key value).filterMap Assignment.port?
      = if isKey key ["bind_port", "port"] then (storedPort value).toList else [] := by
  unfold parseGlobalConfig
  by_cases haddress : isKey key ["bind_address", "address"] = true
  . have hne : isKey key ["bind_port", "port"] = false := by
      simp only [isKey, List.any_cons, List.any_nil, Bool.or_false, Bool.or_eq_true, decide_eq_true_eq] at haddress
      rcases haddress with rfl | rfl <;> decide
    rw [if_pos haddress, hne]
    rfl
  . rw [if_neg haddress]
    by_cases hport : isKey key ["bind_port", "port"] = true
    . rw [if_pos hport, if_pos hport]
      cases hstoul : stoul value <;> simp only [storedPort, hstoul] <;> rfl
    . rw [if_neg hport, if_neg hport]
      apply apply_ite_eq
      . cases stoul value <;> rfl
      . repeat' apply apply_ite_eq
        all_goals rfl

theorem filterMap_parseLine (state : IniState) (line : Bytes)
    : (parseLine getenv state line).2.filterMap Assignment.port?
      = (portValue getenv state line).filterMap storedPort := by
  rw [parseLine_eq, portValue]
  cases IniLine.read line with
  | blank | malformed => rfl
  | header name =>
    simp only [parseHeader]
    split
    . rfl
    . split <;> rfl
  | pair key value =>
    simp only
    rw [parsePair_next, parsePair]
    cases (state.currentSection = bytes "global" || state.currentSection.isEmpty) with
    | true =>
      rw [if_pos rfl, filterMap_parseGlobalConfig]
      cases isKey key ["bind_port", "port"] with
      | true => cases hport : storedPort (substituteEnvironmentVariables getenv value) <;> simp [hport]
      | false => simp
    | false =>
      rw [if_neg Bool.false_ne_true]
      split <;> rfl

theorem filterMap_parseLines (lines : List Bytes) (state : IniState)
    : (parseLines getenv state lines).filterMap Assignment.port?
      = (portValues getenv state lines).filterMap storedPort := by
  induction lines generalizing state with
  | nil => rfl
  | cons line lines ih =>
    rw [parseLines, portValues]
    simp only
    rw [List.filterMap_append, List.filterMap_append, filterMap_parseLine, ih]

theorem portAfter_append_of_some {value : Bytes} {p : UInt16} (h : storedPort value = some p) (port : UInt16)
    (earlier : List Bytes)
    : portAfter port (earlier ++ [value]) = p := by
  simp [portAfter, h]

variable {machine : Machine} {filename content : Bytes}

theorem bindPort_of_loads {c : Configuration} {outcome : Bool × List Assignment}
    {result : Except LoadError Bool × Configuration} (h : Loads machine c outcome result)
    : result.2.network.bindPort = (Cell.last Assignment.port? outcome.2).getD c.network.bindPort := by
  rw [h.same.network]
  exact (get_assign c outcome.2 .bindPort).trans (Cell.overwrite_eq _ _ _)

theorem bindPort_ne_zero_of_loads {c : Configuration} {outcome : Bool × List Assignment}
    {result : Except LoadError Bool × Configuration} (h : Loads machine c outcome result)
    (hsuccess : result.1 = .ok true)
    : result.2.network.bindPort ≠ 0 := by
  rw [h.same.network]
  exact bindPort_ne_zero_of_validate (h.returns.mp hsuccess).2

theorem IsIniFile.bindPort_eq (h : IsIniFile machine filename content) (c : Configuration)
    : (c.loadFromFile machine filename).2.network.bindPort
      = portAfter c.network.bindPort (portValues machine.getenv {} (Bytes.getlines newline content)) := by
  rw [bindPort_of_loads (h.loads c), Cell.last_eq_getLast?]
  simp only [parseIni, filterMap_parseLines]
  rfl

/--
The values for which all goes well: the port is the given one, or it becomes zero and the load fails.
-/
def IsSafe (value : Bytes) : Prop :=
  (∃ n, portNumeral value = some n) ∨ ∃ n, stoul value = some n ∧ n % 65536 = 0

theorem stoul_of_portNumeral {value : Bytes} {n : Nat} (h : portNumeral value = some n)
    : stoul value = some n ∧ 1 ≤ n ∧ n ≤ 65535 := by
  unfold portNumeral at h
  split at h
  . next hdigits =>
    obtain ⟨rfl, hrange⟩ := portNumber_eq_some_iff.mp h
    have hread := (Bytes.NumberText.ofDigits hdigits.1 hdigits.2).readNumber_text
    rw [Bytes.NumberText.text_ofDigits] at hread
    refine ⟨?_, hrange⟩
    have hsmall : ¬Bytes.numeral value ≥ 18446744073709551616 := by omega
    rw [stoul_eq, hread]
    simp [Bytes.NumberText.ofDigits, Bytes.NumberText.negative, hsmall]
  . contradiction

theorem IsSafe.keepsPort {value : Bytes} {earlier : List Bytes} (hvalue : IsSafe value)
    (h : IsIniFile machine filename content) (c : Configuration)
    (hvalues : portValues machine.getenv {} (Bytes.getlines newline content) = earlier ++ [value])
    : KeepsPort (portNumeral value) (portAfter c.network.bindPort earlier) (c.loadFromFile machine filename) := by
  intro hsuccess
  have hport := h.bindPort_eq c
  have hne := bindPort_ne_zero_of_loads (h.loads c) hsuccess
  rcases hvalue with ⟨n, hn⟩ | ⟨n, hn, hzero⟩
  . obtain ⟨hstoul, -, hle⟩ := stoul_of_portNumeral hn
    have hstored : storedPort value = some (.ofNat n) := by rw [storedPort, hstoul]; rfl
    rw [hvalues, portAfter_append_of_some hstored] at hport
    rw [hn]
    show UInt16.toNat _ = n
    rw [hport, UInt16.toNat_ofNat']
    omega
  . have hstored : storedPort value = some (.ofNat n) := by rw [storedPort, hn]; rfl
    rw [hvalues, portAfter_append_of_some hstored] at hport
    refine absurd ?_ hne
    rw [hport, ← UInt16.toNat_inj, UInt16.toNat_ofNat']
    exact hzero

/--
Whatever else there is in an INI file, the last line for the port does not make a load a success with another port.
-/
def KeepsIniPort (value : Bytes) : Prop :=
  ∀ (machine : Machine) (filename content : Bytes) (c : Configuration) (earlier : List Bytes),
    IsIniFile machine filename content →
    portValues machine.getenv {} (Bytes.getlines newline content) = earlier ++ [value] →
    KeepsPort (portNumeral value) (portAfter c.network.bindPort earlier) (c.loadFromFile machine filename)

/--
A machine with an INI file that refers to a variable with the port.
-/
def portMachine (value : Bytes) : Machine :=
  { fileMachine (bytes "port=$V") with getenv := fun name => if name = bytes "V" then some value else none }

section portMachine

variable (value : Bytes)

theorem isIniFile_portMachine : IsIniFile (portMachine value) (bytes "/m") (bytes "port=$V") :=
  have h : IsIniFile (fileMachine (bytes "port=$V")) (bytes "/m") (bytes "port=$V") :=
    ⟨by decide, by decide, by decide⟩
  ⟨h.exists, h.opens, h.format⟩

theorem substitute_portMachine
    : substituteEnvironmentVariables (portMachine value).getenv (bytes "$V") = value := by
  have hpieces : pieces true (bytes "$V") = [.plain (bytes "V")] := by
    have hplain : pieces true (36 :: (bytes "V" ++ [])) = .plain (bytes "V") :: pieces true [] :=
      pieces_plain (by decide) (by decide) (by simp)
    rw [pieces_nil] at hplain
    exact hplain
  have hquiet : Quiet (portMachine value).getenv (bytes "$V") := ⟨by simp [hpieces], by simp [hpieces]⟩
  have hvariable : getVariable (portMachine value).getenv (bytes "V") = some value := by
    have hname : (bytes "V").takeWhile (· ≠ 0) = bytes "V" := by decide
    rw [getVariable, hname]
    simp [portMachine]
  rw [hquiet.substitute_eq, simultaneous, hpieces]
  simp [Piece.value, hvariable]

theorem parseLine_portMachine
    : parseLine (portMachine value).getenv {} (bytes "port=$V")
      = (IniState.next {}, parseGlobalConfig (bytes "port") value) := by
  have hread : IniLine.read (bytes "port=$V") = .pair (bytes "port") (bytes "$V") := by rfl
  rw [parseLine_eq, hread]
  simp only [substitute_portMachine]
  rfl

theorem parseIni_portMachine
    : parseIni (portMachine value).getenv (bytes "port=$V") = parseGlobalConfig (bytes "port") value := by
  have hlines : Bytes.getlines newline (bytes "port=$V") = [bytes "port=$V"] := by decide
  rw [parseIni, hlines, parseLines, parseLine_portMachine]
  exact List.append_nil _

theorem portValues_portMachine
    : portValues (portMachine value).getenv {} (Bytes.getlines newline (bytes "port=$V")) = [] ++ [value] := by
  have hlines : Bytes.getlines newline (bytes "port=$V") = [bytes "port=$V"] := by decide
  have hread : IniLine.read (bytes "port=$V") = .pair (bytes "port") (bytes "$V") := by rfl
  have hkey : isKey (bytes "port") ["bind_port", "port"] = true := by decide
  rw [hlines, portValues, portValue, hread]
  simp [hkey, substitute_portMachine, portValues]

theorem parseGlobalConfig_port
    : parseGlobalConfig (bytes "port") value
      = (stoul value).elim [.error (bytes "Invalid port value: " ++ value)]
          fun n => [.set .bindPort (UInt16.ofNat n)] := by
  have haddress : isKey (bytes "port") ["bind_address", "address"] = false := by decide
  have hkey : isKey (bytes "port") ["bind_port", "port"] = true := by decide
  rw [parseGlobalConfig, haddress, hkey, if_neg Bool.false_ne_true, if_pos rfl]
  cases stoul value <;> rfl

/--
The load is a success without a report unless the port becomes zero.
-/
theorem loadFromFile_portMachine (h : ∀ n, stoul value = some n → n % 65536 ≠ 0)
    : (({} : Configuration).loadFromFile (portMachine value) (bytes "/m")).1 = .ok true
        ∧ (({} : Configuration).loadFromFile (portMachine value) (bytes "/m")).2.errors = [] := by
  rw [(isIniFile_portMachine value).loadFromFile_eq, loadFromIni, parseIni_portMachine, parseGlobalConfig_port]
  cases hstoul : stoul value with
  | none => exact finishLoad_eq _ (show (873 : UInt16) ≠ 0 by decide) (show 100 ≠ 0 by decide) rfl rfl rfl
  | some n =>
    refine finishLoad_eq _ ?_ (show 100 ≠ 0 by decide) rfl rfl rfl
    show UInt16.ofNat n ≠ 0
    rw [ne_eq, ← UInt16.toNat_inj, UInt16.toNat_ofNat']
    exact h n hstoul

theorem keepsIniPort_iff : KeepsIniPort value ↔ IsSafe value := by
  constructor
  . intro hkeeps
    by_contra hnot
    have hnone : portNumeral value = none := by
      rw [Option.eq_none_iff_forall_not_mem]
      exact fun n hn => hnot (.inl ⟨n, hn⟩)
    obtain ⟨hsuccess, herrors⟩ :=
      loadFromFile_portMachine value fun n hn hzero => hnot (.inr ⟨n, hn, hzero⟩)
    have hport := hkeeps (portMachine value) (bytes "/m") _ {} [] (isIniFile_portMachine value)
      (portValues_portMachine value) hsuccess
    rw [hnone] at hport
    exact hport.2 herrors
  . exact fun hsafe machine filename content c earlier hfile => hsafe.keepsPort hfile c

end portMachine

end ini

end Configuration
end SimpleRsyncd
