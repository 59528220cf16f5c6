import SimpleRsyncd.Config.IniLine
import SimpleRsyncd.Config.Load
import SimpleRsyncd.Container.Collector

/-!
This module determines which of the lines that a load rejects are reported in the end. The validation clears the list
that the loop over the lines has filled, so none of them is.
-/

namespace SimpleRsyncd

open Collector

theorem Check.only_report {P : Bytes → Prop} {message : Bytes} (h : P message) : Only P (report message) :=
  (only_modify (by simpa using h)).bind fun _ => only_pure false

theorem Check.only_both {P : Bytes → Prop} {check check' : Check Bool} (h : Only P check) (h' : Only P check')
    : Only P (both check check') :=
  h.bind fun _ => h'.bind fun _ => only_pure _

namespace Configuration

/--
A message of the validation.
-/
def IsFinding (message : Bytes) : Prop :=
  message.head? ≠ some 73 ∨ message = bytes "Invalid bind_port: 0"

section validate

open Check

variable (fs : FileSystem) (c : Configuration)

theorem isFinding_append {text : Bytes} (rest : Bytes) (hne : text ≠ []) (h : text.head? ≠ some 73)
    : IsFinding (text ++ rest) := by
  refine .inl ?_
  rwa [List.head?_append_of_ne_nil _ hne]

theorem only_validateFile (file : Bytes) {missing notExist : String} (hmissing : IsFinding (bytes missing))
    (hnotExist : IsFinding (bytes notExist ++ file))
    : Only IsFinding (validateFile fs file missing notExist) := by
  refine only_ite (only_report hmissing) ?_
  refine (only_lift _).bind fun there => ?_
  exact only_ite (only_report hnotExist) (only_pure true)

theorem only_validateNetwork : Only IsFinding (validateNetwork c) := by
  refine only_both (only_ite (only_report (.inr rfl)) (only_pure true)) ?_
  exact only_ite (only_report (.inl (by decide))) (only_pure true)

theorem only_validateSSL : Only IsFinding (validateSSL fs c) :=
  only_both
    (only_validateFile fs _ (.inl (by decide)) (isFinding_append _ (by decide) (by decide)))
    (only_validateFile fs _ (.inl (by decide)) (isFinding_append _ (by decide) (by decide)))

theorem only_validateAuth : Only IsFinding (validateAuth fs c) :=
  only_ite (only_validateFile fs _ (.inl (by decide)) (isFinding_append _ (by decide) (by decide))) (only_pure true)

theorem only_validateModule (e : Bytes × ModuleConfig) : Only IsFinding (validateModule fs e) := by
  have hmodule : ∀ rest, IsFinding (bytes "Module '" ++ e.1 ++ rest) := by
    intro rest
    rw [List.append_assoc]
    exact isFinding_append _ (by decide) (by decide)
  refine only_ite (only_report (hmodule _)) ?_
  refine (only_lift _).bind fun there => ?_
  refine only_ite ?_ ?_
  . refine (only_report ?_).bind fun _ => only_pure true
    rw [List.append_assoc]
    exact hmodule _
  . refine (only_lift _).bind fun isDirectory => ?_
    refine only_ite (only_report ?_) (only_pure true)
    rw [List.append_assoc]
    exact hmodule _

theorem only_check : Only IsFinding (check fs c) := by
  refine only_both (only_validateNetwork c) ?_
  refine only_both (only_ite (only_validateSSL fs c) (only_pure true)) ?_
  refine only_both (only_ite (only_validateAuth fs c) (only_pure true)) ?_
  unfold validateModules
  induction c.modules.entries with
  | nil => exact only_pure true
  | cons e entries ih => exact only_both (only_validateModule fs e) ih

/--
After a validation there are its own messages in the list and no others.
-/
theorem isFinding_of_mem_errors_validate : ∀ message ∈ (c.validate fs).2.errors, IsFinding message := by
  obtain ⟨messages, hmessages, hfindings⟩ := only_check fs c []
  have herrors : (c.validate fs).2.errors = messages := hmessages
  rwa [herrors]

end validate

/--
Nothing but digits, behind a sign if there is one.
-/
def isNumber (value : Bytes) : Bool :=
  let digits :=
    match value with
    | 43 :: value => value
    | 45 :: value => value
    | value => value
  !digits.isEmpty && digits.all Bytes.isDigit

section rejections

variable (getenv : Bytes → Option Bytes)

/--
The report that is due for a line that is rejected.
-/
def rejection (state : IniState) (line : Bytes) : List Bytes :=
  match IniLine.read line with
  | .malformed text => [bytes "Invalid line " ++ Bytes.ofNat state.next.lineNumber ++ bytes ": " ++ text]
  | .pair key value =>
    let value := substituteEnvironmentVariables getenv value
    if (state.currentSection = bytes "global" || state.currentSection.isEmpty) && !isNumber value then
      if isKey key ["bind_port", "port"] then
        [bytes "Invalid port value: " ++ value]
      else if isKey key ["max_connections"] then
        [bytes "Invalid max_connections value: " ++ value]
      else
        []
    else
      []
  | _ => []

/--
The reports that are due for a text.
-/
def rejections (state : IniState) : List Bytes → List Bytes
  | [] => []
  | line :: lines => rejection getenv state line ++ rejections (parseLine getenv state line).1 lines

variable {getenv}

theorem not_isFinding_append {text : Bytes} (rest : Bytes) (hlength : 9 ≤ text.length)
    (htext : text.take 9 ∈ [bytes "Invalid l", bytes "Invalid p", bytes "Invalid m"])
    : ¬IsFinding (text ++ rest) := by
  have htake : (text ++ rest).take 9 = text.take 9 := List.take_append_of_le_length hlength
  generalize text ++ rest = message at htake
  rw [← htake] at htext
  rintro (hhead | rfl)
  . have hfirst : (message.take 9).head? = some 73 := by
      have hall : ∀ start ∈ [bytes "Invalid l", bytes "Invalid p", bytes "Invalid m"], start.head? = some 73 := by
        decide
      exact hall _ htext
    rw [List.head?_take] at hfirst
    exact hhead (by simpa using hfirst)
  . exact absurd htext (by decide)

theorem not_isFinding_of_mem_rejection {state : IniState} {line entry : Bytes} (h : entry ∈ rejection getenv state line)
    : ¬IsFinding entry := by
  unfold rejection at h
  split at h
  . next text hline =>
    rw [List.mem_singleton.mp h, List.append_assoc, List.append_assoc]
    exact not_isFinding_append _ (by decide) (by decide)
  . next key value hline =>
    simp only at h
    split at h
    . split at h
      . rw [List.mem_singleton.mp h]
        exact not_isFinding_append _ (by decide) (by decide)
      . split at h
        . rw [List.mem_singleton.mp h]
          exact not_isFinding_append _ (by decide) (by decide)
        . contradiction
    . contradiction
  . contradiction

theorem not_isFinding_of_mem_rejections {lines : List Bytes} {state : IniState} {entry : Bytes}
    (h : entry ∈ rejections getenv state lines)
    : ¬IsFinding entry := by
  induction lines generalizing state with
  | nil => simp [rejections] at h
  | cons line lines ih =>
    rcases List.mem_append.mp h with h | h
    . exact not_isFinding_of_mem_rejection h
    . exact ih h

theorem isFinding_of_mem_errors_finishLoad (machine : Machine) (c : Configuration)
    : ∀ message ∈ (c.finishLoad machine).2.errors, IsFinding message := by
  have hvalidate := isFinding_of_mem_errors_validate machine.fs (c.updateLastModified machine)
  unfold finishLoad
  generalize (c.updateLastModified machine).validate machine.fs = result at hvalidate ⊢
  obtain ⟨e | _ | _, c'⟩ := result <;> exact hvalidate

/--
All lines that are rejected are reported after a load if and only if there are none.
-/
theorem rejections_reported_iff {machine : Machine} {filename content : Bytes} (h : IsIniFile machine filename content)
    (c : Configuration)
    : (∀ entry ∈ rejections machine.getenv {} (Bytes.getlines newline content),
          entry ∈ (c.loadFromFile machine filename).2.errors)
        ↔
      rejections machine.getenv {} (Bytes.getlines newline content) = [] := by
  rw [List.eq_nil_iff_forall_not_mem, h.loadFromFile_eq]
  constructor
  . intro hall entry hmem
    exact not_isFinding_of_mem_rejections hmem (isFinding_of_mem_errors_finishLoad machine _ entry (hall entry hmem))
  . exact fun hnone entry hmem => absurd hmem (hnone entry)

/--
A machine with a configuration file of one line.
-/
def fileMachine (content : Bytes) : Machine where
  fs := { entries := [(⟨bytes "m", isName_m⟩, .file content)] }
  json := .unavailable
  yaml := .unavailable

theorem isIniFile_single : IsIniFile (fileMachine (bytes "port")) (bytes "/m") (bytes "port") :=
  ⟨by decide, by decide, by decide⟩

theorem rejections_reported_single
    : ¬∀ entry ∈ [bytes "Invalid line 1: port"],
        entry ∈ (({} : Configuration).loadFromFile (fileMachine (bytes "port")) (bytes "/m")).2.errors := by
  have hrejections : rejections (fileMachine (bytes "port")).getenv {} (Bytes.getlines newline (bytes "port"))
      = [bytes "Invalid line 1: port"] := by decide
  rw [← hrejections, rejections_reported_iff isIniFile_single, hrejections]
  simp

/--
The load is a success without any report.
-/
theorem not_rejections_reported_single
    : rejections (fileMachine (bytes "port")).getenv {} (Bytes.getlines newline (bytes "port"))
          = [bytes "Invalid line 1: port"]
        ∧ (({} : Configuration).loadFromFile (fileMachine (bytes "port")) (bytes "/m")).1 = .ok true
        ∧ (({} : Configuration).loadFromFile (fileMachine (bytes "port")) (bytes "/m")).2.errors = [] :=
  ⟨by decide, by decide, by decide⟩

end rejections

end Configuration
end SimpleRsyncd
