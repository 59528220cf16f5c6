import SimpleRsyncd.Config.Configuration
import SimpleRsyncd.Config.Effect

/-!
This module determines what a load does: the assignments of the file are made on top of the settings
there are, whatever comes of the load in the end.
-/

namespace SimpleRsyncd
namespace Configuration

section outcome

variable (machine : Machine)

/--
Whether a JSON text is read to its end, and the assignments that are made until then.
-/
def jsonOutcome (json : Bytes) : Bool × List Assignment :=
  if json.isEmpty then
    (false, [])
  else
    match machine.json.parse json with
    | .error _ => (false, [])
    | .ok root =>
      match (machine.json.parseJSON root).run with
      | (.error _, assignments) => (false, assignments)
      | (.ok (), assignments) => (true, assignments)

def yamlOutcome (yaml : Bytes) : Bool × List Assignment :=
  if yaml.isEmpty then
    (false, [])
  else
    match machine.yaml.parse yaml with
    | .error _ => (false, [])
    | .ok root =>
      if machine.yaml.isNull root then
        (false, [])
      else
        match (machine.yaml.parseYAML root).run with
        | (.error _, assignments) => (false, assignments)
        | (.ok (), assignments) => (true, assignments)

/--
The same for a text in the format that the name of the file tells.
-/
def textOutcome (filename : Bytes) (content : Except Errno Bytes) : Bool × List Assignment :=
  if format filename = bytes ".json" then
    match content with
    | .error _ => (false, [])
    | .ok json => jsonOutcome machine json
  else if format filename = bytes ".yml" || format filename = bytes ".yaml" then
    match content with
    | .error _ => (false, [])
    | .ok yaml => yamlOutcome machine yaml
  else
    (true, parseIni machine.getenv (content.toOption.getD []))

def fileOutcome (filename : Bytes) : Bool × List Assignment :=
  match machine.fs.exists filename, openFile machine filename with
  | .ok true, some content => textOutcome machine filename content
  | _, _ => (false, [])

end outcome

theorem same_pushError (c : Configuration) (message : Bytes) : (c.pushError message).Same c :=
  ⟨⟨rfl, rfl, rfl, rfl, rfl, rfl⟩, rfl, rfl, rfl, rfl, rfl, rfl⟩

theorem same_clearErrors (c : Configuration) : c.clearErrors.Same c :=
  ⟨⟨rfl, rfl, rfl, rfl, rfl, rfl⟩, rfl, rfl, rfl, rfl, rfl, rfl⟩

theorem same_updateLastModified (machine : Machine) (c : Configuration) : (c.updateLastModified machine).Same c :=
  ⟨⟨rfl, rfl, rfl, rfl, rfl, rfl⟩, rfl, rfl, rfl, rfl, rfl, rfl⟩

theorem same_validate (fs : FileSystem) (c : Configuration) : (c.validate fs).2.Same c :=
  ⟨⟨rfl, rfl, rfl, rfl, rfl, rfl⟩, rfl, rfl, rfl, rfl, rfl, rfl⟩

/--
The same settings are valid on the same file system.
-/
theorem SameSettings.validate {c c' : Configuration} (h : c.SameSettings c') (fs : FileSystem)
    : (c.validate fs).1 = (c'.validate fs).1 := by
  have hcheck : check fs c = check fs c' := by
    simp only [check, validateNetwork, validateSSL, validateAuth, validateModules, h.network, h.ssl, h.auth,
      h.modules]
  unfold Configuration.validate
  rw [hcheck]
  rfl

/--
The result of a load of some text: the settings have been assigned, and it is a success if the text
is read to its end and the settings are valid.
-/
structure Loads (machine : Machine) (c : Configuration) (outcome : Bool × List Assignment)
    (result : Except LoadError Bool × Configuration) : Prop where
  same : result.2.Same (c.assign outcome.2)
  returns : result.1 = .ok true
    ↔ outcome.1 = true ∧ ((c.assign outcome.2).validate machine.fs).1 = .ok true

namespace Loads

variable {machine : Machine} {c c' : Configuration} {outcome : Bool × List Assignment}
  {result : Except LoadError Bool × Configuration}

theorem of_same (hsame : c.Same c') (h : Loads machine c outcome result) : Loads machine c' outcome result where
  same := h.same.trans (hsame.assign _)
  returns := by rw [h.returns, (hsame.assign _).toSameSettings.validate]

theorem failure {assignments : List Assignment} (hsame : result.2.Same (c.assign assignments))
    (hne : result.1 ≠ .ok true)
    : Loads machine c (false, assignments) result where
  same := hsame
  returns := by simp [hne]

theorem finishLoad {assignments : List Assignment}
    : Loads machine c (true, assignments) ((c.assign assignments).finishLoad machine) := by
  have hupdate := same_updateLastModified machine (c.assign assignments)
  have hvalidate := hupdate.toSameSettings.validate machine.fs
  have hsame := (same_validate machine.fs ((c.assign assignments).updateLastModified machine)).trans hupdate
  unfold Configuration.finishLoad
  cases hresult : ((c.assign assignments).updateLastModified machine).validate machine.fs with
  | mk valid c' =>
    rw [hresult] at hvalidate hsame
    rcases valid with e | _ | _
    . exact ⟨hsame, by simp [← hvalidate]⟩
    . exact ⟨hsame, by simp [← hvalidate]⟩
    . have hvalid : ({ c' with isValid := true, hasChanged := false } : Configuration).Same c' :=
        ⟨⟨rfl, rfl, rfl, rfl, rfl, rfl⟩, rfl, rfl, rfl, rfl, rfl, rfl⟩
      exact ⟨hvalid.trans hsame, by simp [← hvalidate]⟩

end Loads

variable (machine : Machine) (c : Configuration)

theorem loads_loadFromJSON (json : Bytes)
    : Loads machine c (jsonOutcome machine json) (c.loadFromJSON machine json) := by
  refine Loads.of_same (same_clearErrors c) ?_
  unfold loadFromJSON jsonOutcome
  split
  . exact .failure (same_pushError _ _) (by simp)
  . cases machine.json.parse json with
    | error => exact .failure (same_pushError _ _) (by simp)
    | ok root =>
      simp only
      rcases (machine.json.parseJSON root).run with ⟨_ | _, assignments⟩
      . exact .failure ⟨⟨rfl, rfl, rfl, rfl, rfl, rfl⟩, rfl, rfl, rfl, rfl, rfl, rfl⟩ (by simp)
      . exact .finishLoad

theorem loads_loadFromYAML (yaml : Bytes)
    : Loads machine c (yamlOutcome machine yaml) (c.loadFromYAML machine yaml) := by
  refine Loads.of_same (same_clearErrors c) ?_
  unfold loadFromYAML yamlOutcome
  split
  . exact .failure (same_pushError _ _) (by simp)
  . cases machine.yaml.parse yaml with
    | error => exact .failure (same_pushError _ _) (by simp)
    | ok root =>
      simp only
      split
      . exact .failure (same_pushError _ _) (by simp)
      . rcases (machine.yaml.parseYAML root).run with ⟨_ | _, assignments⟩
        . exact .failure (same_pushError _ _) (by simp)
        . exact .finishLoad

/--
However a load of a file ends, what it has done to the settings are the assignments of the file.
-/
theorem loads_loadFromFile (filename : Bytes)
    : Loads machine c (fileOutcome machine filename) (c.loadFromFile machine filename) := by
  have hpath : ({ c.clearErrors with configFilePath := filename } : Configuration).Same c :=
    ⟨⟨rfl, rfl, rfl, rfl, rfl, rfl⟩, rfl, rfl, rfl, rfl, rfl, rfl⟩
  unfold loadFromFile fileOutcome
  rcases machine.fs.exists filename with e | _ | _
  . exact .failure (same_clearErrors c) (by simp)
  . exact .failure ((same_pushError _ _).trans (same_clearErrors c)) (by simp)
  . cases openFile machine filename with
    | none => exact .failure ((same_pushError _ _).trans hpath) (by simp)
    | some content =>
      simp only [textOutcome]
      split
      . cases content with
        | error e => exact .failure hpath (by simp)
        | ok json => exact (loads_loadFromJSON machine _ json).of_same hpath
      . split
        . cases content with
          | error e => exact .failure hpath (by simp)
          | ok yaml => exact (loads_loadFromYAML machine _ yaml).of_same hpath
        . exact Loads.finishLoad.of_same hpath

/--
A file that is there, can be read and is loaded as an INI file.
-/
structure IsIniFile (machine : Machine) (filename content : Bytes) : Prop where
  «exists» : machine.fs.exists filename = .ok true
  opens : openFile machine filename = some (.ok content)
  format : format filename ∉ [bytes ".json", bytes ".yml", bytes ".yaml"]

namespace IsIniFile

variable {machine : Machine} {filename content : Bytes} (h : IsIniFile machine filename content) (c : Configuration)

include h

theorem loadFromFile_eq
    : c.loadFromFile machine filename
      = ({ c.clearErrors with configFilePath := filename } : Configuration).loadFromIni machine content := by
  have hformat := h.format
  simp only [List.mem_cons, List.not_mem_nil, or_false, not_or] at hformat
  unfold loadFromFile
  simp [h.exists, h.opens, hformat, Except.toOption]

theorem fileOutcome_eq : fileOutcome machine filename = (true, parseIni machine.getenv content) := by
  have hformat := h.format
  simp only [List.mem_cons, List.not_mem_nil, or_false, not_or] at hformat
  simp [fileOutcome, textOutcome, h.exists, h.opens, hformat, Except.toOption]

theorem loads : Loads machine c (true, parseIni machine.getenv content) (c.loadFromFile machine filename) := by
  rw [← h.fileOutcome_eq]
  exact loads_loadFromFile machine c filename

end IsIniFile

/--
Without a path there is nothing to reload.
-/
theorem fileOutcome_nil : fileOutcome machine [] = (false, []) := rfl

theorem loads_reload
    : Loads machine c (fileOutcome machine c.configFilePath) (c.reload machine) := by
  unfold reload
  split
  . next hempty =>
    rw [List.isEmpty_iff.mp hempty, fileOutcome_nil]
    exact .failure ⟨⟨rfl, rfl, rfl, rfl, rfl, rfl⟩, rfl, rfl, rfl, rfl, rfl, rfl⟩ (by simp)
  . exact loads_loadFromFile machine c c.configFilePath

theorem rateLimit_reload : (c.reload machine).2.rateLimit = c.rateLimit :=
  (loads_reload machine c).same.rateLimit.trans (rateLimit_assign _ _)

end Configuration
end SimpleRsyncd
