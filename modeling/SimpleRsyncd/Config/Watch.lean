import SimpleRsyncd.Config.Configuration
import SimpleRsyncd.Transition.Basic

/-!
This module contains how a `Configuration` watches the file it was loaded from: the flag that says that
the file has changed, and the comparison of time stamps that should have set it.
-/

namespace SimpleRsyncd
namespace Configuration

/--
The file has been modified after the time that was noted when it was loaded.
-/
def Modified (machine : Machine) (c : Configuration) : Prop :=
  c.configFilePath ≠ [] ∧ ∃ time, machine.lastWriteTime c.configFilePath = some time ∧ c.lastModified < time

/--
`checkFileChanged()`. It is private, and no function calls it.
-/
def checkFileChanged (machine : Machine) (c : Configuration) : Bool :=
  if c.configFilePath.isEmpty then
    false
  else
    (machine.lastWriteTime c.configFilePath).any fun time => c.lastModified < time

theorem checkFileChanged_iff {machine : Machine} {c : Configuration}
    : c.checkFileChanged machine = true ↔ c.Modified machine := by
  unfold checkFileChanged Modified
  split
  . next hempty => simp [List.isEmpty_iff.mp hempty]
  . next hpath =>
    rw [List.isEmpty_iff] at hpath
    cases machine.lastWriteTime c.configFilePath <;> simp [hpath]

/--
What can be done to a `Configuration` from outside. Its public members can be given any values.
-/
inductive Call where
  | loadFromFile (machine : Machine) (filename : Bytes)
  | loadFromJSON (machine : Machine) (json : Bytes)
  | loadFromYAML (machine : Machine) (yaml : Bytes)
  | reload (machine : Machine)
  | validate (fs : FileSystem)
  | edit (values : Configuration)

def call (c : Configuration) : Call → Configuration
  | .loadFromFile machine filename => (c.loadFromFile machine filename).2
  | .loadFromJSON machine json => (c.loadFromJSON machine json).2
  | .loadFromYAML machine yaml => (c.loadFromYAML machine yaml).2
  | .reload machine => (c.reload machine).2
  | .validate fs => (c.validate fs).2
  | .edit values => { values with errors := c.errors, isValid := c.isValid, hasChanged := c.hasChanged }

def step : Transition Configuration Call :=
  .ofFun fun call c => c.call call

theorem step_call (c : Configuration) (call : Call) : step c call (c.call call) := rfl

variable {machine : Machine} {c : Configuration}

@[simp]
theorem hasChanged_pushError (message : Bytes) : (c.pushError message).hasChanged = c.hasChanged := rfl

@[simp]
theorem hasChanged_clearErrors : c.clearErrors.hasChanged = c.hasChanged := rfl

@[simp]
theorem hasChanged_validate (fs : FileSystem) : (c.validate fs).2.hasChanged = c.hasChanged := rfl

theorem hasChanged_assign (assignments : List Assignment) : (c.assign assignments).hasChanged = c.hasChanged := by
  induction assignments generalizing c with
  | nil => rfl
  | cons a assignments ih =>
    refine ih.trans ?_
    cases a with
    | set s v => cases s <;> rfl
    | allowUser | denyUser | inModule | error => rfl

/--
A load that gets as far as the time stamp clears the flag.
-/
theorem hasChanged_finishLoad : (c.finishLoad machine).2.hasChanged = false := by
  unfold finishLoad
  cases h : (c.updateLastModified machine).validate machine.fs with
  | mk valid c' =>
    have hcleared : c'.hasChanged = false := by
      have := hasChanged_validate (c := c.updateLastModified machine) machine.fs
      rw [h] at this
      exact this
    rcases valid with e | _ | _
    . exact hcleared
    . exact hcleared
    . rfl

/--
No load sets the flag.
-/
theorem hasChanged_loadFromJSON (json : Bytes) (h : c.hasChanged = false)
    : (c.loadFromJSON machine json).2.hasChanged = false := by
  unfold loadFromJSON
  dsimp only
  split
  . simpa using h
  . split
    . simpa using h
    . split
      . simpa [hasChanged_assign] using h
      . exact hasChanged_finishLoad

theorem hasChanged_loadFromYAML (yaml : Bytes) (h : c.hasChanged = false)
    : (c.loadFromYAML machine yaml).2.hasChanged = false := by
  unfold loadFromYAML
  dsimp only
  split
  . simpa using h
  . split
    . simpa using h
    . split
      . simpa using h
      . split
        . simpa [hasChanged_assign] using h
        . exact hasChanged_finishLoad

theorem hasChanged_loadFromFile (filename : Bytes) (h : c.hasChanged = false)
    : (c.loadFromFile machine filename).2.hasChanged = false := by
  unfold loadFromFile
  dsimp only
  split
  . simpa using h
  . simpa using h
  . split
    . simpa using h
    . split
      . split
        . simpa using h
        . exact hasChanged_loadFromJSON _ h
      . split
        . split
          . simpa using h
          . exact hasChanged_loadFromYAML _ h
        . exact hasChanged_finishLoad

theorem hasChanged_reload (h : c.hasChanged = false) : (c.reload machine).2.hasChanged = false := by
  unfold reload
  split
  . exact h
  . exact hasChanged_loadFromFile _ h

theorem hasChanged_of_run {calls : List Call} (hrun : step.Run {} calls c) : c.hasChanged = false := by
  refine hrun.invariant (I := fun c => c.hasChanged = false) rfl ?_
  rintro c call _ h rfl
  cases call with
  | loadFromFile machine filename => exact hasChanged_loadFromFile filename h
  | loadFromJSON machine json => exact hasChanged_loadFromJSON json h
  | loadFromYAML machine yaml => exact hasChanged_loadFromYAML yaml h
  | reload machine => exact hasChanged_reload h
  | validate fs => exact h
  | edit values => exact h

end Configuration
end SimpleRsyncd
