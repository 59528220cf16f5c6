import SimpleRsyncd.Config.Load

/-!
This module compares a reloaded `Configuration` with a new one that loads the same file. A load makes
its assignments on top of the settings there are, so that a setting the file does not mention keeps
the value from before.
-/

namespace SimpleRsyncd
namespace Configuration

/--
A file that is loaded into a configuration hides all of the settings before: each of them is
assigned or has the default value, and every module is declared.
-/
structure Overridden (c : Configuration) (assignments : List Assignment) : Prop where
  settings : ∀ s : Setting, s.isGlobal = false →
    (∃ a ∈ assignments, (a.value? s).isSome) ∨ s.get c = s.get {}
  allowedUsers : c.auth.allowedUsers = []
  deniedUsers : c.auth.deniedUsers = []
  declared : ∀ name m, c.modules.lookup name = some m → assignments.filterMap (·.inside name) ≠ []
  modules : ∀ name m, c.modules.lookup name = some m →
    m.Forgotten {} (assignments.filterMap (·.inside name))

theorem forgotten_new_iff {c : Configuration} {assignments : List Assignment}
    : c.Forgotten {} assignments ↔ c.Overridden assignments := by
  constructor
  . intro h
    refine ⟨h.settings, h.allowedUsers, h.deniedUsers, ?_, ?_⟩
    . intro name m hm hnone
      have hmodule := h.modules name
      rw [if_pos hnone, hm] at hmodule
      contradiction
    . intro name m hm
      have hmodule := h.modules name
      split at hmodule
      . rw [hm] at hmodule
        contradiction
      . simpa [hm] using hmodule
  . intro h
    refine ⟨h.settings, h.allowedUsers, h.deniedUsers, ?_⟩
    intro name
    cases hm : c.modules.lookup name with
    | none =>
      split
      . rfl
      . exact ⟨fun _ => .inr rfl, rfl, rfl, fun _ => .inr rfl⟩
    | some m =>
      rw [if_neg (h.declared name m hm)]
      exact h.modules name m hm

/--
A successful reload gives the settings of a fresh load exactly if the file hides all that was loaded
before it.
-/
theorem reload_sameSettings_iff {machine : Machine} {c c' d : Configuration}
    (hreload : c.reload machine = (.ok true, c'))
    (hfresh : ({} : Configuration).loadFromFile machine c.configFilePath = (.ok true, d))
    : c'.SameSettings d ↔ c.Overridden (fileOutcome machine c.configFilePath).2 := by
  have hload : c.loadFromFile machine c.configFilePath = (.ok true, c') := by
    unfold reload at hreload
    split at hreload
    . simp at hreload
    . exact hreload
  have hc' := (loads_loadFromFile machine c c.configFilePath).same.toSameSettings
  have hd := (loads_loadFromFile machine {} c.configFilePath).same.toSameSettings
  rw [hload] at hc'
  rw [hfresh] at hd
  rw [← forgotten_new_iff, ← sameSettings_assign_iff]
  constructor
  . intro h
    exact hc'.symm.trans (h.trans hd)
  . intro h
    exact hc'.trans (h.trans hd.symm)

/--
A machine whose files are the directory `/m` and the configuration file `/c`.
-/
def machineWith (text : String) : Machine where
  fs := {
    entries := [
      (⟨bytes "m", isName_m⟩, .dir []),
      (⟨bytes "c", by decide⟩, .file (bytes text))
    ]
  }
  json := .unavailable
  yaml := .unavailable

/--
What a new `Configuration` makes of the file `/c` with that text.
-/
def loaded (text : String) : Configuration :=
  (({} : Configuration).loadFromFile (machineWith text) (bytes "/c")).2

/--
The same after a reload, once the text of the file has been replaced.
-/
def reloaded (text text' : String) : Configuration :=
  ((loaded text).reload (machineWith text')).2

theorem loaded_eq {text : String}
    (h : (({} : Configuration).loadFromFile (machineWith text) (bytes "/c")).1 = .ok true)
    : ({} : Configuration).loadFromFile (machineWith text) (bytes "/c") = (.ok true, loaded text) := by
  rw [loaded, ← h]

theorem reloaded_eq {text text' : String} (h : ((loaded text).reload (machineWith text')).1 = .ok true)
    : (loaded text).reload (machineWith text') = (.ok true, reloaded text text') := by
  rw [reloaded, ← h]

theorem overridden_same_text
    : (reloaded "port=874\n[module:a]\npath=/m\n" "port=874\n[module:a]\npath=/m\n").SameSettings
        (loaded "port=874\n[module:a]\npath=/m\n")
      ∧ (loaded "port=874\n[module:a]\npath=/m\n").Overridden
          (fileOutcome (machineWith "port=874\n[module:a]\npath=/m\n")
            (loaded "port=874\n[module:a]\npath=/m\n").configFilePath).2 := by
  have hpath : (loaded "port=874\n[module:a]\npath=/m\n").configFilePath = bytes "/c" := by decide +kernel
  have hsame : (reloaded "port=874\n[module:a]\npath=/m\n" "port=874\n[module:a]\npath=/m\n").SameSettings
      (loaded "port=874\n[module:a]\npath=/m\n") := by
    refine ⟨?_, ?_, ?_, ?_, ?_, ?_⟩ <;> decide +kernel
  refine ⟨hsame, (reload_sameSettings_iff (reloaded_eq ?_) ?_).mp hsame⟩
  . decide +kernel
  . rw [hpath]
    exact loaded_eq (by decide +kernel)

/--
A module that has been removed from the file is still there after the reload.
-/
theorem not_sameSettings_removed_module
    : (({} : Configuration).loadFromFile (machineWith "[module:a]\npath=/m\n") (bytes "/c")).1 = .ok true
      ∧ ((loaded "[module:a]\npath=/m\n").reload (machineWith "[module:b]\npath=/m\n")).1 = .ok true
      ∧ (({} : Configuration).loadFromFile (machineWith "[module:b]\npath=/m\n") (bytes "/c")).1 = .ok true
      ∧ ¬(reloaded "[module:a]\npath=/m\n" "[module:b]\npath=/m\n").SameSettings
          (loaded "[module:b]\npath=/m\n") := by
  refine ⟨by decide +kernel, by decide +kernel, by decide +kernel, ?_⟩
  intro h
  have hmodules := congrArg (·.lookup (bytes "a")) h.modules
  revert hmodules
  decide +kernel

end Configuration
end SimpleRsyncd
