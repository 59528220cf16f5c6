import SimpleRsyncd.Daemon.Reload

/-!
This module determines when a failed reload keeps the old configuration. The settings are assigned in
place while the file is read and the module map is cleared before it is filled again, nothing of this
is undone.
-/

namespace SimpleRsyncd
namespace RSyncDaemon

open Configuration

/--
The settings and the modules of the daemon are those from before.
-/
structure Kept (d d' : RSyncDaemon) : Prop where
  config : Option.Rel Configuration.Same d'.config d.config
  modules : d'.modules = d.modules

/--
The file assigns nothing new before it is given up, and if it is not given up there are no modules
that could be lost.
-/
structure NothingToLose (machine : Machine) (d : RSyncDaemon) : Prop where
  unaffected : ∀ c ∈ d.config, c.Unaffected (fileOutcome machine c.configFilePath).2
  modules : ∀ c ∈ d.config,
    ReplacesModules machine (fileOutcome machine c.configFilePath) c → d.modules = .empty

theorem modules_eq_empty {κ ν : Type} [KeyOrder κ] {m : OrderedMap κ ν} (h : m.entries = []) : m = .empty := by
  obtain ⟨entries, sorted⟩ := m
  subst h
  rfl

theorem reloadConfig_kept_iff {machine : Machine} {d d' : RSyncDaemon}
    (h : d.reloadConfig machine = (.ok false, d'))
    : d.Kept d' ↔ d.NothingToLose machine := by
  cases hc : d.config with
  | none =>
    have hd' : d = d' := by simpa [reloadConfig, hc] using h
    subst hd'
    constructor
    . intro _
      refine ⟨?_, ?_⟩ <;> simp [hc]
    . intro _
      exact ⟨by rw [hc]; exact .none, rfl⟩
  | some c =>
    obtain ⟨c', hsame, rfl, hloaded⟩ := reloadConfig_spec hc h
    -- where the reload gets to the modules, none of them could be loaded
    have hempty : ReplacesModules machine (fileOutcome machine c.configFilePath) c'
        → loadedModules machine c' = .empty := by
      intro hreplaces
      apply modules_eq_empty
      simpa [hreplaces] using hloaded
    constructor
    . rintro ⟨hconfig, hmodules⟩
      rw [hc] at hconfig
      cases hconfig with
      | some hkept =>
        refine ⟨?_, ?_⟩
        . simp only [hc, Option.mem_some_iff, forall_eq']
          exact same_assign_self_iff.mp (hsame.symm.trans hkept)
        . simp only [hc, Option.mem_some_iff, forall_eq']
          intro hreplaces
          have := (replacesModules_congr hkept).mpr hreplaces
          rw [← hmodules, if_pos this, hempty this]
    . rintro ⟨hunaffected, hmodules⟩
      simp only [hc, Option.mem_some_iff, forall_eq'] at hunaffected hmodules
      have hkept := hsame.trans (same_assign_self_iff.mpr hunaffected)
      refine ⟨?_, ?_⟩
      . rw [hc]
        exact .some hkept
      . split
        . next hreplaces =>
          rw [hempty hreplaces, hmodules ((replacesModules_congr hkept).mp hreplaces)]
        . rfl

/--
The machine after the configuration file has been removed.
-/
def withoutFile : Machine where
  fs := { entries := [(⟨bytes "m", isName_m⟩, .dir [])] }
  json := .unavailable
  yaml := .unavailable

theorem kept_without_file
    : (started "[module:a]\npath=/m\n").Kept
        ((started "[module:a]\npath=/m\n").reloadConfig withoutFile).2
      ∧ (started "[module:a]\npath=/m\n").NothingToLose withoutFile := by
  have hpath : ∀ c ∈ (started "[module:a]\npath=/m\n").config, c.configFilePath = bytes "/c" := by
    decide +kernel
  have hread : (fileOutcome withoutFile (bytes "/c")).1 = false := by decide +kernel
  have hassigned : (fileOutcome withoutFile (bytes "/c")).2 = [] :=
    List.isEmpty_iff.mp (by decide +kernel)
  have hnothing : (started "[module:a]\npath=/m\n").NothingToLose withoutFile := by
    refine ⟨?_, ?_⟩
    . intro c hc
      rw [hpath c hc, hassigned]
      exact same_assign_self_iff.mp ⟨⟨rfl, rfl, rfl, rfl, rfl, rfl⟩, rfl, rfl, rfl, rfl, rfl, rfl⟩
    . intro c hc hreplaces
      rw [ReplacesModules, hpath c hc, hread] at hreplaces
      exact absurd hreplaces.1 (by decide)
  exact ⟨(reloadConfig_kept_iff (reloadConfig_eq (by decide +kernel))).mpr hnothing, hnothing⟩

/--
A limit that is refused is in force after the reload, and a module directory that cannot be found
leaves the daemon without modules.
-/
theorem not_kept_invalid_file
    : (started "[module:a]\npath=/m\n").running = true
      ∧ ((started "[module:a]\npath=/m\n").reloadConfig (machineWith "max_connections=0\n")).1 = .ok false
      ∧ ¬(started "[module:a]\npath=/m\n").Kept
          ((started "[module:a]\npath=/m\n").reloadConfig (machineWith "max_connections=0\n")).2
      ∧ ((started "[module:a]\npath=/m\n").reloadConfig (machineWith "[module:a]\npath=/n\n")).1 = .ok false
      ∧ ((started "[module:a]\npath=/m\n").reloadConfig
          (machineWith "[module:a]\npath=/n\n")).2.modules.entries = []
      ∧ (started "[module:a]\npath=/m\n").modules.entries ≠ [] := by
  refine ⟨by decide +kernel, by decide +kernel, ?_, by decide +kernel, by decide +kernel, by decide +kernel⟩
  rintro ⟨hconfig, -⟩
  have hnetwork : ∀ {o o' : Option Configuration}, Option.Rel Configuration.Same o o'
      → o.map (·.network.maxConnections) = o'.map (·.network.maxConnections) := by
    intro o o' h
    cases h with
    | some h => simp [h.network]
    | none => rfl
  exact absurd (hnetwork hconfig) (by decide +kernel)

end RSyncDaemon
end SimpleRsyncd
