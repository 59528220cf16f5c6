import Mathlib.Data.Prod.Basic
import SimpleRsyncd.Config.Reload
import SimpleRsyncd.Daemon.Lifecycle

/-!
This module determines what `reloadConfig` leaves behind, both when it succeeds and when it fails.
-/

namespace SimpleRsyncd
namespace RSyncDaemon

open Configuration

variable {machine : Machine} {d d' : RSyncDaemon} {c : Configuration}

/--
Only the security section and the modules of a configuration matter for the modules that are loaded.
-/
theorem loadedModules_congr {c c' : Configuration} (h : c.SameSettings c')
    : loadedModules machine c = loadedModules machine c' := by
  unfold loadedModules securedModule
  rw [h.security, h.modules]

section mk

variable {modules : OrderedMap Bytes Module} {authManager : Option AuthenticationManager}
  {sslContext : Option SSLContext} {rateLimiter : Option ConnectionRateLimiter} {running : Bool}

theorem validateConfiguration_mk
    : (mk (some c) modules authManager sslContext rateLimiter running).validateConfiguration machine
      = ((c.validate machine.fs).1,
          ⟨some (c.validate machine.fs).2, modules, authManager, sslContext, rateLimiter, running⟩) := rfl

theorem loadModules_mk
    : (mk (some c) modules authManager sslContext rateLimiter running).loadModules machine
      = (!(loadedModules machine c).entries.isEmpty,
          ⟨some c, loadedModules machine c, authManager, sslContext, rateLimiter, running⟩) := rfl

theorem initializeSSL_mk {outcome : StartOutcome}
    : (mk (some c) modules authManager sslContext rateLimiter running).initializeSSL outcome
      = (!c.ssl.enabled || outcome.initializesSSL c.ssl,
          {
            config := some c
            modules
            authManager
            sslContext :=
              if c.ssl.enabled then some { initialized := outcome.initializesSSL c.ssl } else sslContext
            rateLimiter
            running
          }) := by
  unfold initializeSSL
  cases henabled : c.ssl.enabled <;> simp [henabled]

theorem beginRunning_mk
    : (mk (some c) modules authManager sslContext rateLimiter running).beginRunning
      = {
          config := some c
          modules
          authManager
          sslContext
          rateLimiter :=
            if c.rateLimit.enabled then
              some ⟨c.rateLimit.maxConnectionsPerMinute, c.rateLimit.maxConnectionsPerHour⟩
            else
              rateLimiter
          running := true
        } := by
  unfold beginRunning
  cases henabled : c.rateLimit.enabled <;> simp [henabled]

end mk

/--
The file has been read to its end and the configuration is valid, which is when the modules are replaced.
-/
def ReplacesModules (machine : Machine) (outcome : Bool × List Assignment) (c : Configuration) : Prop :=
  outcome.1 = true ∧ (c.validate machine.fs).1 = .ok true

instance {outcome : Bool × List Assignment} : Decidable (ReplacesModules machine outcome c) :=
  inferInstanceAs (Decidable (_ ∧ _))

theorem replacesModules_congr {outcome : Bool × List Assignment} {c c' : Configuration} (h : c.Same c')
    : ReplacesModules machine outcome c ↔ ReplacesModules machine outcome c' := by
  unfold ReplacesModules
  rw [h.toSameSettings.validate]

/--
The settings a reload ends with are those from before under the assignments of the file. Everything the
daemon keeps besides the settings and the modules is left as it is.
-/
theorem reloadConfig_spec {loaded : Bool} (hc : d.config = some c)
    (h : d.reloadConfig machine = (.ok loaded, d'))
    : ∃ c' : Configuration,
        c'.Same (c.assign (fileOutcome machine c.configFilePath).2)
          ∧ d' = {
            d with
            config := some c'
            modules :=
              if ReplacesModules machine (fileOutcome machine c.configFilePath) c' then
                loadedModules machine c'
              else
                d.modules
          }
          ∧ (loaded = true ↔ ReplacesModules machine (fileOutcome machine c.configFilePath) c'
            ∧ (loadedModules machine c').entries ≠ []) := by
  obtain ⟨hsame, hreturns⟩ := loads_reload machine c
  replace hreturns := hreturns.trans (replacesModules_congr hsame).symm
  unfold reloadConfig at h
  rw [hc] at h
  simp only at h
  cases hreload : c.reload machine with
  | mk result c₁ =>
    rw [hreload] at hsame hreturns h
    rcases result with e | _ | _
    . simp at h
    . obtain ⟨rfl, rfl⟩ : false = loaded ∧ { d with config := some c₁ } = d' := by simpa using h
      have hnot : ¬ReplacesModules machine (fileOutcome machine c.configFilePath) c₁ := by
        simpa using hreturns
      exact ⟨c₁, hsame, by rw [if_neg hnot], by simp [hnot]⟩
    . have hreplaces : ReplacesModules machine (fileOutcome machine c.configFilePath) c₁ := by
        simpa using hreturns
      -- the second validation finds the same errors and cannot fail
      simp only [validateConfiguration_mk, hreplaces.2, reloadModules, loadModules_mk] at h
      have hvalidated := (replacesModules_congr (same_validate machine.fs c₁)).mpr hreplaces
      simp only [Prod.mk.injEq, Except.ok.injEq] at h
      obtain ⟨rfl, rfl⟩ := h
      refine ⟨(c₁.validate machine.fs).2, (same_validate machine.fs c₁).trans hsame, ?_, ?_⟩
      . rw [if_pos hvalidated]
      . simp [hvalidated]

/--
A daemon that has been started with that configuration file.
-/
def started (text : String) : RSyncDaemon :=
  ((new (machineWith text) (some (loaded text))).start (machineWith text) {}).2

theorem reloadConfig_eq {result : Except LoadError Bool} (h : (d.reloadConfig machine).1 = result)
    : d.reloadConfig machine = (result, (d.reloadConfig machine).2) :=
  Prod.fst_eq_iff.mp h

end RSyncDaemon
end SimpleRsyncd
