import SimpleRsyncd.Config.Watch
import SimpleRsyncd.Daemon.Lifetime

/-!
This module determines what the thread that watches the configuration file does. It asks for a flag
that nothing ever sets, and so it never reloads.
-/

namespace SimpleRsyncd

open Configuration

namespace RSyncDaemon

/--
A modified file makes the monitor attempt a reload, and once that has succeeded it attempts no other
one until the file is modified again.
-/
structure Notices (machine : Machine) (d : RSyncDaemon) : Prop where
  modified : ∀ c ∈ d.config, c.Modified machine → (d.monitor machine).1 = true
  reloaded : ∀ d', d.reloadConfig machine = (.ok true, d') →
    ∀ machine', (∀ c ∈ d'.config, ¬c.Modified machine') → (d'.monitor machine').1 = false

/--
The flag of the configuration is not set.
-/
def Unflagged (d : RSyncDaemon) : Prop :=
  ∀ c ∈ d.config, c.hasChanged = false

namespace Unflagged

variable {machine : Machine} {d d' : RSyncDaemon}

theorem congr (h : d.Unflagged) (hconfig : d'.config = d.config) : d'.Unflagged := by
  rwa [Unflagged, hconfig]

theorem some_config {c : Configuration} (h : c.hasChanged = false) (hconfig : d'.config = some c)
    : d'.Unflagged := by
  intro c' hmem
  rw [hconfig] at hmem
  obtain rfl := Option.some.inj hmem
  exact h

theorem validateConfiguration (h : d.Unflagged) : (d.validateConfiguration machine).2.Unflagged := by
  cases hc : d.config with
  | none => exact h.congr (by simp [RSyncDaemon.validateConfiguration, hc])
  | some c =>
    have hvalidated : (c.validate machine.fs).2.hasChanged = false := h c hc
    exact some_config hvalidated (by simp [RSyncDaemon.validateConfiguration, hc])

theorem loadModules (h : d.Unflagged) : (d.loadModules machine).2.Unflagged := by
  apply h.congr
  unfold RSyncDaemon.loadModules
  split <;> rfl

theorem initializeSSL (h : d.Unflagged) (outcome : StartOutcome) : (d.initializeSSL outcome).2.Unflagged := by
  apply h.congr
  unfold RSyncDaemon.initializeSSL
  split
  . rfl
  . split <;> rfl

theorem beginRunning (h : d.Unflagged) : d.beginRunning.Unflagged := by
  apply h.congr
  unfold RSyncDaemon.beginRunning
  split
  . rfl
  . split <;> rfl

theorem start (h : d.Unflagged) (outcome : StartOutcome) : (d.start machine outcome).2.Unflagged := by
  have hvalidated := (h.validateConfiguration : (d.validateConfiguration machine).2.Unflagged)
  unfold RSyncDaemon.start
  split
  . exact h
  . generalize d.validateConfiguration machine = result at hvalidated ⊢
    rcases result with ⟨e | _ | _, d₁⟩
    . exact hvalidated
    . exact hvalidated
    . have hloaded := (hvalidated.loadModules : (d₁.loadModules machine).2.Unflagged)
      dsimp only
      generalize d₁.loadModules machine = result at hloaded ⊢
      rcases result with ⟨_ | _, d₂⟩
      . exact hloaded
      . have hinitialized := hloaded.initializeSSL outcome
        dsimp only
        generalize d₂.initializeSSL outcome = result at hinitialized ⊢
        rcases result with ⟨_ | _, d₃⟩
        . exact hinitialized
        . dsimp only
          split
          . exact hinitialized.beginRunning
          . exact hinitialized

theorem reloadConfig (h : d.Unflagged) : (d.reloadConfig machine).2.Unflagged := by
  unfold RSyncDaemon.reloadConfig
  split
  . exact h
  . next c hc =>
    have hreload : (c.reload machine).2.hasChanged = false := hasChanged_reload (h c hc)
    generalize c.reload machine = result at hreload ⊢
    rcases result with ⟨e | _ | _, c'⟩
    . exact some_config hreload rfl
    . exact some_config hreload rfl
    . have hvalidated : (RSyncDaemon.validateConfiguration machine { d with config := some c' }).2.Unflagged :=
        validateConfiguration (some_config hreload rfl)
      dsimp only
      generalize RSyncDaemon.validateConfiguration machine { d with config := some c' } = result at hvalidated ⊢
      rcases result with ⟨e | _ | _, d₁⟩
      . exact hvalidated
      . exact hvalidated
      . exact hvalidated.loadModules

/--
The monitor finds nothing to do.
-/
theorem monitor (h : d.Unflagged) : d.monitor machine = (false, d) := by
  have hnone : d.config.any (·.hasChanged) = false := by
    cases hc : d.config with
    | none => rfl
    | some c => exact h c hc
  simp [RSyncDaemon.monitor, hnone]

end Unflagged
end RSyncDaemon

namespace Lifetime

variable {l l' : Lifetime} {machine machine' : Machine}

theorem unflagged_step {lifetimeStep : LifetimeStep} (h : l.daemon.Unflagged) (hstep : step l lifetimeStep l')
    : l'.daemon.Unflagged := by
  unfold step perform at hstep
  cases lifetimeStep with
  | start machine outcome =>
    obtain rfl := Option.some.inj hstep
    have hstarted : (l.daemon.start machine outcome).2.Unflagged := h.start outcome
    unfold start
    split
    . next heq =>
      rw [heq] at hstarted
      split
      . exact h
      . exact hstarted
    . next heq =>
      rw [heq] at hstarted
      exact hstarted
  | stop =>
    obtain rfl := Option.some.inj hstep
    unfold stop
    split
    . exact h.congr rfl
    . exact h
  | reloadConfig machine =>
    obtain rfl := Option.some.inj hstep
    exact h.reloadConfig
  | checkAccept | accept | checkMonitor =>
    obtain ⟨-, heq⟩ := Option.ite_none_right_eq_some.mp hstep
    obtain rfl := Option.some.inj heq
    exact h
  | monitor machine =>
    obtain ⟨-, heq⟩ := Option.ite_none_right_eq_some.mp hstep
    split at heq
    . obtain rfl := Option.some.inj heq
      exact h
    . obtain rfl := Option.some.inj heq
      change (l.daemon.monitor machine).2.Unflagged
      -- without the flag the monitor only looks at it
      rw [h.monitor]
      exact h

theorem unflagged_of_run {c : Configuration} {calls : List Call} {lifetimeSteps : List LifetimeStep}
    (hconfig : Configuration.step.Run {} calls c)
    (hrun : step.Run (new machine (some c)) lifetimeSteps l)
    : l.daemon.Unflagged :=
  hrun.invariant (.some_config (hasChanged_of_run hconfig) rfl) fun _ _ _ => unflagged_step

/--
A modification is never noticed: whatever has been done to the configuration and the daemon that shares
it, the check that nobody makes would find the file modified, but the monitor does not.
-/
theorem not_notices_of_run {c c' : Configuration} {calls : List Call} {lifetimeSteps : List LifetimeStep}
    (hconfig : Configuration.step.Run {} calls c)
    (hrun : step.Run (new machine (some c)) lifetimeSteps l)
    (hc : l.daemon.config = some c') (hmodified : c'.Modified machine')
    : c'.checkFileChanged machine' = true ∧ ¬l.daemon.Notices machine' := by
  refine ⟨checkFileChanged_iff.mpr hmodified, ?_⟩
  intro hnotices
  have hattempt := hnotices.modified c' hc hmodified
  rw [(unflagged_of_run hconfig hrun).monitor] at hattempt
  contradiction

def watchedFile : Call :=
  .loadFromFile (machineWith "[module:a]\npath=/m\n") (bytes "/c")

def autoReloading : Call :=
  .edit { loaded "[module:a]\npath=/m\n" with autoReload := true }

def watched : Configuration :=
  (call {} watchedFile).call autoReloading

/--
A started daemon that watches its configuration file.
-/
def watching : Lifetime :=
  start (new (machineWith "[module:a]\npath=/m\n") (some watched)) (machineWith "[module:a]\npath=/m\n") {}

theorem step_watching
    : step (new (machineWith "[module:a]\npath=/m\n") (some watched))
        (.start (machineWith "[module:a]\npath=/m\n") {}) watching := rfl

/--
The machine five nanoseconds later, when the file has been given another module.
-/
def touched : Machine :=
  { machineWith "[module:b]\npath=/m\n" with now := 5, lastWriteTime := fun _ => some 5 }

theorem modified_watching : ∃ c, watching.daemon.config = some c ∧ c.Modified touched := by
  have hsome : watching.daemon.config.isSome := by decide +kernel
  obtain ⟨c, hc⟩ := Option.isSome_iff_exists.mp hsome
  have hpath : ∀ c ∈ watching.daemon.config, c.configFilePath = bytes "/c" ∧ c.lastModified = 0 := by
    decide +kernel
  obtain ⟨hfile, htime⟩ := hpath c hc
  refine ⟨c, hc, by simp [hfile, bytes], 5, rfl, ?_⟩
  rw [htime]
  decide

theorem not_notices_single_run
    : ∃ c ∈ watching.daemon.config, c.checkFileChanged touched = true ∧ ¬watching.daemon.Notices touched := by
  obtain ⟨c, hc, hmodified⟩ := modified_watching
  have hconfig : Configuration.step.Run {} [watchedFile, autoReloading] watched :=
    .cons (step_call {} watchedFile) (.single (step_call _ autoReloading))
  exact ⟨c, hc, not_notices_of_run hconfig (.single step_watching) hc hmodified⟩

/--
The monitor wakes up after the file has been modified, and does nothing.
-/
theorem not_notices_single
    : watching.monitorThread = some .head ∧ ¬watching.daemon.Notices touched := by
  refine ⟨by decide +kernel, ?_⟩
  intro hnotices
  obtain ⟨c, hc, hmodified⟩ := modified_watching
  have hnone : (watching.daemon.monitor touched).1 = false := by decide +kernel
  exact Bool.false_ne_true (hnone.symm.trans (hnotices.modified c hc hmodified))

end Lifetime
end SimpleRsyncd
