import SimpleRsyncd.Daemon.Lifetime

/-!
This module determines in which lifetimes a daemon that is running also accepts connections. A daemon
that has been stopped once never does again, and a failed `accept` can end the loop for good.
-/

namespace SimpleRsyncd

namespace RSyncDaemon

variable (machine : Machine) (d : RSyncDaemon)

@[simp]
theorem running_reloadConfig : (d.reloadConfig machine).2.running = d.running := by
  cases hc : d.config with
  | none => simp [reloadConfig, hc]
  | some c =>
    obtain ⟨c', modules, -, heq⟩ := reloadConfig_snd machine hc
    rw [heq]

@[simp]
theorem running_monitor : (d.monitor machine).2.running = d.running := by
  unfold monitor
  split
  . exact running_reloadConfig machine d
  . rfl

end RSyncDaemon

namespace Lifetime

open Configuration

variable {l l' : Lifetime} {machine : Machine} {outcome : StartOutcome}

/--
The accept thread has been started and has not left its loop.
-/
def serves (l : Lifetime) : Bool :=
  l.acceptThread.any (· ≠ .exited)

/--
A daemon that is up is running, and its accept loop goes on.
-/
def Accepting (l : Lifetime) : Prop :=
  l.up = true → l.daemon.running = true ∧ l.serves = true ∧ l.keepsRunning = true

/--
The steps that leave the accept loop going: `accept` does not fail for good, and a start that brings
the daemon up finds that no shutdown has been requested.
-/
def Undisturbed (l : Lifetime) : LifetimeStep → Prop
  | .start machine outcome =>
    l.daemon.running = false → l.daemon.CanStart machine outcome → l.shutdownRequested = false
  | .accept result => result.continues = true
  | _ => True

/--
The flags and the accept thread fit each other.
-/
structure Sound (l : Lifetime) : Prop where
  up : l.up = l.daemon.running
  serving : l.daemon.running = true → l.shutdownRequested = false ∧ l.serves = true
  resting : l.daemon.running = false → l.acceptThread = none

theorem sound_new (machine : Machine) (config : Option Configuration) : (new machine config).Sound where
  up := rfl
  serving := by simp [new, RSyncDaemon.new]
  resting := fun _ => rfl

theorem Sound.accepting (h : l.Sound) : l.Accepting := by
  intro hup
  have hrunning : l.daemon.running = true := h.up ▸ hup
  obtain ⟨hshutdown, hserves⟩ := h.serving hrunning
  exact ⟨hrunning, hserves, by simp [keepsRunning, hrunning, hshutdown]⟩

/--
A thread in its loop belongs to a running daemon.
-/
theorem Sound.running (h : l.Sound) {point : LoopPoint} (hthread : l.acceptThread = some point)
    : l.daemon.running = true := by
  by_contra hnot
  have := h.resting (by simpa using hnot)
  rw [this] at hthread
  contradiction

/--
What a start does, depending on whether the daemon runs already.
-/
theorem start_cases (l : Lifetime) (machine : Machine) (outcome : StartOutcome)
    : (l.daemon.running = true ∧ l.start machine outcome = { l with up := true })
        ∨ l.daemon.running = false
          ∧ ((l.daemon.CanStart machine outcome ∧ ∃ d monitorThread, d.running = true
              ∧ l.start machine outcome
                = { l with daemon := d, acceptThread := some .head, monitorThread, up := true })
            ∨ ¬l.daemon.CanStart machine outcome ∧ ∃ d, d.running = false
              ∧ l.start machine outcome = { l with daemon := d }) := by
  cases hrunning : l.daemon.running with
  | true =>
    refine .inl ⟨rfl, ?_⟩
    simp [start, RSyncDaemon.start_of_running machine outcome hrunning, hrunning]
  | false =>
    refine .inr ⟨rfl, ?_⟩
    obtain ⟨hcan, hruns⟩ := RSyncDaemon.start_of_not_running machine outcome hrunning
    unfold start
    rcases hresult : l.daemon.start machine outcome with ⟨result, d⟩
    simp only [hresult] at hcan hruns
    rw [← hcan]
    rcases result with e | _ | _
    . refine .inr ⟨by simp, d, ?_, rfl⟩
      simpa using hruns
    . refine .inr ⟨by simp, d, ?_, rfl⟩
      simpa using hruns
    . refine .inl ⟨rfl, d, if d.config.any (·.autoReload) then some .head else none, hruns.mp rfl, ?_⟩
      simp only [hrunning, Bool.false_eq_true, ↓reduceIte]

theorem Sound.start (h : l.Sound) (hundisturbed : l.Undisturbed (.start machine outcome))
    : (l.start machine outcome).Sound := by
  rcases l.start_cases machine outcome with
    ⟨hrunning, heq⟩ | ⟨hrunning, ⟨hcan, d, thread, hd, heq⟩ | ⟨-, d, hd, heq⟩⟩
  . rw [heq]
    exact ⟨hrunning.symm, h.serving, h.resting⟩
  . rw [heq]
    exact ⟨hd.symm, fun _ => ⟨hundisturbed hrunning hcan, rfl⟩, by simp [hd]⟩
  . rw [heq]
    exact ⟨by rw [h.up, hrunning, hd], by simp [hd], fun _ => h.resting hrunning⟩

theorem Sound.stop (h : l.Sound) : l.stop.Sound := by
  unfold Lifetime.stop
  split
  . exact ⟨rfl, by simp [RSyncDaemon.unloadModules], fun _ => rfl⟩
  . next hrunning =>
    exact ⟨by simpa using hrunning, h.serving, h.resting⟩

/--
A step that touches neither a flag nor the accept thread.
-/
theorem Sound.congr (h : l.Sound) (hup : l'.up = l.up) (hrunning : l'.daemon.running = l.daemon.running)
    (hshutdown : l'.shutdownRequested = l.shutdownRequested) (hthread : l'.acceptThread = l.acceptThread)
    : l'.Sound := by
  obtain ⟨hsame, hserving, hresting⟩ := h
  refine ⟨by rw [hup, hrunning, hsame], ?_, by rwa [hrunning, hthread]⟩
  rwa [hrunning, hshutdown, serves, hthread]

/--
The accept thread moves inside its loop.
-/
theorem Sound.move (h : l.Sound) (hrunning : l.daemon.running = true) {point : LoopPoint}
    (hpoint : point ≠ .exited)
    : Sound { l with acceptThread := some point } where
  up := h.up
  serving := fun _ => ⟨(h.serving hrunning).1, by simpa [serves] using hpoint⟩
  resting := by simp [hrunning]

theorem Sound.step (h : l.Sound) {lifetimeStep : LifetimeStep} (hundisturbed : l.Undisturbed lifetimeStep)
    (hstep : step l lifetimeStep l')
    : l'.Sound := by
  unfold Lifetime.step perform at hstep
  cases lifetimeStep with
  | start machine outcome =>
    obtain rfl := Option.some.inj hstep
    exact h.start hundisturbed
  | stop =>
    obtain rfl := Option.some.inj hstep
    exact h.stop
  | reloadConfig machine =>
    obtain rfl := Option.some.inj hstep
    exact h.congr rfl (by simp) rfl rfl
  | checkAccept =>
    obtain ⟨hthread, heq⟩ := Option.ite_none_right_eq_some.mp hstep
    obtain rfl := Option.some.inj heq
    have hrunning := h.running hthread
    -- nothing has asked the daemon to stop, so its thread goes on
    have hkeeps : l.keepsRunning = true := by simp [keepsRunning, hrunning, (h.serving hrunning).1]
    exact h.move hrunning (by simp [checkLoop, hkeeps])
  | accept result =>
    obtain ⟨hthread, heq⟩ := Option.ite_none_right_eq_some.mp hstep
    obtain rfl := Option.some.inj heq
    have hcontinues : result.continues = true := hundisturbed
    exact h.move (h.running hthread) (by simp [hcontinues])
  | checkMonitor =>
    obtain ⟨-, heq⟩ := Option.ite_none_right_eq_some.mp hstep
    obtain rfl := Option.some.inj heq
    exact h.congr rfl rfl rfl rfl
  | monitor machine =>
    obtain ⟨-, heq⟩ := Option.ite_none_right_eq_some.mp hstep
    split at heq
    . obtain rfl := Option.some.inj heq
      exact h.congr rfl rfl rfl rfl
    . obtain rfl := Option.some.inj heq
      exact h.congr rfl (by simp) rfl rfl

/--
A disturbed step leaves a daemon that is up and does not accept.
-/
theorem Sound.undisturbed (h : l.Sound) {lifetimeStep : LifetimeStep} (hstep : Lifetime.step l lifetimeStep l')
    (haccepting : l'.Accepting)
    : l.Undisturbed lifetimeStep := by
  unfold Lifetime.step perform at hstep
  cases lifetimeStep with
  | start machine outcome =>
    obtain rfl := Option.some.inj hstep
    intro hrunning hcan
    rcases l.start_cases machine outcome with
      ⟨hrunning', -⟩ | ⟨-, ⟨-, d, thread, -, heq⟩ | ⟨hcannot, -⟩⟩
    . simp [hrunning] at hrunning'
    . rw [heq] at haccepting
      have hkeeps := (haccepting rfl).2.2
      simp only [keepsRunning, Bool.and_eq_true, Bool.not_eq_true'] at hkeeps
      exact hkeeps.2
    . exact absurd hcan hcannot
  | accept result =>
    obtain ⟨hthread, heq⟩ := Option.ite_none_right_eq_some.mp hstep
    obtain rfl := Option.some.inj heq
    have hup : l.up = true := h.up.trans (h.running hthread)
    have hserves := (haccepting hup).2.1
    change result.continues = true
    by_contra hnot
    simp [serves, hnot] at hserves
  | stop | reloadConfig | checkAccept | checkMonitor | monitor => exact trivial

theorem step_unique {lifetimeStep : LifetimeStep} {l₁ l₂ : Lifetime} (h₁ : step l lifetimeStep l₁)
    (h₂ : step l lifetimeStep l₂)
    : l₁ = l₂ :=
  Option.some.inj (h₁.symm.trans h₂)

/--
Whenever a daemon is up it is accepting, if and only if no step of its lifetime is disturbed.
-/
theorem accepting_iff_undisturbed {config : Option Configuration} {lifetimeSteps : List LifetimeStep}
    (hrun : step.Run (new machine config) lifetimeSteps l)
    : step.Always (new machine config) Accepting lifetimeSteps
        ↔
      (step.restrict Undisturbed).Run (new machine config) lifetimeSteps l :=
  Transition.always_iff_restrict hrun (fun _ _ _ _ => step_unique) (sound_new machine config)
    (fun _ _ _ h hundisturbed hstep => h.step hundisturbed hstep) (fun _ h => h.accepting)
    (fun _ _ _ h hstep haccepting => h.undisturbed hstep haccepting)

/--
A new daemon with one module.
-/
def single : Lifetime :=
  new (machineWith "[module:a]\npath=/m\n") (some (loaded "[module:a]\npath=/m\n"))

def singleStart : LifetimeStep :=
  .start (machineWith "[module:a]\npath=/m\n") {}

def singleStarted : Lifetime :=
  single.start (machineWith "[module:a]\npath=/m\n") {}

theorem step_start (l : Lifetime) (machine : Machine) (outcome : StartOutcome)
    : step l (.start machine outcome) (l.start machine outcome) := rfl

theorem step_stop (l : Lifetime) : step l .stop l.stop := rfl

theorem step_checkAccept (h : l.acceptThread = some .head)
    : step l .checkAccept { l with acceptThread := some l.checkLoop } :=
  if_pos h

theorem step_accept (h : l.acceptThread = some .body) (result : AcceptResult)
    : step l (.accept result)
        { l with acceptThread := some (if result.continues then .head else .exited) } :=
  if_pos h

theorem acceptThread_singleStarted : singleStarted.acceptThread = some .head := by
  decide +kernel

theorem checkLoop_singleStarted : singleStarted.checkLoop = .body := by
  decide +kernel

theorem up_singleStarted : singleStarted.up = true := by
  decide +kernel

theorem step_singleStart : step single singleStart singleStarted :=
  step_start single _ _

/--
The accept thread of a new daemon gets a result.
-/
theorem run_accept (h : l.acceptThread = some .head) (hloop : l.checkLoop = .body) (result : AcceptResult)
    : ∃ l', step.Run l [.checkAccept, .accept result] l' ∧ l'.up = l.up ∧ l'.serves = result.continues := by
  refine ⟨_, .cons (step_checkAccept h) (.single (step_accept (by rw [hloop]) result)), rfl, ?_⟩
  cases result.continues <;> simp [serves]

theorem accepting_single_client
    : step.Always single Accepting [singleStart, .checkAccept, .accept .client] := by
  have hbody : ({ singleStarted with acceptThread := some singleStarted.checkLoop } : Lifetime).acceptThread
      = some .body := congrArg some checkLoop_singleStarted
  have hrun : (step.restrict Undisturbed).Run single [singleStart, .checkAccept, .accept .client] _ :=
    .cons ⟨fun _ _ => rfl, step_singleStart⟩
      (.cons ⟨trivial, step_checkAccept acceptThread_singleStarted⟩
        (.single ⟨rfl, step_accept hbody .client⟩))
  exact (accepting_iff_undisturbed hrun.of_restrict).mpr hrun

def singleRestarted : Lifetime :=
  singleStarted.stop.start (machineWith "[module:a]\npath=/m\n") {}

theorem run_restart : step.Run single [singleStart, .stop, singleStart] singleRestarted :=
  .cons step_singleStart (.cons (step_stop _) (.single (step_start _ _ _)))

theorem not_accepting_singleRestarted : ¬singleRestarted.Accepting := by
  intro h
  have hup : singleRestarted.up = true := by decide +kernel
  have hkeeps : singleRestarted.keepsRunning = false := by decide +kernel
  exact Bool.false_ne_true (hkeeps.symm.trans (h hup).2.2)

/--
A daemon that is started again after it was stopped accepts nothing, nor does one whose `accept` fails
once because of too many open files.
-/
theorem not_accepting_single
    : ¬step.Always single Accepting [singleStart, .stop, singleStart]
      ∧ ¬step.Always single Accepting [singleStart, .checkAccept, .accept (.failed (.other 24))] := by
  refine ⟨fun halways => ?_, fun halways => ?_⟩
  . exact not_accepting_singleRestarted (halways _ _ List.prefix_rfl run_restart)
  . obtain ⟨l, hrun, hup, hserves⟩ :=
      run_accept acceptThread_singleStarted checkLoop_singleStarted (.failed (.other 24))
    have haccepting : l.Accepting := halways _ _ List.prefix_rfl (.cons step_singleStart hrun)
    have hcontinues := (haccepting (hup.trans up_singleStarted)).2.1
    rw [hserves] at hcontinues
    exact Bool.false_ne_true hcontinues

end Lifetime
end SimpleRsyncd
