import SimpleRsyncd.Daemon.Decisions
import SimpleRsyncd.Daemon.Service

/-!
This module contains the lifetime of one `RSyncDaemon`: any number of calls of `start()`, `stop()` and
`reloadConfig()`, with the accept thread and the thread that watches the configuration in between.
-/

namespace SimpleRsyncd

/--
The values of `errno` after a failed `accept`.
-/
inductive AcceptErrno where
  | eagain
  | ewouldblock
  | eintr
  | other (errno : Nat)
  deriving DecidableEq

inductive AcceptResult where
  | client
  | failed (errno : AcceptErrno)
  deriving DecidableEq

/--
Whether the loop goes on. A client is served or turned away, and either way the next one is waited for.
-/
def AcceptResult.continues : AcceptResult → Bool
  | .client | .failed .eagain | .failed .ewouldblock | .failed .eintr => true
  | .failed (.other _) => false

/--
A daemon with its two flags. A thread that was never started or has been joined is `none`, and `up`
records that `start()` has returned true and `stop()` has not been called since.
-/
structure Lifetime where
  daemon : RSyncDaemon
  shutdownRequested : Bool := false
  acceptThread : Option LoopPoint := none
  monitorThread : Option LoopPoint := none
  up : Bool := false

inductive LifetimeStep where
  | start (machine : Machine) (outcome : StartOutcome)
  | stop
  | reloadConfig (machine : Machine)
  /-- The condition of the accept loop. -/
  | checkAccept
  | accept (result : AcceptResult)
  /-- The condition of the monitor loop, after which it sleeps. -/
  | checkMonitor
  /-- What the monitor does when it wakes up. -/
  | monitor (machine : Machine)

namespace RSyncDaemon

variable (machine : Machine) (d : RSyncDaemon)

def unloadModules : RSyncDaemon :=
  { d with modules := .empty }

/--
A round of `configMonitorLoop` that is not cut short: whether a reload is attempted, and what it does.
-/
def monitor : Bool × RSyncDaemon :=
  if d.config.any (·.hasChanged) then (true, (d.reloadConfig machine).2) else (false, d)

/--
The steps of a start that come before the threads all succeed.
-/
def CanStart (outcome : StartOutcome) : Prop :=
  ∃ c, d.config = some c
    ∧ (c.validate machine.fs).1 = .ok true
    ∧ (loadedModules machine (c.validate machine.fs).2).entries ≠ []
    ∧ (!c.ssl.enabled || outcome.initializesSSL c.ssl) = true
    ∧ (outcome.initializesNetwork && outcome.dropsPrivileges) = true

variable {d} (outcome : StartOutcome)

theorem start_of_running (h : d.running = true) : d.start machine outcome = (.ok true, d) := by
  simp [start, h]

/--
A start that goes through its steps returns true exactly if all of them succeed, which is also when the
daemon runs afterwards.
-/
theorem start_of_not_running (h : d.running = false)
    : ((d.start machine outcome).1 = .ok true ↔ d.CanStart machine outcome)
        ∧ ((d.start machine outcome).1 = .ok true ↔ (d.start machine outcome).2.running = true) := by
  obtain ⟨config, modules, authManager, sslContext, rateLimiter, running⟩ := d
  obtain rfl : running = false := h
  cases config with
  | none => simp [start, validateConfiguration, CanStart]
  | some c =>
    have hssl : (c.validate machine.fs).2.ssl = c.ssl := rfl
    simp only [CanStart, Option.some.injEq, exists_eq_left']
    unfold start
    simp only [Bool.false_eq_true, ↓reduceIte, validateConfiguration_mk]
    rcases (c.validate machine.fs).1 with e | _ | _
    . simp
    . simp
    . simp only [loadModules_mk]
      cases hmodules : (loadedModules machine (c.validate machine.fs).2).entries.isEmpty with
      | true => simp [List.isEmpty_iff.mp hmodules]
      | false =>
        have hentries : (loadedModules machine (c.validate machine.fs).2).entries ≠ [] := by
          simpa [List.isEmpty_iff] using hmodules
        simp only [Bool.not_false, initializeSSL_mk, hssl]
        cases hinitialized : !c.ssl.enabled || outcome.initializesSSL c.ssl with
        | false => simp
        | true =>
          cases outcome.initializesNetwork && outcome.dropsPrivileges with
          | false => simp
          | true => simp [beginRunning_mk, hentries]

end RSyncDaemon

namespace Lifetime

variable (l : Lifetime)

/--
A daemon as its constructor leaves it.
-/
def new (machine : Machine) (config : Option Configuration) : Lifetime :=
  { daemon := .new machine config }

def keepsRunning : Bool :=
  l.daemon.running && !l.shutdownRequested

/--
`start()`. The threads are only started by a daemon that did not run before.
-/
def start (machine : Machine) (outcome : StartOutcome) : Lifetime :=
  match l.daemon.start machine outcome with
  | (.ok true, d) =>
    if l.daemon.running then
      { l with up := true }
    else
      {
        l with
        daemon := d
        acceptThread := some .head
        monitorThread := if d.config.any (·.autoReload) then some .head else none
        up := true
      }
  | (_, d) => { l with daemon := d }

/--
`stop()`. It returns after both threads have been joined, nothing resets `shutdown_requested_`.
-/
def stop : Lifetime :=
  if l.daemon.running then
    {
      daemon := { l.daemon with running := false }.unloadModules
      shutdownRequested := true
      acceptThread := none
      monitorThread := none
      up := false
    }
  else
    { l with up := false }

def checkLoop : LoopPoint :=
  if l.keepsRunning then .body else .exited

def perform : LifetimeStep → Option Lifetime
  | .start machine outcome => some (l.start machine outcome)
  | .stop => some l.stop
  | .reloadConfig machine => some { l with daemon := (l.daemon.reloadConfig machine).2 }
  | .checkAccept =>
    if l.acceptThread = some .head then some { l with acceptThread := some l.checkLoop } else none
  | .accept result =>
    if l.acceptThread = some .body then
      some { l with acceptThread := some (if result.continues then .head else .exited) }
    else
      none
  | .checkMonitor =>
    if l.monitorThread = some .head then some { l with monitorThread := some l.checkLoop } else none
  | .monitor machine =>
    if l.monitorThread = some .body then
      if l.shutdownRequested then
        some { l with monitorThread := some .exited }
      else
        some { l with daemon := (l.daemon.monitor machine).2, monitorThread := some .head }
    else
      none

/--
The calls of the daemon and the steps of its threads, in any order.
-/
def step : Transition Lifetime LifetimeStep :=
  fun l lifetimeStep l' => l.perform lifetimeStep = some l'

end Lifetime
end SimpleRsyncd
