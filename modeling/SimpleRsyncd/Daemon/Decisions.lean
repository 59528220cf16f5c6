import SimpleRsyncd.Daemon.Reload

/-!
This module contains what a daemon decides about a new connection. It looks at the shared configuration
and at the objects it keeps next to it.
-/

namespace SimpleRsyncd
namespace RSyncDaemon

variable (d : RSyncDaemon)

/--
Whether the session of a new connection is encrypted.
-/
def encrypts : Bool :=
  d.config.any (·.ssl.enabled) && d.sslContext.any (·.initialized)

/--
The limits that new connections are counted against.
-/
def connectionLimits : Option ConnectionRateLimiter :=
  if d.config.any (·.rateLimit.enabled) then d.rateLimiter else none

/--
Whether no credential helps the user.
-/
def denies (username : Bytes) : Bool :=
  d.config.any (·.auth.enabled) && !d.authManager.any (·.permits username)

/--
Whether the credential of an `AUTH` message is accepted, as far as it is one of that method.
-/
def accepts (method : Bytes) (login : AuthenticationManager → Option Bytes) : Bool :=
  match d.config with
  | none => true
  | some c => !c.auth.enabled || (c.auth.method = method && d.authManager.any fun mgr => (login mgr).isSome)

section credentials

variable {Key : Type} (sha256 : Bytes → Bytes) (crypto : CryptoOutcome) (ssl : OpenSsl Key)
  (oracle : SignatureOracle Key)

def acceptsPassword (username password : Bytes) : Bool :=
  d.accepts (bytes "password") fun mgr => mgr.passwordLogin sha256 crypto username password

def acceptsKey (username challenge signature : Bytes) : Bool :=
  d.accepts (bytes "public_key") fun mgr => mgr.keyLogin ssl oracle username challenge signature

/--
Two daemons treat every new connection alike.
-/
structure SameDecisions (d d' : RSyncDaemon) : Prop where
  encrypts : d.encrypts = d'.encrypts
  connectionLimits : d.connectionLimits = d'.connectionLimits
  denies : ∀ username, d.denies username = d'.denies username
  acceptsPassword : ∀ username password,
    d.acceptsPassword sha256 crypto username password = d'.acceptsPassword sha256 crypto username password
  acceptsKey : ∀ username challenge signature,
    d.acceptsKey ssl oracle username challenge signature
      = d'.acceptsKey ssl oracle username challenge signature

end credentials

/--
A daemon that has been started, possibly with reloads since then.
-/
inductive Running : RSyncDaemon → Prop
  | start {machine machine' : Machine} {config : Option Configuration} {outcome : StartOutcome}
      {d : RSyncDaemon} (h : (new machine config).start machine' outcome = (.ok true, d)) : Running d
  | reload {machine : Machine} {d : RSyncDaemon} (h : Running d) : Running (d.reloadConfig machine).2

/--
What a successful start makes of a new daemon.
-/
def afterStart (machine machine' : Machine) (c : Configuration) : RSyncDaemon where
  config := some (c.validate machine'.fs).2
  modules := loadedModules machine' (c.validate machine'.fs).2
  authManager := if c.auth.enabled then some (.new c.auth machine.disk) else none
  sslContext := if c.ssl.enabled then some { initialized := true } else none
  rateLimiter :=
    if c.rateLimit.enabled then
      some ⟨c.rateLimit.maxConnectionsPerMinute, c.rateLimit.maxConnectionsPerHour⟩
    else
      none
  running := true

/--
A start succeeds exactly if each of its steps does.
-/
theorem start_new_iff {machine machine' : Machine} {c : Configuration} {outcome : StartOutcome} {d : RSyncDaemon}
    : (new machine (some c)).start machine' outcome = (.ok true, d)
        ↔
      (c.validate machine'.fs).1 = .ok true
        ∧ (loadedModules machine' (c.validate machine'.fs).2).entries ≠ []
        ∧ (!c.ssl.enabled || outcome.initializesSSL c.ssl) = true
        ∧ (outcome.initializesNetwork && outcome.dropsPrivileges) = true
        ∧ d = afterStart machine machine' c := by
  have hnew : new machine (some c)
      = ⟨some c, .empty, if c.auth.enabled then some (.new c.auth machine.disk) else none, none, none, false⟩ :=
    rfl
  have hssl : (c.validate machine'.fs).2.ssl = c.ssl := rfl
  have hlimit : (c.validate machine'.fs).2.rateLimit = c.rateLimit := rfl
  unfold start
  simp only [hnew, Bool.false_eq_true, if_false, validateConfiguration_mk]
  rcases (c.validate machine'.fs).1 with e | _ | _
  . simp
  . simp
  . simp only [loadModules_mk]
    cases hmodules : (loadedModules machine' (c.validate machine'.fs).2).entries.isEmpty with
    | true => simp [List.isEmpty_iff.mp hmodules]
    | false =>
      have hentries : (loadedModules machine' (c.validate machine'.fs).2).entries ≠ [] := by
        simpa [List.isEmpty_iff] using hmodules
      simp only [Bool.not_false, initializeSSL_mk, hssl]
      cases hinitialized : !c.ssl.enabled || outcome.initializesSSL c.ssl with
      | false => simp
      | true =>
        -- what OpenSSL says only counts where TLS is enabled
        have hcontext : (if c.ssl.enabled then some { initialized := outcome.initializesSSL c.ssl } else none)
            = if c.ssl.enabled then some ({ initialized := true } : SSLContext) else none := by
          cases henabled : c.ssl.enabled with
          | false => rfl
          | true => simpa [henabled] using hinitialized
        simp only [beginRunning_mk, hlimit, hcontext]
        cases outcome.initializesNetwork && outcome.dropsPrivileges with
        | false => simp
        | true =>
          simp only [if_true, Prod.mk.injEq, true_and]
          exact eq_comm.trans (and_iff_right hentries).symm

section afterStart

variable (machine machine' : Machine) (c : Configuration)

theorem encrypts_afterStart : (afterStart machine machine' c).encrypts = c.ssl.enabled := by
  have hssl : (c.validate machine'.fs).2.ssl = c.ssl := rfl
  cases henabled : c.ssl.enabled <;> simp [encrypts, afterStart, hssl, henabled]

theorem connectionLimits_afterStart
    : (afterStart machine machine' c).connectionLimits
      = if c.rateLimit.enabled then
          some ⟨c.rateLimit.maxConnectionsPerMinute, c.rateLimit.maxConnectionsPerHour⟩
        else
          none := by
  have hlimit : (c.validate machine'.fs).2.rateLimit = c.rateLimit := rfl
  cases henabled : c.rateLimit.enabled <;> simp [connectionLimits, afterStart, hlimit, henabled]

theorem denies_afterStart (username : Bytes)
    : (afterStart machine machine' c).denies username
      = (c.auth.enabled && !(AuthenticationManager.new c.auth machine.disk).permits username) := by
  have hauth : (c.validate machine'.fs).2.auth = c.auth := rfl
  cases henabled : c.auth.enabled <;> simp [denies, afterStart, hauth, henabled]

theorem accepts_afterStart (method : Bytes) (login : AuthenticationManager → Option Bytes)
    : (afterStart machine machine' c).accepts method login
      = (!c.auth.enabled
        || (c.auth.method = method && (login (.new c.auth machine.disk)).isSome)) := by
  have hauth : (c.validate machine'.fs).2.auth = c.auth := rfl
  cases henabled : c.auth.enabled <;> simp [accepts, afterStart, hauth, henabled]

end afterStart

/--
What the objects of a running daemon have in common with the settings they were made from.
-/
structure Derived (d : RSyncDaemon) : Prop where
  context : ∀ context ∈ d.sslContext, context.initialized = true
  limiter : ∀ c ∈ d.config, c.rateLimit.enabled = true →
    d.rateLimiter = some ⟨c.rateLimit.maxConnectionsPerMinute, c.rateLimit.maxConnectionsPerHour⟩
  manager : ∀ mgr ∈ d.authManager, mgr.config.enabled = true

theorem derived_afterStart (machine machine' : Machine) (c : Configuration)
    : (afterStart machine machine' c).Derived := by
  unfold afterStart
  refine ⟨?_, ?_, ?_⟩
  . cases c.ssl.enabled <;> simp
  . simp only [Option.mem_some_iff, forall_eq']
    intro henabled
    exact if_pos henabled
  . cases henabled : c.auth.enabled <;> simp [henabled]

/--
A reload leaves the derived objects alone, however it ends.
-/
theorem reloadConfig_snd (machine : Machine) {d : RSyncDaemon} {c : Configuration} (hc : d.config = some c)
    : ∃ c' modules, c'.rateLimit = c.rateLimit
        ∧ (d.reloadConfig machine).2 = { d with config := some c', modules } := by
  have hlimit := Configuration.rateLimit_reload machine c
  unfold reloadConfig
  rw [hc]
  simp only
  generalize c.reload machine = result at hlimit ⊢
  rcases result with ⟨_ | _ | _, c'⟩
  . exact ⟨c', d.modules, hlimit, rfl⟩
  . exact ⟨c', d.modules, hlimit, rfl⟩
  . simp only [validateConfiguration_mk]
    have hvalidate : (c'.validate machine.fs).2.rateLimit = c.rateLimit := hlimit
    rcases (c'.validate machine.fs).1 with _ | _ | _
    . exact ⟨_, d.modules, hvalidate, rfl⟩
    . exact ⟨_, d.modules, hvalidate, rfl⟩
    . exact ⟨_, _, hvalidate, rfl⟩

theorem derived_of_running {d : RSyncDaemon} (h : Running d) : d.Derived := by
  induction h with
  | @start machine machine' config outcome d h =>
    cases config with
    | none => simp [start, new, validateConfiguration] at h
    | some c =>
      obtain ⟨-, -, -, -, rfl⟩ := start_new_iff.mp h
      exact derived_afterStart machine machine' c
  | @reload machine d h ih =>
    cases hc : d.config with
    | none =>
      have hsame : (d.reloadConfig machine).2 = d := by simp [reloadConfig, hc]
      rwa [hsame]
    | some c =>
      obtain ⟨c', modules, hlimit, heq⟩ := reloadConfig_snd machine hc
      rw [heq]
      refine ⟨ih.context, ?_, ih.manager⟩
      simp only [Option.mem_some_iff, forall_eq', hlimit]
      exact ih.limiter c hc

section config

variable {d : RSyncDaemon} {c : Configuration}

theorem encrypts_of_config (hd : d.Derived) (hc : d.config = some c)
    : d.encrypts = (c.ssl.enabled && d.sslContext.isSome) := by
  have hinitialized : d.sslContext.any (·.initialized) = d.sslContext.isSome := by
    cases hcontext : d.sslContext with
    | none => rfl
    | some context => exact hd.context context hcontext
  rw [encrypts, hc, hinitialized, Option.any_some]

theorem connectionLimits_of_config (hd : d.Derived) (hc : d.config = some c)
    : d.connectionLimits
      = if c.rateLimit.enabled then
          some ⟨c.rateLimit.maxConnectionsPerMinute, c.rateLimit.maxConnectionsPerHour⟩
        else
          none := by
  rw [connectionLimits, hc, Option.any_some]
  split
  . next henabled => exact hd.limiter c hc henabled
  . rfl

theorem denies_of_config (hc : d.config = some c) (username : Bytes)
    : d.denies username = (c.auth.enabled && !d.authManager.any (·.permits username)) := by
  rw [denies, hc, Option.any_some]

theorem accepts_of_config (hc : d.config = some c) (method : Bytes)
    (login : AuthenticationManager → Option Bytes)
    : d.accepts method login
      = (!c.auth.enabled
        || (c.auth.method = method && d.authManager.any fun mgr => (login mgr).isSome)) := by
  rw [accepts, hc]

end config

end RSyncDaemon
end SimpleRsyncd
