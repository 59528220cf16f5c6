import SimpleRsyncd.Daemon.Decisions

/-!
This module determines when a successful reload takes effect for new connections. The objects that are
made once, at the construction or the start of the daemon, have to fit the new settings by themselves.
-/

namespace SimpleRsyncd
namespace RSyncDaemon

open Configuration

section

variable {Key : Type} (sha256 : Bytes → Bytes) (crypto : CryptoOutcome) (ssl : OpenSsl Key)
  (oracle : SignatureOracle Key) (machine : Machine)

/--
The daemon decides like a new one that is started on its configuration, and no new session is in
plain text if TLS is enabled.
-/
structure TakesEffect (d : RSyncDaemon) : Prop where
  secure : d.config.any (·.ssl.enabled) = true → d.encrypts = true
  decisions : ∀ outcome fresh, (new machine d.config).start machine outcome = (.ok true, fresh) →
    SameDecisions sha256 crypto ssl oracle d fresh

/--
TLS has been set up if the settings ask for it, and where they ask for authentication the users and
credentials that have been read are as good as the ones in the settings and the files of now.
-/
structure UpToDate (d : RSyncDaemon) (settings : Configuration) : Prop where
  context : settings.ssl.enabled = true → d.sslContext.isSome = true
  users : settings.auth.enabled = true → ∀ username,
    d.authManager.any (·.permits username)
      = (AuthenticationManager.new settings.auth machine.disk).permits username
  passwords : settings.auth.enabled = true → settings.auth.method = bytes "password" → ∀ username,
    (AuthenticationManager.new settings.auth machine.disk).permits username = true → ∀ password,
      d.authManager.any (fun mgr =>
          mgr.config.method = bytes "password" && mgr.checkPassword sha256 crypto username password)
        = (AuthenticationManager.new settings.auth machine.disk).checkPassword sha256 crypto username password
  keys : settings.auth.enabled = true → settings.auth.method = bytes "public_key" → ∀ username,
    (AuthenticationManager.new settings.auth machine.disk).permits username = true →
      ∀ challenge signature,
        d.authManager.any (fun mgr =>
            mgr.config.method = bytes "public_key" && mgr.checkKey ssl oracle username challenge signature)
          = (AuthenticationManager.new settings.auth machine.disk).checkKey ssl oracle username challenge
              signature

end

/--
Among users that are admitted alike, a login is a matter of the credentials alone.
-/
theorem any_login_iff {old : Option AuthenticationManager} {mgr : AuthenticationManager} {method username : Bytes}
    {login : AuthenticationManager → Option Bytes} {check : AuthenticationManager → Bool}
    (hlogin : ∀ mgr : AuthenticationManager, mgr.config.enabled = true →
      (login mgr).isSome = (mgr.config.method = method && (mgr.permits username && check mgr)))
    (hold : ∀ mgr ∈ old, mgr.config.enabled = true) (henabled : mgr.config.enabled = true)
    (hmethod : mgr.config.method = method) (hpermits : old.any (·.permits username) = mgr.permits username)
    : (old.any fun mgr => (login mgr).isSome) = (login mgr).isSome
        ↔
      (mgr.permits username = true →
        old.any (fun mgr => mgr.config.method = method && check mgr) = check mgr) := by
  rw [hlogin mgr henabled, hmethod]
  cases old with
  | none =>
    rw [Option.any_none] at hpermits
    simp [← hpermits]
  | some oldMgr =>
    rw [Option.any_some] at hpermits
    rw [Option.any_some, Option.any_some, hlogin oldMgr (hold oldMgr rfl), hpermits]
    cases mgr.permits username <;> simp

section

variable {Key : Type} {sha256 : Bytes → Bytes} {crypto : CryptoOutcome} {ssl : OpenSsl Key}
  {oracle : SignatureOracle Key} {machine : Machine} {d d' : RSyncDaemon} {c : Configuration}

/--
A reload touches none of the objects that count.
-/
theorem UpToDate.congr {settings settings' : Configuration} (hmanager : d.authManager = d'.authManager)
    (hcontext : d.sslContext = d'.sslContext) (hsettings : settings.SameSettings settings')
    (h : UpToDate sha256 crypto ssl oracle machine d settings)
    : UpToDate sha256 crypto ssl oracle machine d' settings' where
  context := by
    rw [← hcontext, ← hsettings.ssl]
    exact h.context
  users := by
    rw [← hmanager, ← hsettings.auth]
    exact h.users
  passwords := by
    rw [← hmanager, ← hsettings.auth]
    exact h.passwords
  keys := by
    rw [← hmanager, ← hsettings.auth]
    exact h.keys

theorem accepts_afterStart_iff (machine : Machine) (username : Bytes) {method : Bytes}
    {login : AuthenticationManager → Option Bytes} {check : AuthenticationManager → Bool} (hd : d.Derived) (hc : d.config = some c)
    (hlogin : ∀ mgr : AuthenticationManager, mgr.config.enabled = true →
      (login mgr).isSome = (mgr.config.method = method && (mgr.permits username && check mgr)))
    (husers : c.auth.enabled = true →
      d.authManager.any (·.permits username)
        = (AuthenticationManager.new c.auth machine.disk).permits username)
    : d.accepts method login = (afterStart machine machine c).accepts method login
        ↔
      (c.auth.enabled = true → c.auth.method = method →
        (AuthenticationManager.new c.auth machine.disk).permits username = true →
          d.authManager.any (fun mgr => mgr.config.method = method && check mgr)
            = check (.new c.auth machine.disk)) := by
  rw [accepts_of_config hc, accepts_afterStart]
  cases henabled : c.auth.enabled with
  | false => simp
  | true =>
    by_cases hmethod : c.auth.method = method
    . have hnew := AuthenticationManager.config_new c.auth machine.disk
      have hfresh : (AuthenticationManager.new c.auth machine.disk).config.enabled = true := by
        rw [hnew, henabled]
      have := any_login_iff hlogin hd.manager hfresh (by rw [hnew, hmethod]) (husers henabled)
      simpa [hmethod] using this
    . simp [hmethod]

theorem sameDecisions_afterStart_iff (hd : d.Derived) (hc : d.config = some c)
    : SameDecisions sha256 crypto ssl oracle d (afterStart machine machine c)
        ↔
      UpToDate sha256 crypto ssl oracle machine d c := by
  -- both kinds of login differ from a new daemon in the same way
  have hpassword := fun username password husers =>
    accepts_afterStart_iff machine username hd hc
      (fun mgr => mgr.isSome_passwordLogin sha256 crypto username password) husers
  have hkey := fun username challenge signature husers =>
    accepts_afterStart_iff machine username hd hc
      (fun mgr => mgr.isSome_keyLogin ssl oracle username challenge signature) husers
  constructor
  . intro h
    have husers : c.auth.enabled = true → ∀ username, d.authManager.any (·.permits username)
        = (AuthenticationManager.new c.auth machine.disk).permits username := by
      intro henabled username
      have := h.denies username
      rw [denies_of_config hc, denies_afterStart] at this
      simpa [henabled] using this
    refine ⟨?_, husers, ?_, ?_⟩
    . intro henabled
      have := h.encrypts
      rw [encrypts_of_config hd hc, encrypts_afterStart] at this
      simpa [henabled] using this
    . intro henabled hmethod username hpermits password
      exact (hpassword username password fun henabled => husers henabled username).mp
        (h.acceptsPassword username password) henabled hmethod hpermits
    . intro henabled hmethod username hpermits challenge signature
      exact (hkey username challenge signature fun henabled => husers henabled username).mp
        (h.acceptsKey username challenge signature) henabled hmethod hpermits
  . intro h
    refine ⟨?_, ?_, ?_, ?_, ?_⟩
    . rw [encrypts_of_config hd hc, encrypts_afterStart]
      cases henabled : c.ssl.enabled with
      | false => rfl
      | true => rw [h.context henabled, Bool.true_and]
    . rw [connectionLimits_of_config hd hc, connectionLimits_afterStart]
    . intro username
      rw [denies_of_config hc, denies_afterStart]
      cases henabled : c.auth.enabled with
      | false => rfl
      | true => rw [h.users henabled username]
    . intro username password
      refine (hpassword username password fun henabled => h.users henabled username).mpr ?_
      intro henabled hmethod hpermits
      exact h.passwords henabled hmethod username hpermits password
    . intro username challenge signature
      refine (hkey username challenge signature fun henabled => h.users henabled username).mpr ?_
      intro henabled hmethod hpermits
      exact h.keys henabled hmethod username hpermits challenge signature

/--
A reload takes effect exactly if there is nothing that it would have to make anew.
-/
theorem takesEffect_iff (hrunning : Running d) (hc : d.config = some c)
    (h : d.reloadConfig machine = (.ok true, d'))
    : TakesEffect sha256 crypto ssl oracle machine d'
        ↔
      UpToDate sha256 crypto ssl oracle machine d (c.assign (fileOutcome machine c.configFilePath).2) := by
  have hderived : d'.Derived := by
    have hreloaded : Running (d.reloadConfig machine).2 := hrunning.reload
    rw [h] at hreloaded
    exact derived_of_running hreloaded
  obtain ⟨c', hsame, hd', hloaded⟩ := reloadConfig_spec hc h
  obtain ⟨⟨-, hvalid⟩, hmodules⟩ := hloaded.mp rfl
  have hc' : d'.config = some c' := by rw [hd']
  have hstart : ∀ outcome fresh, (new machine d'.config).start machine outcome = (.ok true, fresh)
      → fresh = afterStart machine machine c' := by
    intro outcome fresh hfresh
    rw [hc'] at hfresh
    exact (start_new_iff.mp hfresh).2.2.2.2
  have hdecisions : TakesEffect sha256 crypto ssl oracle machine d'
      ↔ SameDecisions sha256 crypto ssl oracle d' (afterStart machine machine c') := by
    constructor
    . intro heffect
      -- the settings are valid and there is a module, so that a new daemon can be started on them
      have hentries : (loadedModules machine (c'.validate machine.fs).2).entries ≠ [] := by
        rwa [loadedModules_congr (same_validate machine.fs c').toSameSettings]
      refine heffect.decisions {} _ ?_
      rw [hc']
      exact start_new_iff.mpr ⟨hvalid, hentries, by simp, rfl, rfl⟩
    . intro hsameDecisions
      refine ⟨?_, ?_⟩
      . intro henabled
        rw [hsameDecisions.encrypts, encrypts_afterStart]
        simpa [hc'] using henabled
      . intro outcome fresh hfresh
        rw [hstart outcome fresh hfresh]
        exact hsameDecisions
  have hmanager : d'.authManager = d.authManager := by rw [hd']
  have hcontext : d'.sslContext = d.sslContext := by rw [hd']
  rw [hdecisions, sameDecisions_afterStart_iff hderived hc']
  constructor
  . exact UpToDate.congr hmanager hcontext hsame.toSameSettings
  . exact UpToDate.congr hmanager.symm hcontext.symm hsame.symm.toSameSettings

end

theorem started_eq {text : String}
    (h : ((new (machineWith text) (some (loaded text))).start (machineWith text) {}).1 = .ok true)
    : (new (machineWith text) (some (loaded text))).start (machineWith text) {} = (.ok true, started text) := by
  unfold started
  exact Prod.fst_eq_iff.mp h

/--
An OpenSSL that has nothing to do.
-/
def idleSsl : OpenSsl Unit where
  base64Decode _ := []
  sha256 _ := []
  sha512 _ := []
  rsaKey _ _ := none
  ed25519Key _ := none
  ecKey _ _ := none

theorem takesEffect_tls
    : TakesEffect (fun _ => []) { entropy := [] } idleSsl (fun _ _ _ _ => false)
        (machineWith "ssl_enabled=true\nssl_cert=/c\nssl_key=/c\n[module:a]\npath=/m\n")
        ((started "ssl_enabled=true\nssl_cert=/c\nssl_key=/c\n[module:a]\npath=/m\n").reloadConfig
          (machineWith "ssl_enabled=true\nssl_cert=/c\nssl_key=/c\n[module:a]\npath=/m\n")).2 := by
  have hrunning : Running (started "ssl_enabled=true\nssl_cert=/c\nssl_key=/c\n[module:a]\npath=/m\n") :=
    .start (started_eq (by decide +kernel))
  have hcontext :
      (started "ssl_enabled=true\nssl_cert=/c\nssl_key=/c\n[module:a]\npath=/m\n").sslContext.isSome := by
    decide +kernel
  have hauth : ∀ c ∈ (started "ssl_enabled=true\nssl_cert=/c\nssl_key=/c\n[module:a]\npath=/m\n").config,
      (c.assign (fileOutcome
        (machineWith "ssl_enabled=true\nssl_cert=/c\nssl_key=/c\n[module:a]\npath=/m\n")
        c.configFilePath).2).auth.enabled = false := by
    decide +kernel
  have hsome : (started "ssl_enabled=true\nssl_cert=/c\nssl_key=/c\n[module:a]\npath=/m\n").config.isSome := by
    decide +kernel
  obtain ⟨c, hc⟩ := Option.isSome_iff_exists.mp hsome
  refine (takesEffect_iff hrunning hc (reloadConfig_eq (by decide +kernel))).mpr ?_
  have hdisabled := hauth c hc
  exact ⟨fun _ => hcontext, by simp [hdisabled], by simp [hdisabled], by simp [hdisabled]⟩

/--
TLS that is turned on by a reload does not keep the next session from being in plain text.
-/
theorem not_takesEffect_tls
    : ((started "[module:a]\npath=/m\n").reloadConfig
        (machineWith "ssl_enabled=true\nssl_cert=/c\nssl_key=/c\n[module:a]\npath=/m\n")).1 = .ok true
      ∧ ¬TakesEffect (fun _ => []) { entropy := [] } idleSsl (fun _ _ _ _ => false)
          (machineWith "ssl_enabled=true\nssl_cert=/c\nssl_key=/c\n[module:a]\npath=/m\n")
          ((started "[module:a]\npath=/m\n").reloadConfig
            (machineWith "ssl_enabled=true\nssl_cert=/c\nssl_key=/c\n[module:a]\npath=/m\n")).2 := by
  refine ⟨by decide +kernel, ?_⟩
  intro h
  exact absurd (h.secure (by decide +kernel)) (by decide +kernel)

end RSyncDaemon
end SimpleRsyncd
