import SimpleRsyncd.Auth.AuthenticationManager

/-!
This module determines where the sessions of an `AuthenticationManager` come from: each of them was
created by a call with a credential that was good at that time.
-/

namespace SimpleRsyncd
namespace AuthenticationManager

/--
The calls of a manager and of its `SessionManager`, with what the clock, the random generator and
OpenSSL contribute to each.
-/
inductive Call (Key : Type) where
  | authenticate (outcome : CryptoOutcome) (now : Time) (sessionId username password clientAddress : Bytes)
  | authenticateWithKey (oracle : SignatureOracle Key) (now : Time)
      (sessionId username data signature clientAddress : Bytes)
  | authenticateUser (outcome : CryptoOutcome) (now : Time) (sessionId username password : Bytes)
  | authenticateUserWithKey (oracle : SignatureOracle Key) (now : Time)
      (sessionId username challenge signature : Bytes)
  | reload (disk : Disk)
  | updateActivity (now : Time) (sessionId : Bytes)
  | deleteSession (sessionId : Bytes)
  | cleanupExpiredSessions (now : Time)

/--
What a user presents.
-/
inductive Credential (Key : Type) where
  | password (outcome : CryptoOutcome) (password : Bytes)
  | signature (oracle : SignatureOracle Key) (data signature : Bytes)

/--
The session id, the user and the credential of a call that may create a session.
-/
def Call.login {Key : Type} : Call Key → Option (Bytes × Bytes × Credential Key)
  | .authenticate outcome _ sessionId username password _ => some (sessionId, username, .password outcome password)
  | .authenticateUser outcome _ sessionId username password => some (sessionId, username, .password outcome password)
  | .authenticateWithKey oracle _ sessionId username data signature _ =>
    some (sessionId, username, .signature oracle data signature)
  | .authenticateUserWithKey oracle _ sessionId username challenge signature =>
    some (sessionId, username, .signature oracle challenge signature)
  | _ => none

variable {Key : Type} (sha256 : Bytes → Bytes) (ssl : OpenSsl Key)

def perform (call : Call Key) (mgr : AuthenticationManager) : AuthenticationManager :=
  match call with
  | .authenticate outcome now sessionId username password clientAddress =>
    (mgr.authenticate sha256 outcome now sessionId username password clientAddress).2
  | .authenticateWithKey oracle now sessionId username data signature clientAddress =>
    (mgr.authenticateWithKey ssl oracle now sessionId username data signature clientAddress).2
  | .authenticateUser outcome now sessionId username password =>
    (mgr.authenticateUser sha256 outcome now sessionId username password).2
  | .authenticateUserWithKey oracle now sessionId username challenge signature =>
    (mgr.authenticateUserWithKey ssl oracle now sessionId username challenge signature).2
  | .reload disk => (mgr.reload disk).2
  | .updateActivity now sessionId =>
    { mgr with sessionManager := (mgr.sessionManager.updateActivity now sessionId).2 }
  | .deleteSession sessionId => { mgr with sessionManager := (mgr.sessionManager.deleteSession sessionId).2 }
  | .cleanupExpiredSessions now =>
    { mgr with sessionManager := (mgr.sessionManager.cleanupExpiredSessions now).2 }

def step : Transition AuthenticationManager (Call Key) :=
  .ofFun (perform sha256 ssl)

/--
The credential is good: the password verifies against the entry of the user in the password file, or the
signature verifies under a key that is stored for the user, each only under its own method.
-/
def Verifies (mgr : AuthenticationManager) (username : Bytes) : Credential Key → Prop
  | .password outcome password =>
    mgr.config.method = bytes "password"
      ∧ ∃ file entry, mgr.passwordFile = some file ∧ file.users.lookup username = some entry
        ∧ PasswordHasher.verifyPassword sha256 outcome password entry = true
  | .signature oracle data signature =>
    mgr.config.method = bytes "public_key"
      ∧ ∃ db userKeys, mgr.publicKeyDatabase = some db ∧ db.keys.lookup username = some userKeys
        ∧ ∃ keyInfo ∈ userKeys, PublicKey.verifySignature ssl oracle keyInfo data signature = true

/--
A call that creates this session in this state: the user is admitted by the settings and presents a good
credential.
-/
structure Grants (mgr : AuthenticationManager) (call : Call Key) (session : SessionInfo) : Prop where
  notDenied : session.username ∉ mgr.config.deniedUsers
  allowed : mgr.config.allowedUsers ≠ [] → session.username ∈ mgr.config.allowedUsers
  credential : ∃ credential, call.login = some (session.sessionId, session.username, credential)
    ∧ mgr.Verifies sha256 ssl session.username credential

variable {sha256 ssl} {mgr mgr' : AuthenticationManager} {outcome : CryptoOutcome}
  {oracle : SignatureOracle Key} {username password data signature : Bytes}

theorem permits_iff
    : mgr.permits username = true
        ↔
      username ∉ mgr.config.deniedUsers ∧ (mgr.config.allowedUsers ≠ [] → username ∈ mgr.config.allowedUsers) := by
  unfold permits
  split
  . next hdenied => simp [hdenied]
  . next hdenied =>
    cases hallowed : mgr.config.allowedUsers with
    | nil => simp [hdenied]
    | cons => simp [hdenied]

theorem verifies_of_checkPassword (hmethod : mgr.config.method = bytes "password")
    (hfile : mgr.useUserDatabase = false)
    (h : mgr.checkPassword sha256 outcome username password = true)
    : mgr.Verifies sha256 ssl username (.password outcome password) := by
  unfold checkPassword at h
  simp only [hfile] at h
  obtain ⟨file, hsome, hauthenticate⟩ := (Option.any_eq_true _ _).mp h
  unfold PasswordFile.authenticate at hauthenticate
  split at hauthenticate
  . contradiction
  . split at hauthenticate
    . contradiction
    . next entry hentry => exact ⟨hmethod, file, entry, hsome, hentry, hauthenticate⟩

theorem verifies_of_checkKey (hmethod : mgr.config.method = bytes "public_key")
    (h : mgr.checkKey ssl oracle username data signature = true)
    : mgr.Verifies sha256 ssl username (.signature oracle data signature) := by
  unfold checkKey at h
  obtain ⟨db, hsome, hverify⟩ := (Option.any_eq_true _ _).mp h
  unfold PublicKeyDatabase.verifySignature at hverify
  split at hverify
  . contradiction
  . next userKeys hkeys =>
    obtain ⟨keyInfo, hmem, hkey⟩ := List.any_eq_true.mp hverify
    exact ⟨hmethod, db, userKeys, hsome, hkeys, keyInfo, hmem, hkey⟩

theorem passwordLogin_eq_some (ssl : OpenSsl Key) {user : Bytes} (henabled : mgr.config.enabled = true)
    (hfile : mgr.useUserDatabase = false)
    (h : mgr.passwordLogin sha256 outcome username password = some user)
    : user = username ∧ mgr.permits username = true
        ∧ mgr.Verifies sha256 ssl username (.password outcome password) := by
  unfold passwordLogin at h
  simp only [henabled, Bool.not_true, Bool.false_eq_true, ↓reduceIte] at h
  split at h
  . next hmethod =>
    obtain ⟨hgood, heq⟩ := Option.ite_none_right_eq_some.mp h
    rw [Bool.and_eq_true] at hgood
    exact ⟨(Option.some.inj heq).symm, hgood.1, verifies_of_checkPassword hmethod hfile hgood.2⟩
  . contradiction

theorem keyLogin_eq_some (sha256 : Bytes → Bytes) {user : Bytes} (henabled : mgr.config.enabled = true)
    (h : mgr.keyLogin ssl oracle username data signature = some user)
    : user = username ∧ mgr.permits username = true
        ∧ mgr.Verifies sha256 ssl username (.signature oracle data signature) := by
  unfold keyLogin at h
  simp only [henabled, Bool.not_true, Bool.false_eq_true, ↓reduceIte] at h
  split at h
  . contradiction
  . next hmethod =>
    simp only [ne_eq, Decidable.not_not] at hmethod
    obtain ⟨hgood, heq⟩ := Option.ite_none_right_eq_some.mp h
    rw [Bool.and_eq_true] at hgood
    exact ⟨(Option.some.inj heq).symm, hgood.1, verifies_of_checkKey hmethod hgood.2⟩

/--
The manager with one more session.
-/
def createSession (mgr : AuthenticationManager) (now : Time) (sessionId username clientAddress : Bytes)
    : AuthenticationManager :=
  { mgr with sessionManager := mgr.sessionManager.createSession now sessionId username clientAddress 0 }

theorem authenticate_cases (henabled : mgr.config.enabled = true) (hfile : mgr.useUserDatabase = false)
    (now : Time) (sessionId clientAddress : Bytes)
    : (mgr.authenticate sha256 outcome now sessionId username password clientAddress).2 = mgr
        ∨ mgr.permits username = true ∧ mgr.Verifies sha256 ssl username (.password outcome password)
          ∧ ∃ now' clientAddress', (mgr.authenticate sha256 outcome now sessionId username password clientAddress).2
            = mgr.createSession now' sessionId username clientAddress' := by
  unfold authenticate
  cases hlogin : mgr.passwordLogin sha256 outcome username password with
  | none => exact .inl rfl
  | some user =>
    obtain ⟨rfl, hpermits, hverifies⟩ := passwordLogin_eq_some ssl henabled hfile hlogin
    exact .inr ⟨hpermits, hverifies, now, clientAddress, rfl⟩

theorem authenticateWithKey_cases (henabled : mgr.config.enabled = true) (now : Time)
    (sessionId clientAddress : Bytes)
    : (mgr.authenticateWithKey ssl oracle now sessionId username data signature clientAddress).2 = mgr
        ∨ mgr.permits username = true ∧ mgr.Verifies sha256 ssl username (.signature oracle data signature)
          ∧ ∃ now' clientAddress',
            (mgr.authenticateWithKey ssl oracle now sessionId username data signature clientAddress).2
              = mgr.createSession now' sessionId username clientAddress' := by
  unfold authenticateWithKey
  cases hlogin : mgr.keyLogin ssl oracle username data signature with
  | none => exact .inl rfl
  | some user =>
    obtain ⟨rfl, hpermits, hverifies⟩ := keyLogin_eq_some sha256 henabled hlogin
    exact .inr ⟨hpermits, hverifies, now, clientAddress, rfl⟩

/--
All four entry points: either nothing happens, or the user is admitted with a good credential.
-/
theorem perform_login (sha256 : Bytes → Bytes) (ssl : OpenSsl Key) (henabled : mgr.config.enabled = true)
    (hfile : mgr.useUserDatabase = false) (call : Call Key)
    : ∀ login, call.login = some login →
        perform sha256 ssl call mgr = mgr
          ∨ mgr.permits login.2.1 = true ∧ mgr.Verifies sha256 ssl login.2.1 login.2.2
            ∧ ∃ now clientAddress,
              perform sha256 ssl call mgr = mgr.createSession now login.1 login.2.1 clientAddress := by
  rintro login hlogin
  cases call with
  | authenticate outcome now sessionId username password clientAddress =>
    obtain rfl := Option.some.inj hlogin
    exact authenticate_cases henabled hfile now sessionId clientAddress
  | authenticateUser outcome now sessionId username password =>
    obtain rfl := Option.some.inj hlogin
    exact authenticate_cases henabled hfile now sessionId []
  | authenticateWithKey oracle now sessionId username data signature clientAddress =>
    obtain rfl := Option.some.inj hlogin
    exact authenticateWithKey_cases henabled now sessionId clientAddress
  | authenticateUserWithKey oracle now sessionId username challenge signature =>
    obtain rfl := Option.some.inj hlogin
    exact authenticateWithKey_cases henabled now sessionId []
  | reload | updateActivity | deleteSession | cleanupExpiredSessions => simp [Call.login] at hlogin

theorem reload_frame (mgr : AuthenticationManager) (disk : Disk)
    : (mgr.reload disk).2.config = mgr.config
        ∧ (mgr.reload disk).2.useUserDatabase = mgr.useUserDatabase
        ∧ (mgr.reload disk).2.sessionManager = mgr.sessionManager := by
  have hkeys : ∀ keys, (reload.reloadKeys mgr disk keys).2.config = mgr.config
      ∧ (reload.reloadKeys mgr disk keys).2.useUserDatabase = mgr.useUserDatabase
      ∧ (reload.reloadKeys mgr disk keys).2.sessionManager = mgr.sessionManager := by
    intro keys
    cases keys <;> exact ⟨rfl, rfl, rfl⟩
  unfold reload
  split
  . exact ⟨rfl, rfl, rfl⟩
  . split
    . exact hkeys _
    . exact ⟨rfl, rfl, rfl⟩
  . exact hkeys _

/--
The settings never change, and the user database is never used.
-/
structure Keeps (config : AuthConfig) (mgr : AuthenticationManager) : Prop where
  config : mgr.config = config
  passwordFile : mgr.useUserDatabase = false

theorem keeps_new (config : AuthConfig) (disk : Disk) : Keeps config (new config disk) where
  config := config_new config disk
  passwordFile := by
    unfold new
    split
    . rfl
    . split <;> rfl

theorem Keeps.step {config : AuthConfig} (henabled : config.enabled = true) {call : Call Key}
    (h : Keeps config mgr) (hstep : step sha256 ssl mgr call mgr')
    : Keeps config mgr' := by
  have hlogin := perform_login sha256 ssl (h.config ▸ henabled) h.passwordFile call
  obtain rfl := hstep
  cases call with
  | authenticate | authenticateUser | authenticateWithKey | authenticateUserWithKey =>
    rcases hlogin _ rfl with heq | ⟨-, -, now, clientAddress, heq⟩
    . rwa [heq]
    . rw [heq]
      exact ⟨h.config, h.passwordFile⟩
  | reload disk =>
    obtain ⟨hconfig, hfile, -⟩ := reload_frame mgr disk
    exact ⟨hconfig.trans h.config, hfile.trans h.passwordFile⟩
  | updateActivity | deleteSession | cleanupExpiredSessions => exact ⟨h.config, h.passwordFile⟩

/--
The session is in the table, possibly with another time of its last activity.
-/
def Holds (mgr : AuthenticationManager) (sessionId : Bytes) (session : SessionInfo) : Prop :=
  ∃ lastActivity, mgr.sessionManager.getSession sessionId = some { session with lastActivity }

variable {sessionId : Bytes} {session : SessionInfo} {now : Time}

theorem holds_createSession {newId clientAddress : Bytes}
    (h : (mgr.createSession now newId username clientAddress).Holds sessionId session)
    : mgr.Holds sessionId session
        ∨ sessionId = newId ∧ session.sessionId = newId ∧ session.username = username := by
  obtain ⟨lastActivity, hlookup⟩ := h
  simp only [createSession, SessionManager.createSession, SessionManager.getSession] at hlookup
  rw [OrderedMap.lookup_insert] at hlookup
  split at hlookup
  . next hid =>
    have heq := Option.some.inj hlookup
    exact .inr ⟨hid, (congrArg SessionInfo.sessionId heq).symm, (congrArg SessionInfo.username heq).symm⟩
  . exact .inl ⟨lastActivity, hlookup⟩

theorem holds_updateActivity {updated : Bytes}
    (h : Holds { mgr with sessionManager := (mgr.sessionManager.updateActivity now updated).2 } sessionId session)
    : mgr.Holds sessionId session := by
  obtain ⟨lastActivity, hlookup⟩ := h
  simp only [SessionManager.updateActivity, SessionManager.getSession] at hlookup
  split at hlookup
  . exact ⟨lastActivity, hlookup⟩
  . next old hold =>
    rw [OrderedMap.lookup_insert] at hlookup
    split at hlookup
    . next hid =>
      have heq : { old with lastActivity := now } = { session with lastActivity } := Option.some.inj hlookup
      refine ⟨old.lastActivity, ?_⟩
      rw [SessionManager.getSession, hid, hold, Option.some.injEq]
      exact congrArg (fun info : SessionInfo => { info with lastActivity := old.lastActivity }) heq
    . exact ⟨lastActivity, hlookup⟩

theorem holds_deleteSession {deleted : Bytes}
    (h : Holds { mgr with sessionManager := (mgr.sessionManager.deleteSession deleted).2 } sessionId session)
    : mgr.Holds sessionId session := by
  obtain ⟨lastActivity, hlookup⟩ := h
  simp only [SessionManager.deleteSession, SessionManager.getSession] at hlookup
  split at hlookup
  . exact ⟨lastActivity, hlookup⟩
  . rw [OrderedMap.lookup_erase] at hlookup
    exact ⟨lastActivity, (Option.ite_none_left_eq_some.mp hlookup).2⟩

theorem holds_cleanupExpiredSessions
    (h : Holds { mgr with sessionManager := (mgr.sessionManager.cleanupExpiredSessions now).2 } sessionId session)
    : mgr.Holds sessionId session := by
  obtain ⟨lastActivity, hlookup⟩ := h
  simp only [SessionManager.cleanupExpiredSessions, SessionManager.getSession] at hlookup
  rw [OrderedMap.lookup_filter, Option.filter_eq_some_iff] at hlookup
  exact ⟨lastActivity, hlookup.1⟩

/--
A session that is in the table after a call was there before, or the call grants it.
-/
theorem holds_step (henabled : mgr.config.enabled = true) (hfile : mgr.useUserDatabase = false)
    {call : Call Key} (hstep : step sha256 ssl mgr call mgr') (h : mgr'.Holds sessionId session)
    : mgr.Holds sessionId session ∨ session.sessionId = sessionId ∧ mgr.Grants sha256 ssl call session := by
  have hlogin := perform_login sha256 ssl henabled hfile call
  obtain rfl := hstep
  cases call with
  | authenticate | authenticateUser | authenticateWithKey | authenticateUserWithKey =>
    rcases hlogin _ rfl with heq | ⟨hpermits, hverifies, now, clientAddress, heq⟩
    . rw [heq] at h
      exact .inl h
    . rw [heq] at h
      rcases holds_createSession h with hbefore | ⟨rfl, hid, rfl⟩
      . exact .inl hbefore
      . obtain ⟨hdenied, hallowed⟩ := permits_iff.mp hpermits
        exact .inr ⟨hid, hdenied, hallowed, _, by rw [hid]; rfl, hverifies⟩
  | reload disk =>
    obtain ⟨-, -, hsessions⟩ := reload_frame mgr disk
    obtain ⟨lastActivity, hlookup⟩ := h
    exact .inl ⟨lastActivity, hsessions ▸ hlookup⟩
  | updateActivity => exact .inl (holds_updateActivity h)
  | deleteSession => exact .inl (holds_deleteSession h)
  | cleanupExpiredSessions => exact .inl (holds_cleanupExpiredSessions h)

theorem not_holds_new (config : AuthConfig) (disk : Disk) (sessionId : Bytes) (session : SessionInfo)
    : ¬(new config disk).Holds sessionId session := by
  have hsessions : (new config disk).sessionManager = .new 3600 := by
    unfold new
    split
    . rfl
    . split <;> rfl
  rintro ⟨lastActivity, hlookup⟩
  rw [hsessions] at hlookup
  contradiction

/--
Every session of a manager with authentication was created by one of the calls before: its user is
admitted and presented a good credential at the time of that call.
-/
theorem granted_of_run {config : AuthConfig} {disk : Disk} {calls : List (Call Key)}
    (henabled : config.enabled = true) (hrun : (step sha256 ssl).Run (new config disk) calls mgr)
    (hsession : mgr.sessionManager.getSession sessionId = some session)
    : ∃ before call after mgr₀, calls = before ++ call :: after
        ∧ (step sha256 ssl).Run (new config disk) before mgr₀
        ∧ mgr₀.config = config
        ∧ session.sessionId = sessionId
        ∧ mgr₀.Grants sha256 ssl call session := by
  have hkeeps : ∀ {before mgr₀}, (step sha256 ssl).Run (new config disk) before mgr₀ → Keeps config mgr₀ :=
    fun hbefore => hbefore.invariant (keeps_new config disk) fun _ _ _ h hstep => h.step henabled hstep
  obtain ⟨before, call, after, mgr₀, heq, hbefore, hid, hgrants⟩ :=
    hrun.origin (Q := fun mgr => mgr.Holds sessionId session)
      (R := fun mgr call => session.sessionId = sessionId ∧ mgr.Grants sha256 ssl call session)
      ⟨session.lastActivity, hsession⟩ (not_holds_new config disk sessionId session) (by
        intro before mgr₁ call mgr₂ hbefore hstep hholds
        have hkept := hkeeps hbefore
        exact holds_step (hkept.config ▸ henabled) hkept.passwordFile hstep hholds)
  exact ⟨before, call, after, mgr₀, heq, hbefore, (hkeeps hbefore).config, hid, hgrants⟩

/--
The settings of a manager whose password file is `/p`.
-/
def passwordConfig : AuthConfig :=
  { enabled := true, passwordFile := bytes "/p", deniedUsers := [bytes "bob"] }

def passwordDisk : Disk :=
  { Disk.empty with content := fun filename => if filename = bytes "/p" then some (bytes "alice:secret\n") else none }

def aliceLogin : Call Unit :=
  .authenticate { entropy := [] } 0 (bytes "id") (bytes "alice") (bytes "secret") (bytes "10.0.0.1")

/--
An OpenSSL that finds no key.
-/
def noKeys : OpenSsl Unit where
  base64Decode _ := []
  sha256 _ := []
  sha512 _ := []
  rsaKey _ _ := none
  ed25519Key _ := none
  ecKey _ _ := none

theorem granted_alice
    : ∃ session, (perform (fun _ => []) noKeys aliceLogin (new passwordConfig passwordDisk)).sessionManager.getSession
          (bytes "id") = some session
        ∧ ∃ before call after mgr₀, [aliceLogin] = before ++ call :: after
          ∧ (step (fun _ => []) noKeys).Run (new passwordConfig passwordDisk) before mgr₀
          ∧ mgr₀.config = passwordConfig
          ∧ session.sessionId = bytes "id"
          ∧ mgr₀.Grants (fun _ => []) noKeys call session := by
  have hsome : ((perform (fun _ => []) noKeys aliceLogin (new passwordConfig
      passwordDisk)).sessionManager.getSession (bytes "id")).isSome := by decide
  obtain ⟨session, hsession⟩ := Option.isSome_iff_exists.mp hsome
  exact ⟨session, hsession, granted_of_run rfl (.single rfl) hsession⟩

end AuthenticationManager
end SimpleRsyncd
