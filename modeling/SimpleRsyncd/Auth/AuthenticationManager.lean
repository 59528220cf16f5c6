import SimpleRsyncd.Auth.PasswordFile
import SimpleRsyncd.Auth.PublicKeyDatabase
import SimpleRsyncd.Auth.SessionManager
import SimpleRsyncd.Config.Settings
import SimpleRsyncd.Security.SshKey

/-!
This module contains the `AuthenticationManager`. It keeps a copy of the authentication settings it is
constructed with, and reads the files with the credentials at that time.
-/

namespace SimpleRsyncd

namespace PublicKey

variable {Key : Type} (ssl : OpenSsl Key) (oracle : SignatureOracle Key)

def verifySignature (keyInfo : PublicKeyInfo) (data signature : Bytes) : Bool :=
  if keyInfo.keyType = bytes "ssh-rsa" || Bytes.startsWith keyInfo.keyType (bytes "ecdsa-sha2-")
      || keyInfo.keyType = bytes "ssh-ed25519" then
    SshSignatureVerify.verify ssl oracle keyInfo.keyType keyInfo.keyData data signature
  else
    false

end PublicKey

namespace PublicKeyDatabase

/--
A new database, which is loaded if it has a file.
-/
def ofFile (keyFile : Bytes) (disk : Disk) : PublicKeyDatabase :=
  ((new keyFile).load disk).2

variable {Key : Type} (ssl : OpenSsl Key) (oracle : SignatureOracle Key)

def verifySignature (db : PublicKeyDatabase) (username data signature : Bytes) : Bool :=
  match db.keys.lookup username with
  | none => false
  | some userKeys => userKeys.any fun keyInfo => PublicKey.verifySignature ssl oracle keyInfo data signature

end PublicKeyDatabase

structure AuthenticationManager where
  config : AuthConfig
  passwordFile : Option PasswordFile := none
  userDatabase : Option UserDatabase := none
  useUserDatabase : Bool := false
  publicKeyDatabase : Option PublicKeyDatabase := none
  sessionManager : SessionManager := .new 3600

namespace AuthenticationManager

def new (config : AuthConfig) (disk : Disk) : AuthenticationManager :=
  if config.method = bytes "password" then
    {
      config
      passwordFile :=
        if config.passwordFile.isEmpty then
          none
        else
          some (.new config.passwordFile config.rejectPlaintextPasswords disk)
      userDatabase := some (.new [])
    }
  else if config.method = bytes "public_key" then
    {
      config
      publicKeyDatabase :=
        if config.publicKeyFile.isEmpty then none else some (.ofFile config.publicKeyFile disk)
    }
  else
    { config }

@[simp]
theorem config_new (config : AuthConfig) (disk : Disk) : (new config disk).config = config := by
  unfold new
  split
  . rfl
  . split <;> rfl

variable (mgr : AuthenticationManager)

/--
Whether a user may log in at all.
-/
def permits (username : Bytes) : Bool :=
  if username ∈ mgr.config.deniedUsers then
    false
  else
    mgr.config.allowedUsers.isEmpty || username ∈ mgr.config.allowedUsers

section password

variable (sha256 : Bytes → Bytes) (outcome : CryptoOutcome)

def checkPassword (username password : Bytes) : Bool :=
  match mgr.useUserDatabase, mgr.userDatabase with
  | true, some db =>
    match db.getUserInfo username with
    | none => false
    | some userInfo => PasswordHasher.verifyPassword sha256 outcome password userInfo.passwordHash
  | _, _ => mgr.passwordFile.any fun file => file.authenticate sha256 outcome username password

/--
The user a session is created for, `none` if there is none.
-/
def passwordLogin (username password : Bytes) : Option Bytes :=
  if !mgr.config.enabled then
    if mgr.config.anonymousAccess then some (bytes "anonymous") else none
  else if mgr.config.method = bytes "password" then
    if mgr.permits username && mgr.checkPassword sha256 outcome username password then
      some username
    else
      none
  else
    none

theorem isSome_passwordLogin (username password : Bytes) (h : mgr.config.enabled = true)
    : (mgr.passwordLogin sha256 outcome username password).isSome
      = (mgr.config.method = bytes "password"
        && (mgr.permits username && mgr.checkPassword sha256 outcome username password)) := by
  unfold passwordLogin
  by_cases hmethod : mgr.config.method = bytes "password" <;>
    cases mgr.permits username && mgr.checkPassword sha256 outcome username password <;> simp [h, hmethod]

/--
`sessionId` is what `generateSessionId()` returns if a session is created.
-/
def authenticate (now : Time) (sessionId username password clientAddress : Bytes)
    : Bytes × AuthenticationManager :=
  match mgr.passwordLogin sha256 outcome username password with
  | none => ([], mgr)
  | some user =>
    (
      sessionId,
      { mgr with sessionManager := mgr.sessionManager.createSession now sessionId user clientAddress 0 }
    )

def authenticateUser (now : Time) (sessionId username password : Bytes) : Bool × AuthenticationManager :=
  let (sessionId, mgr) := mgr.authenticate sha256 outcome now sessionId username password []
  (!sessionId.isEmpty, mgr)

end password

section key

variable {Key : Type} (ssl : OpenSsl Key) (oracle : SignatureOracle Key)

def checkKey (username data signature : Bytes) : Bool :=
  mgr.publicKeyDatabase.any fun db => db.verifySignature ssl oracle username data signature

def keyLogin (username data signature : Bytes) : Option Bytes :=
  if !mgr.config.enabled then
    if mgr.config.anonymousAccess then some (bytes "anonymous") else none
  else if mgr.config.method ≠ bytes "public_key" then
    none
  else if mgr.permits username && mgr.checkKey ssl oracle username data signature then
    some username
  else
    none

theorem isSome_keyLogin (username data signature : Bytes) (h : mgr.config.enabled = true)
    : (mgr.keyLogin ssl oracle username data signature).isSome
      = (mgr.config.method = bytes "public_key"
        && (mgr.permits username && mgr.checkKey ssl oracle username data signature)) := by
  unfold keyLogin
  by_cases hmethod : mgr.config.method = bytes "public_key" <;>
    cases mgr.permits username && mgr.checkKey ssl oracle username data signature <;> simp [h, hmethod]

def authenticateWithKey (now : Time) (sessionId username data signature clientAddress : Bytes)
    : Bytes × AuthenticationManager :=
  match mgr.keyLogin ssl oracle username data signature with
  | none => ([], mgr)
  | some user =>
    (
      sessionId,
      { mgr with sessionManager := mgr.sessionManager.createSession now sessionId user clientAddress 0 }
    )

def authenticateUserWithKey (now : Time) (sessionId username challenge signature : Bytes)
    : Bool × AuthenticationManager :=
  let (sessionId, mgr) := mgr.authenticateWithKey ssl oracle now sessionId username challenge signature []
  (!sessionId.isEmpty, mgr)

end key

/--
Only one of the files is read again: the password file if there is one, then the user database, which
always is there if the method is a password.
-/
def reload (disk : Disk) : Bool × AuthenticationManager :=
  match mgr.passwordFile, mgr.userDatabase, mgr.publicKeyDatabase with
  | some file, _, _ =>
    let (reloaded, file) := file.reload disk
    (reloaded, { mgr with passwordFile := some file })
  | none, some db, keys =>
    if mgr.useUserDatabase then
      reloadKeys keys
    else
      let (reloaded, db) := db.load disk
      (reloaded, { mgr with userDatabase := some db })
  | none, none, keys => reloadKeys keys
where
  reloadKeys : Option PublicKeyDatabase → Bool × AuthenticationManager
    | some db =>
      let (reloaded, db) := db.load disk
      (reloaded, { mgr with publicKeyDatabase := some db })
    | none => (true, mgr)

end AuthenticationManager
end SimpleRsyncd
