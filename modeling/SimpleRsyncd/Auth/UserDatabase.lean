import SimpleRsyncd.Auth.PasswordHasher
import SimpleRsyncd.Bytes.Order
import SimpleRsyncd.Storage.Disk
import SimpleRsyncd.Transition.Basic

/-!
This module contains the user database: the operations that change it and the text file that it is
kept in. Every operation that changes a database with a file saves it at once.
-/

namespace SimpleRsyncd

structure UserInfo where
  username : Bytes
  passwordHash : Bytes
  passwordHashed : Bool := false
  passwordExpires : Time := Time.max
  accountExpires : Time := Time.max
  accountLocked : Bool := false
  failedLoginAttempts : Nat := 0
  permissions : List Bytes := []
  deriving DecidableEq

structure UserDatabase where
  databaseFile : Bytes
  users : OrderedMap Bytes UserInfo

namespace UserDatabase

def userExists (db : UserDatabase) (username : Bytes) : Bool :=
  (db.users.lookup username).isSome

def getUserInfo (db : UserDatabase) (username : Bytes) : Option UserInfo :=
  db.users.lookup username

def getUsers (db : UserDatabase) : List Bytes :=
  db.users.entries.map Prod.fst

/--
The line of a user, without the newline.
-/
def userLine (username : Bytes) (userInfo : UserInfo) : Bytes :=
  username ++ colon :: userInfo.passwordHash
    ++ if userInfo.permissions.isEmpty then [] else colon :: [comma].intercalate userInfo.permissions

def fileText (db : UserDatabase) : Bytes :=
  let lines :=
    bytes "# User database file"
      :: bytes "# Format: username:password_hash:permissions:metadata"
      :: db.users.entries.map fun e => userLine e.1 e.2
  lines.flatMap (· ++ [newline])

def save (db : UserDatabase) (disk : Disk) : Bool × Disk :=
  if db.databaseFile.isEmpty then
    (false, disk)
  else
    match disk.write db.databaseFile db.fileText with
    | none => (false, disk)
    | some disk => (true, disk)

/--
The user on a line, `none` where the loop continues with the next line.
-/
def parseLine (line : Bytes) : Option UserInfo :=
  if line.isEmpty || line.head? = some 35 || line.head? = some 59 then
    none
  else do
    let (username, rest) ← Bytes.cut colon line
    let (passwordHash, permissionsStr) ← Bytes.cut colon rest
    some {
      username
      passwordHash
      passwordHashed := PasswordHasher.isHashed passwordHash
      permissions := Bytes.getlines comma permissionsStr
    }

def addLine (users : OrderedMap Bytes UserInfo) (line : Bytes) : OrderedMap Bytes UserInfo :=
  match parseLine line with
  | none => users
  | some userInfo => users.insert userInfo.username userInfo

def load (db : UserDatabase) (disk : Disk) : Bool × UserDatabase :=
  if db.databaseFile.isEmpty then
    (false, db)
  else
    match disk.read db.databaseFile with
    | none => (false, { db with users := .empty })
    | some text => (true, { db with users := (Bytes.getlines newline text).foldl addLine .empty })

/--
Replace the users and save them if the database has a file, whether that worked is not checked.
-/
def setUsers (db : UserDatabase) (disk : Disk) (users : OrderedMap Bytes UserInfo) : UserDatabase × Disk :=
  let db := { db with users }
  if db.databaseFile.isEmpty then (db, disk) else (db, (db.save disk).2)

variable (sha256 : Bytes → Bytes)

def createUser (db : UserDatabase) (disk : Disk) (outcome : CryptoOutcome) (username password : Bytes)
    (permissions : List Bytes) : Bool × UserDatabase × Disk :=
  if db.userExists username then
    (false, db, disk)
  else
    let userInfo : UserInfo := {
      username
      passwordHash := PasswordHasher.hashPassword sha256 outcome password []
      passwordHashed := true
      permissions
    }
    (true, db.setUsers disk (db.users.insert username userInfo))

def createUserWithPolicy (db : UserDatabase) (disk : Disk) (outcome : CryptoOutcome) (now : Time)
    (username password : Bytes) (permissions : List Bytes) (policy : PasswordPolicy)
    : Bool × UserDatabase × Disk :=
  if db.userExists username then
    (false, db, disk)
  else if !(PasswordPolicyValidator.validatePassword password policy).1 then
    (false, db, disk)
  else
    let userInfo : UserInfo := {
      username
      passwordHash := PasswordHasher.hashPassword sha256 outcome password []
      passwordHashed := true
      passwordExpires := if policy.expirationHours > 0 then now + Time.hours policy.expirationHours else Time.max
      permissions
    }
    (true, db.setUsers disk (db.users.insert username userInfo))

def updatePassword (db : UserDatabase) (disk : Disk) (outcome : CryptoOutcome) (username newPassword : Bytes)
    : Bool × UserDatabase × Disk :=
  match db.users.lookup username with
  | none => (false, db, disk)
  | some userInfo =>
    let userInfo := { userInfo with
      passwordHash := PasswordHasher.hashPassword sha256 outcome newPassword []
      passwordHashed := true
      failedLoginAttempts := 0
    }
    (true, db.setUsers disk (db.users.insert username userInfo))

def deleteUser (db : UserDatabase) (disk : Disk) (username : Bytes) : Bool × UserDatabase × Disk :=
  match db.users.lookup username with
  | none => (false, db, disk)
  | some _ => (true, db.setUsers disk (db.users.erase username))

/--
The calls that change a database.
-/
inductive Action where
  | createUser (outcome : CryptoOutcome) (username password : Bytes) (permissions : List Bytes)
  | createUserWithPolicy (outcome : CryptoOutcome) (now : Time) (username password : Bytes)
    (permissions : List Bytes) (policy : PasswordPolicy)
  | updatePassword (outcome : CryptoOutcome) (username newPassword : Bytes)
  | deleteUser (username : Bytes)

def perform : Action → UserDatabase × Disk → UserDatabase × Disk
  | .createUser outcome username password permissions, (db, disk) =>
    (db.createUser sha256 disk outcome username password permissions).2
  | .createUserWithPolicy outcome now username password permissions policy, (db, disk) =>
    (db.createUserWithPolicy sha256 disk outcome now username password permissions policy).2
  | .updatePassword outcome username newPassword, (db, disk) =>
    (db.updatePassword sha256 disk outcome username newPassword).2
  | .deleteUser username, (db, disk) => (db.deleteUser disk username).2

def step : Transition (UserDatabase × Disk) Action :=
  .ofFun (perform sha256)

/--
A database before its first user.
-/
def new (databaseFile : Bytes) : UserDatabase where
  databaseFile
  users := .empty

@[simp]
theorem setUsers_users (db : UserDatabase) (disk : Disk) (users : OrderedMap Bytes UserInfo)
    : (db.setUsers disk users).1.users = users := by
  simp only [setUsers]
  split <;> rfl

namespace Action

/--
The name and the permissions of the user that a call is to create.
-/
def created : Action → Option (Bytes × List Bytes)
  | .createUser _ username _ permissions => some (username, permissions)
  | .createUserWithPolicy _ _ username _ permissions _ => some (username, permissions)
  | .updatePassword .. => none
  | .deleteUser _ => none

end Action

/--
What a call can do to the users: leave them alone, create a user or change one of them, which comes
with a freshly computed hash, or remove one.
-/
theorem step_cases {s s' : UserDatabase × Disk} {a : Action} (h : step sha256 s a s')
    : s'.1.users = s.1.users
      ∨ (∃ username userInfo outcome password, s'.1.users = s.1.users.insert username userInfo
        ∧ userInfo.passwordHash = PasswordHasher.hashPassword sha256 outcome password []
        ∧ (a.created = some (username, userInfo.permissions) ∧ userInfo.username = username
          ∨ ∃ old, s.1.users.lookup username = some old ∧ userInfo.username = old.username
            ∧ userInfo.permissions = old.permissions))
      ∨ ∃ username, s'.1.users = s.1.users.erase username := by
  obtain ⟨db, disk⟩ := s
  obtain rfl : perform sha256 a (db, disk) = s' := h
  cases a with
  | createUser outcome username password permissions =>
    simp only [perform, createUser]
    split
    . exact .inl rfl
    . refine .inr (.inl ⟨username, _, outcome, password, setUsers_users .., rfl, .inl ⟨rfl, rfl⟩⟩)
  | createUserWithPolicy outcome now username password permissions policy =>
    simp only [perform, createUserWithPolicy]
    split
    . exact .inl rfl
    . split
      . exact .inl rfl
      . refine .inr (.inl ⟨username, _, outcome, password, setUsers_users .., rfl, .inl ⟨rfl, rfl⟩⟩)
  | updatePassword outcome username newPassword =>
    simp only [perform, updatePassword]
    split
    . exact .inl rfl
    . next old hold =>
      exact .inr (.inl ⟨username, _, outcome, newPassword, setUsers_users .., rfl, .inr ⟨old, hold, rfl, rfl⟩⟩)
  | deleteUser username =>
    simp only [perform, deleteUser]
    split
    . exact .inl rfl
    . exact .inr (.inr ⟨username, setUsers_users ..⟩)

end UserDatabase
end SimpleRsyncd
