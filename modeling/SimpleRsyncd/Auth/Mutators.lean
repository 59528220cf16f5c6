import SimpleRsyncd.Auth.PasswordHasher.Verify
import SimpleRsyncd.Auth.PublicKeyDatabase
import SimpleRsyncd.Auth.UserDatabase

/-!
This module determines when the calls that change a database report truthfully. One database ignores whether
it could be saved, the other reports it after the change was made.
-/

namespace SimpleRsyncd

/--
What a call reports against what it did: true promises that the change was made and saved, false that
nothing has changed.
-/
def ReportsTruthfully (reported : Bool) (changed saved unchanged : Prop) : Prop :=
  (reported = true → changed ∧ saved) ∧ (reported = false → unchanged)

theorem Disk.write_isSome (disk : Disk) (name text : Bytes) : (disk.write name text).isSome = disk.writable name := by
  unfold write
  split
  . next hwritable => rw [hwritable]; rfl
  . next hwritable => rw [Bool.eq_false_iff.mpr hwritable]; rfl

namespace UserDatabase

variable (sha256 : Bytes → Bytes)

def call : Action → UserDatabase → Disk → Bool × UserDatabase × Disk
  | .createUser outcome username password permissions, db, disk =>
    db.createUser sha256 disk outcome username password permissions
  | .createUserWithPolicy outcome now username password permissions policy, db, disk =>
    db.createUserWithPolicy sha256 disk outcome now username password permissions policy
  | .updatePassword outcome username newPassword, db, disk => db.updatePassword sha256 disk outcome username newPassword
  | .deleteUser username, db, disk => db.deleteUser disk username

/--
What a call is asked to do to the user it names.
-/
def Action.Asks (users users' : OrderedMap Bytes UserInfo) : Action → Prop
  | .createUser outcome username password permissions
  | .createUserWithPolicy outcome _ username password permissions _ =>
    ∃ userInfo, users'.lookup username = some userInfo ∧ userInfo.username = username
      ∧ userInfo.passwordHash = PasswordHasher.hashPassword sha256 outcome password []
      ∧ userInfo.permissions = permissions
  | .updatePassword outcome username newPassword =>
    ∃ old userInfo, users.lookup username = some old ∧ users'.lookup username = some userInfo
      ∧ userInfo.passwordHash = PasswordHasher.hashPassword sha256 outcome newPassword []
      ∧ userInfo.permissions = old.permissions
  | .deleteUser username => users'.lookup username = none

def Action.username : Action → Bytes
  | .createUser _ username _ _ => username
  | .createUserWithPolicy _ _ username _ _ _ => username
  | .updatePassword _ username _ => username
  | .deleteUser username => username

/--
The change is in memory, and it is the only one.
-/
def Action.Changes (a : Action) (users users' : OrderedMap Bytes UserInfo) : Prop :=
  a.Asks sha256 users users' ∧ ∀ username, username ≠ a.username → users'.lookup username = users.lookup username

def Truthful (a : Action) (db : UserDatabase) (disk : Disk) : Prop :=
  let result := call sha256 a db disk
  ReportsTruthfully result.1 (a.Changes sha256 db.users result.2.1.users) (result.2.1.save disk = (true, result.2.2))
    (result.2.1.users = db.users)

/--
The calls that a database refuses without looking at the disk.
-/
def refuses (db : UserDatabase) : Action → Bool
  | .createUser _ username _ _ => db.userExists username
  | .createUserWithPolicy _ _ username password _ policy =>
    db.userExists username || !(PasswordPolicyValidator.validatePassword password policy).1
  | .updatePassword _ username _ | .deleteUser username => !db.userExists username

section user

variable {sha256} {db : UserDatabase} {disk : Disk} {a : Action}

theorem save_fst (hfile : db.databaseFile ≠ []) : (db.save disk).1 = disk.writable db.databaseFile := by
  rw [← disk.write_isSome _ db.fileText, save, if_neg (by simpa using hfile)]
  cases disk.write db.databaseFile db.fileText <;> rfl

/--
Calls that are refused do nothing, the others make their change and report it.
-/
theorem call_cases (sha256 : Bytes → Bytes) (a : Action) (db : UserDatabase) (disk : Disk)
    : (db.refuses a = true ∧ call sha256 a db disk = (false, db, disk))
      ∨ (db.refuses a = false ∧ ∃ users, a.Changes sha256 db.users users
        ∧ call sha256 a db disk = (true, db.setUsers disk users)) := by
  cases a with
  | createUser outcome username password permissions =>
    simp only [call, createUser, refuses]
    cases db.userExists username with
    | true => exact .inl ⟨rfl, rfl⟩
    | false =>
      exact .inr ⟨rfl, _, ⟨⟨_, OrderedMap.lookup_insert_self .., rfl, rfl, rfl⟩,
        fun _ hne => OrderedMap.lookup_insert_of_ne _ _ hne⟩, rfl⟩
  | createUserWithPolicy outcome now username password permissions policy =>
    simp only [call, createUserWithPolicy, refuses]
    cases db.userExists username with
    | true => exact .inl ⟨rfl, rfl⟩
    | false =>
      cases (PasswordPolicyValidator.validatePassword password policy).1 with
      | false => exact .inl ⟨rfl, rfl⟩
      | true =>
        exact .inr ⟨rfl, _, ⟨⟨_, OrderedMap.lookup_insert_self .., rfl, rfl, rfl⟩,
          fun _ hne => OrderedMap.lookup_insert_of_ne _ _ hne⟩, rfl⟩
  | updatePassword outcome username newPassword =>
    simp only [call, updatePassword, refuses, userExists]
    cases hlookup : db.users.lookup username with
    | none => exact .inl ⟨rfl, rfl⟩
    | some old =>
      refine .inr ⟨rfl, _, ?_, rfl⟩
      exact ⟨⟨old, _, hlookup, OrderedMap.lookup_insert_self .., rfl, rfl⟩,
        fun _ hne => OrderedMap.lookup_insert_of_ne _ _ hne⟩
  | deleteUser username =>
    simp only [call, deleteUser, refuses, userExists]
    cases hlookup : db.users.lookup username with
    | none => exact .inl ⟨rfl, rfl⟩
    | some old =>
      refine .inr ⟨rfl, _, ⟨?_, fun other hne => ?_⟩, rfl⟩
      . simp only [Action.Asks, OrderedMap.lookup_erase, if_true]
      . rw [OrderedMap.lookup_erase]
        exact if_neg hne

theorem truthful_iff (sha256 : Bytes → Bytes) (a : Action) (disk : Disk) (hfile : db.databaseFile ≠ [])
    : Truthful sha256 a db disk ↔ disk.writable db.databaseFile = true ∨ db.refuses a = true := by
  unfold Truthful ReportsTruthfully
  rcases call_cases sha256 a db disk with ⟨hrefuses, hcall⟩ | ⟨hrefuses, users, hchanges, hcall⟩
  . simp [hcall, hrefuses]
  . have hsave : ({ db with users } : UserDatabase).save disk = (true, (({ db with users } : UserDatabase).save disk).2)
        ↔ disk.writable db.databaseFile = true := by
      have hfst : (({ db with users } : UserDatabase).save disk).1 = disk.writable db.databaseFile := save_fst hfile
      rw [← hfst]
      exact ⟨fun h => by rw [h], fun h => by rw [← h]⟩
    simp only [hcall, hrefuses, setUsers, List.isEmpty_iff, hfile, if_false, hchanges, true_and, hsave]
    simp

end user
end UserDatabase

namespace PublicKeyDatabase

def call : Action → PublicKeyDatabase → Disk → Bool × PublicKeyDatabase × Disk
  | .addKey username keyString, db, disk => db.addKey disk username keyString
  | .removeKey username keyData, db, disk => db.removeKey disk username keyData

/--
The keys of a user.
-/
def keysOf (keys : OrderedMap Bytes (List PublicKeyInfo)) (username : Bytes) : List PublicKeyInfo :=
  (keys.lookup username).getD []

/--
What a call is asked to do to the keys of the user it names.
-/
def Action.Asks (keys keys' : OrderedMap Bytes (List PublicKeyInfo)) : Action → Prop
  | .addKey username keyString => ∃ keyInfo, PublicKey.parse keyString = some keyInfo
    ∧ keysOf keys' username = keysOf keys username ++ [{ keyInfo with username }]
  | .removeKey username keyData => keysOf keys' username = (keysOf keys username).filter (·.keyData ≠ keyData)

def Action.username : Action → Bytes
  | .addKey username _ | .removeKey username _ => username

def Action.Changes (a : Action) (keys keys' : OrderedMap Bytes (List PublicKeyInfo)) : Prop :=
  a.Asks keys keys' ∧ ∀ username, username ≠ a.username → keys'.lookup username = keys.lookup username

def Truthful (a : Action) (db : PublicKeyDatabase) (disk : Disk) : Prop :=
  let result := call a db disk
  ReportsTruthfully result.1 (a.Changes db.keys result.2.1.keys) (result.2.1.save disk = (true, result.2.2))
    (result.2.1.keys = db.keys)

/--
The calls that leave the keys as they are: the key does not parse, the user is not known, or has keys but
not this one.
-/
def leaves (db : PublicKeyDatabase) : Action → Bool
  | .addKey _ keyString => (PublicKey.parse keyString).isNone
  | .removeKey username keyData =>
    match db.keys.lookup username with
    | none => true
    | some userKeys => !userKeys.isEmpty && userKeys.all (·.keyData ≠ keyData)

section key

variable {db : PublicKeyDatabase} {disk : Disk} {a : Action}

theorem save_fst (hfile : db.keyFile ≠ []) : (db.save disk).1 = disk.writable db.keyFile := by
  rw [← disk.write_isSome _ db.fileText, save, if_neg (by simpa using hfile)]
  cases disk.write db.keyFile db.fileText <;> rfl

theorem keysOf_pushKey (keys : OrderedMap Bytes (List PublicKeyInfo)) (username other : Bytes) (keyInfo : PublicKeyInfo)
    : keysOf (pushKey keys username keyInfo) other
      = if other = username then keysOf keys other ++ [keyInfo] else keysOf keys other := by
  rw [keysOf, pushKey, OrderedMap.lookup_insert]
  split
  . next heq =>
    rw [heq]
    rfl
  . rfl

theorem pushKey_ne (keys : OrderedMap Bytes (List PublicKeyInfo)) (username : Bytes) (keyInfo : PublicKeyInfo)
    : pushKey keys username keyInfo ≠ keys := by
  intro heq
  have hlength := congrArg (fun keys => (keysOf keys username).length) heq
  simp [keysOf_pushKey] at hlength

/--
The keys with what is left of the keys of one user, the user goes with the last one.
-/
def setRemaining (keys : OrderedMap Bytes (List PublicKeyInfo)) (username : Bytes) (remaining : List PublicKeyInfo)
    : OrderedMap Bytes (List PublicKeyInfo) :=
  if remaining.isEmpty then keys.erase username else keys.insert username remaining

theorem lookup_setRemaining (keys : OrderedMap Bytes (List PublicKeyInfo)) (username other : Bytes)
    (remaining : List PublicKeyInfo)
    : (setRemaining keys username remaining).lookup other
        =
      if other = username then (if remaining.isEmpty then none else some remaining) else keys.lookup other := by
  unfold setRemaining
  split
  . exact OrderedMap.lookup_erase ..
  . exact OrderedMap.lookup_insert ..

theorem keysOf_setRemaining (keys : OrderedMap Bytes (List PublicKeyInfo)) (username other : Bytes)
    (remaining : List PublicKeyInfo)
    : keysOf (setRemaining keys username remaining) other
      = if other = username then remaining else keysOf keys other := by
  rw [keysOf, lookup_setRemaining]
  split
  . split
    . next hempty => exact (List.isEmpty_iff.mp hempty).symm
    . rfl
  . rfl

theorem setRemaining_eq_iff {keys : OrderedMap Bytes (List PublicKeyInfo)} {username : Bytes}
    {userKeys remaining : List PublicKeyInfo} (hlookup : keys.lookup username = some userKeys)
    : setRemaining keys username remaining = keys ↔ userKeys ≠ [] ∧ remaining = userKeys := by
  constructor
  . intro heq
    have hsame := congrArg (OrderedMap.lookup · username) heq
    simp only [lookup_setRemaining, if_true, hlookup, Option.ite_none_left_eq_some, Option.some.injEq] at hsame
    obtain ⟨hne, rfl⟩ := hsame
    exact ⟨by simpa using hne, rfl⟩
  . rintro ⟨hne, rfl⟩
    refine OrderedMap.ext_lookup fun other => ?_
    rw [lookup_setRemaining]
    split
    . next heq => rw [if_neg (by simpa using hne), heq, hlookup]
    . rfl

/--
Calls that return early do nothing, the others make their change before they look at the disk.
-/
theorem call_cases (a : Action) (db : PublicKeyDatabase) (disk : Disk)
    : (db.leaves a = true ∧ call a db disk = (false, db, disk))
      ∨ ∃ keys, a.Changes db.keys keys ∧ (keys = db.keys ↔ db.leaves a = true) ∧ call a db disk = db.setKeys disk keys := by
  cases a with
  | addKey username keyString =>
    simp only [call, addKey, leaves]
    cases hparse : PublicKey.parse keyString with
    | none => exact .inl ⟨rfl, rfl⟩
    | some keyInfo =>
      refine .inr ⟨pushKey db.keys username { keyInfo with username }, ⟨⟨keyInfo, hparse, ?_⟩,
        fun _ hne => OrderedMap.lookup_insert_of_ne _ _ hne⟩, ?_, rfl⟩
      . rw [keysOf_pushKey, if_pos rfl]
      . simp [pushKey_ne]
  | removeKey username keyData =>
    simp only [call, removeKey, leaves]
    cases hlookup : db.keys.lookup username with
    | none => exact .inl ⟨rfl, rfl⟩
    | some userKeys =>
      refine .inr ⟨setRemaining db.keys username (userKeys.filter (·.keyData ≠ keyData)), ⟨?_, ?_⟩, ?_, ?_⟩
      . rw [Action.Asks, keysOf_setRemaining, if_pos rfl, keysOf, hlookup]
        rfl
      . intro other hne
        rw [lookup_setRemaining]
        exact if_neg hne
      . rw [setRemaining_eq_iff hlookup]
        simp
      . unfold setRemaining
        simp only
        split <;> rfl

theorem truthful_iff (a : Action) (disk : Disk) (hfile : db.keyFile ≠ [])
    : Truthful a db disk ↔ disk.writable db.keyFile = true ∨ db.leaves a = true := by
  unfold Truthful ReportsTruthfully
  rcases call_cases a db disk with ⟨hleaves, hcall⟩ | ⟨keys, hchanges, hsame, hcall⟩
  . simp [hcall, hleaves]
  . have hsave : (({ db with keys } : PublicKeyDatabase).save disk).1 = disk.writable db.keyFile :=
      save_fst hfile
    simp only [hcall, setKeys, List.isEmpty_iff, hfile, if_false, hsave, hchanges, true_and, hsame]
    cases hwritable : disk.writable db.keyFile with
    | true =>
      rw [hwritable] at hsave
      simp [Prod.ext_iff, hsave]
    | false => simp

end key
end PublicKeyDatabase

/--
A call on a database with a file reports truthfully if and only if the file can be opened for writing or
there is nothing to do.
-/
theorem mutators_truthful_iff (sha256 : Bytes → Bytes) (userDb : UserDatabase) (userCall : UserDatabase.Action)
    (keyDb : PublicKeyDatabase) (keyCall : PublicKeyDatabase.Action) (disk : Disk) (huserFile : userDb.databaseFile ≠ [])
    (hkeyFile : keyDb.keyFile ≠ [])
    : (UserDatabase.Truthful sha256 userCall userDb disk
          ↔ disk.writable userDb.databaseFile = true ∨ userDb.refuses userCall = true)
        ∧ (PublicKeyDatabase.Truthful keyCall keyDb disk
          ↔ disk.writable keyDb.keyFile = true ∨ keyDb.leaves keyCall = true) :=
  ⟨UserDatabase.truthful_iff sha256 userCall disk huserFile, PublicKeyDatabase.truthful_iff keyCall disk hkeyFile⟩

section sample

def sampleUserCall : UserDatabase.Action :=
  .createUser PasswordHasher.sampleOutcome (bytes "u") (bytes "pw") []

def sampleKeyCall : PublicKeyDatabase.Action :=
  .addKey (bytes "u") (bytes "ssh-ed25519 AAAA")

theorem mutators_truthful_writable
    : UserDatabase.Truthful PasswordHasher.sampleSha256 sampleUserCall (.new (bytes "users")) .empty
      ∧ PublicKeyDatabase.Truthful sampleKeyCall (.new (bytes "keys")) .empty := by
  have hiff := mutators_truthful_iff PasswordHasher.sampleSha256 (.new (bytes "users")) sampleUserCall
    (.new (bytes "keys")) sampleKeyCall .empty (by decide) (by decide)
  exact ⟨hiff.1.mpr (.inl rfl), hiff.2.mpr (.inl rfl)⟩

/--
A disk on which nothing can be written.
-/
def fullDisk : Disk :=
  { Disk.empty with writable := fun _ => false }

/--
The user database says that the user was created although it was not saved, the key database says that
the key was not added although it is in memory.
-/
theorem not_mutators_truthful_fullDisk
    : ¬UserDatabase.Truthful PasswordHasher.sampleSha256 sampleUserCall (.new (bytes "users")) fullDisk
      ∧ ¬PublicKeyDatabase.Truthful sampleKeyCall (.new (bytes "keys")) fullDisk := by
  constructor
  . rw [UserDatabase.truthful_iff _ _ _ (by decide)]
    decide
  . rw [PublicKeyDatabase.truthful_iff _ _ (by decide)]
    decide

end sample
end SimpleRsyncd
