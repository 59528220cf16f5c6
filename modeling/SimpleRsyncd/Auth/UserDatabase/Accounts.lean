import SimpleRsyncd.Auth.AuthenticationManager
import SimpleRsyncd.Auth.Mutators
import SimpleRsyncd.Auth.PasswordHasher.Verify

/-!
This module contains accounts, which know the password that was set last where a user database has a hash.
The database refines them over every sequence of calls: the users are the accounts, and a password is
accepted if it is the one of the account, up to collisions of the salted digest.
-/

namespace SimpleRsyncd

open PasswordHasher

/--
What a user is checked against: a hash that was read from a file, or a password together with what OpenSSL
did when it was set.
-/
inductive Credential where
  | given (hash : Bytes)
  | set (outcome : CryptoOutcome) (password : Bytes)

structure Account where
  credential : Credential
  permissions : List Bytes
  passwordExpires : Time

/--
The accounts by their names.
-/
abbrev Accounts := Bytes → Option Account

namespace Credential

variable (sha256 : Bytes → Bytes)

def hash : Credential → Bytes
  | .given hash => hash
  | .set outcome password => hashPassword sha256 outcome password []

/--
The random numbers of the salt are there.
-/
def Salted : Credential → Prop
  | .given _ => True
  | .set outcome _ => outcome.entropy.length = 16

end Credential

namespace PasswordHasher

variable {sha256 : Bytes → Bytes} {outcome setting : CryptoOutcome} {attempt password salt digest : Bytes}

end PasswordHasher

namespace Accounts

/--
An account that a call sets up or changes.
-/
def put (accounts : Accounts) (username : Bytes) (account : Account) : Accounts :=
  Function.update accounts username (some account)

/--
What a call makes of the accounts, `none` if it is refused. A new password does not change when it expires.
-/
def perform : UserDatabase.Action → Accounts → Option Accounts
  | .createUser outcome username password permissions, accounts =>
    if (accounts username).isSome then
      none
    else
      some (accounts.put username
        { credential := .set outcome password, permissions, passwordExpires := Time.max })
  | .createUserWithPolicy outcome now username password permissions policy, accounts =>
    if (accounts username).isSome || !(PasswordPolicyValidator.validatePassword password policy).1 then
      none
    else
      some (accounts.put username {
        credential := .set outcome password
        permissions
        passwordExpires := if policy.expirationHours > 0 then now + Time.hours policy.expirationHours else Time.max
      })
  | .updatePassword outcome username newPassword, accounts =>
    (accounts username).map fun account =>
      accounts.put username { account with credential := .set outcome newPassword }
  | .deleteUser username, accounts =>
    (accounts username).map fun _ => Function.update accounts username none

def act (accounts : Accounts) (a : UserDatabase.Action) : Accounts :=
  (accounts.perform a).getD accounts

/--
The accounts after some calls.
-/
def after (accounts : Accounts) (as : List UserDatabase.Action) : Accounts :=
  as.foldl act accounts

variable {accounts : Accounts} {username : Bytes}

@[simp]
theorem put_apply (username' : Bytes) (account : Account)
    : accounts.put username account username' = if username' = username then some account else accounts username' := by
  simp [put, Function.update_apply]

@[simp]
theorem after_concat (as : List UserDatabase.Action) (a : UserDatabase.Action)
    : accounts.after (as ++ [a]) = (accounts.after as).act a := by
  simp [after]

end Accounts

namespace UserDatabase

open Accounts

variable (sha256 : Bytes → Bytes)

/--
What the database knows about an account.
-/
structure Describes (account : Account) (userInfo : UserInfo) : Prop where
  passwordHash : userInfo.passwordHash = account.credential.hash sha256
  permissions : userInfo.permissions = account.permissions
  passwordExpires : userInfo.passwordExpires = account.passwordExpires

/--
The users of the database are the accounts.
-/
def Refines (users : OrderedMap Bytes UserInfo) (accounts : Accounts) : Prop :=
  ∀ username, Option.Rel (Describes sha256) (accounts username) (users.lookup username)

/--
The accounts of a database that has been loaded.
-/
def accounts (db : UserDatabase) : Accounts :=
  fun username => (db.getUserInfo username).map fun userInfo => {
    credential := .given userInfo.passwordHash
    permissions := userInfo.permissions
    passwordExpires := userInfo.passwordExpires
  }

variable {sha256} {db : UserDatabase} {users : OrderedMap Bytes UserInfo} {accounts : Accounts} {username : Bytes}
  {account : Account} {userInfo : UserInfo}

theorem Refines.cases (h : Refines sha256 users accounts) (username : Bytes)
    : (accounts username = none ∧ users.lookup username = none)
        ∨ ∃ account userInfo, accounts username = some account ∧ users.lookup username = some userInfo
          ∧ Describes sha256 account userInfo := by
  have hrel := h username
  cases haccount : accounts username <;> cases huser : users.lookup username <;> simp_all

theorem Refines.isSome_eq (h : Refines sha256 users accounts) (username : Bytes)
    : (accounts username).isSome = (users.lookup username).isSome := by
  rcases h.cases username with ⟨haccount, huser⟩ | ⟨account, userInfo, haccount, huser, -⟩ <;>
    simp [haccount, huser]

theorem Refines.insert (h : Refines sha256 users accounts) (hdescribes : Describes sha256 account userInfo)
    (username : Bytes)
    : Refines sha256 (users.insert username userInfo) (accounts.put username account) := by
  intro username'
  rw [put_apply, OrderedMap.lookup_insert]
  split
  . exact .some hdescribes
  . exact h username'

theorem Refines.erase (h : Refines sha256 users accounts) (username : Bytes)
    : Refines sha256 (users.erase username) (Function.update accounts username none) := by
  intro username'
  rw [Function.update_apply, OrderedMap.lookup_erase]
  split
  . exact .none
  . exact h username'

/--
A call succeeds on the database exactly if it does on the accounts, and does the same to both.
-/
theorem Refines.call (h : Refines sha256 db.users accounts) (a : Action) (disk : Disk)
    : (call sha256 a db disk).1 = (accounts.perform a).isSome
        ∧ Refines sha256 (call sha256 a db disk).2.1.users (accounts.act a) := by
  have hexists : ∀ username, (accounts username).isSome = db.userExists username := h.isSome_eq
  unfold act
  cases a with
  | createUser outcome username password permissions =>
    simp only [UserDatabase.call, createUser, Accounts.perform, hexists]
    cases db.userExists username with
    | true => exact ⟨rfl, h⟩
    | false =>
      refine ⟨rfl, ?_⟩
      simp only [Bool.false_eq_true, if_false, setUsers_users, Option.getD_some]
      exact h.insert ⟨rfl, rfl, rfl⟩ username
  | createUserWithPolicy outcome now username password permissions policy =>
    simp only [UserDatabase.call, createUserWithPolicy, Accounts.perform, hexists]
    cases db.userExists username with
    | true => exact ⟨rfl, h⟩
    | false =>
      cases (PasswordPolicyValidator.validatePassword password policy).1 with
      | false => exact ⟨rfl, h⟩
      | true =>
        refine ⟨rfl, ?_⟩
        simp only [Bool.false_eq_true, if_false, Bool.not_true, Bool.or_self, setUsers_users, Option.getD_some]
        exact h.insert ⟨rfl, rfl, rfl⟩ username
  | updatePassword outcome username newPassword =>
    simp only [UserDatabase.call, updatePassword, Accounts.perform]
    rcases h.cases username with ⟨haccount, huser⟩ | ⟨account, userInfo, haccount, huser, hdescribes⟩
    . rw [haccount, huser]
      exact ⟨rfl, h⟩
    . have hdescribes' : Describes sha256 { account with credential := .set outcome newPassword } {
          userInfo with
          passwordHash := hashPassword sha256 outcome newPassword []
          passwordHashed := true
          failedLoginAttempts := 0
        } :=
        ⟨rfl, hdescribes.permissions, hdescribes.passwordExpires⟩
      rw [haccount, huser]
      refine ⟨rfl, ?_⟩
      simp only [setUsers_users, Option.map_some, Option.getD_some]
      exact h.insert hdescribes' username
  | deleteUser username =>
    simp only [UserDatabase.call, deleteUser, Accounts.perform]
    rcases h.cases username with ⟨haccount, huser⟩ | ⟨account, userInfo, haccount, huser, -⟩
    . rw [haccount, huser]
      exact ⟨rfl, h⟩
    . rw [haccount, huser]
      refine ⟨rfl, ?_⟩
      simp only [setUsers_users, Option.map_some, Option.getD_some]
      exact h.erase username

/--
What OpenSSL does during a call, if it sets a password.
-/
def Action.outcome : Action → Option CryptoOutcome
  | .createUser outcome .. | .createUserWithPolicy outcome .. | .updatePassword outcome .. => some outcome
  | .deleteUser _ => none

/--
A call that sets a password has the random numbers for its salt.
-/
def Action.Salted (a : Action) : Prop :=
  ∀ outcome ∈ a.outcome, outcome.entropy.length = 16

/--
Whatever an account is checked against, its salt is there.
-/
def AllSalted (accounts : Accounts) : Prop :=
  ∀ username, ∀ account ∈ accounts username, account.credential.Salted

theorem AllSalted.put (h : AllSalted accounts) (haccount : account.credential.Salted) (username : Bytes)
    : AllSalted (accounts.put username account) := by
  intro username' account' hmem
  rw [put_apply] at hmem
  split at hmem
  . obtain rfl := Option.some.inj hmem
    exact haccount
  . exact h _ _ hmem

theorem AllSalted.act (h : AllSalted accounts) {a : Action} (ha : a.Salted) : AllSalted (accounts.act a) := by
  unfold Accounts.act
  cases a with
  | createUser outcome username password permissions =>
    simp only [Accounts.perform]
    split
    . exact h
    . refine h.put ?_ username
      exact ha _ rfl
  | createUserWithPolicy outcome now username password permissions policy =>
    simp only [Accounts.perform]
    split
    . exact h
    . refine h.put ?_ username
      exact ha _ rfl
  | updatePassword outcome username newPassword =>
    simp only [Accounts.perform]
    cases accounts username with
    | none => exact h
    | some account =>
      refine h.put ?_ username
      exact ha _ rfl
  | deleteUser username =>
    simp only [Accounts.perform]
    cases accounts username with
    | none => exact h
    | some account =>
      intro username' account' hmem
      simp only [Option.map_some, Option.getD_some, Function.update_apply] at hmem
      split at hmem
      . contradiction
      . exact h _ _ hmem

end UserDatabase
end SimpleRsyncd
