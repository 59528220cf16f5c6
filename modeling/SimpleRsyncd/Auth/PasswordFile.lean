import SimpleRsyncd.Auth.UserDatabase

/-!
This module contains the password file: lines with a user name and a credential that is a hash or a
password in plain text. It is read when the object is constructed and again on a reload.
-/

namespace SimpleRsyncd

structure PasswordFile where
  filename : Bytes
  rejectPlaintext : Bool := false
  users : OrderedMap Bytes Bytes := .empty
  userInfo : OrderedMap Bytes UserInfo := .empty
  loaded : Bool := false

namespace PasswordFile

/--
The user name and the credential on a line, `none` where the loop continues with the next line.
-/
def parseLine (rejectPlaintext : Bool) (line : Bytes) : Option (Bytes × Bytes) :=
  let line := Bytes.trimRight (Bytes.trimLeft line)
  if line.isEmpty || line.head? = some 35 || line.head? = some 59 then
    none
  else
    match Bytes.cut colon line with
    | none | some ([], _) => none
    | some (username, password) =>
      if rejectPlaintext && !PasswordHasher.isHashed password then
        none
      else
        some (Bytes.trimRight (Bytes.trimLeft username), password)

def addLine (file : PasswordFile) (line : Bytes) : PasswordFile :=
  match parseLine file.rejectPlaintext line with
  | none => file
  | some (username, password) =>
    let info : UserInfo := {
      username
      passwordHash := password
      passwordHashed := PasswordHasher.isHashed password
    }
    {
      file with
      users := file.users.insert username password
      userInfo := file.userInfo.insert username info
    }

/--
The users are forgotten at once, what is known about them is not.
-/
def load (file : PasswordFile) (disk : Disk) : Bool × PasswordFile :=
  let file := { file with users := .empty, loaded := false }
  if file.filename.isEmpty then
    (false, file)
  else
    match disk.read file.filename with
    | none => (false, file)
    | some text => (true, { (Bytes.getlines newline text).foldl addLine file with loaded := true })

def new (filename : Bytes) (rejectPlaintext : Bool) (disk : Disk) : PasswordFile :=
  (load { filename, rejectPlaintext } disk).2

variable (sha256 : Bytes → Bytes) (outcome : CryptoOutcome) (file : PasswordFile)

def authenticate (username password : Bytes) : Bool :=
  if !file.loaded then
    false
  else
    match file.users.lookup username with
    | none => false
    | some credential => PasswordHasher.verifyPassword sha256 outcome password credential

def getUserInfo (username : Bytes) : Option UserInfo :=
  if !file.loaded then none else file.userInfo.lookup username

def userExists (username : Bytes) : Bool :=
  file.loaded && (file.users.lookup username).isSome

def reload (disk : Disk) : Bool × PasswordFile :=
  file.load disk

/--
The credential `authenticate` compares against.
-/
def credential (username : Bytes) : Option Bytes :=
  if !file.loaded then none else file.users.lookup username

theorem authenticate_eq (username password : Bytes)
    : file.authenticate sha256 outcome username password
        =
      (file.credential username).any (PasswordHasher.verifyPassword sha256 outcome password) := by
  unfold authenticate credential
  split
  . rfl
  . cases file.users.lookup username <;> rfl

section load

/--
What a user is known by that was read with a credential.
-/
def infoOf (entry : Bytes × Bytes) : UserInfo where
  username := entry.1
  passwordHash := entry.2
  passwordHashed := PasswordHasher.isHashed entry.2

def entries (rejectPlaintext : Bool) (text : Bytes) : List (Bytes × Bytes) :=
  (Bytes.getlines newline text).filterMap (parseLine rejectPlaintext)

/--
The credential in the last entry of a user.
-/
def lastEntry (es : List (Bytes × Bytes)) (username : Bytes) : Option Bytes :=
  (es.reverse.find? (·.1 = username)).map Prod.snd

/--
The text that a load reads.
-/
def opened (filename : Bytes) (disk : Disk) : Option Bytes :=
  if filename.isEmpty then none else disk.read filename

theorem addLine_eq (file : PasswordFile) (line : Bytes)
    : file.addLine line
        =
      { file with
        users := (parseLine file.rejectPlaintext line).elim file.users fun e => file.users.insert e.1 e.2
        userInfo := ((parseLine file.rejectPlaintext line).map fun e => (e.1, infoOf e)).elim file.userInfo
          fun e => file.userInfo.insert e.1 e.2 } := by
  unfold addLine
  split
  . next hparse => rw [hparse]; rfl
  . next hparse => rw [hparse]; rfl

theorem foldl_addLine (file : PasswordFile) (lines : List Bytes)
    : lines.foldl addLine file
        =
      { file with
        users := lines.foldl (fun m line => (parseLine file.rejectPlaintext line).elim m fun e => m.insert e.1 e.2)
          file.users
        userInfo := lines.foldl (fun m line => ((parseLine file.rejectPlaintext line).map fun e => (e.1, infoOf e)).elim m
          fun e => m.insert e.1 e.2) file.userInfo } := by
  induction lines generalizing file with
  | nil => rfl
  | cons line lines ih => rw [List.foldl_cons, ih, addLine_eq]; rfl

theorem find_map_infoOf (es : List (Bytes × Bytes)) (username : Bytes)
    : ((es.map fun e => (e.1, infoOf e)).find? (·.1 = username)).map Prod.snd
        =
      ((es.find? (·.1 = username)).map Prod.snd).map fun c => infoOf (username, c) := by
  have hkey : ((fun e : Bytes × UserInfo => decide (e.1 = username)) ∘ fun e : Bytes × Bytes => (e.1, infoOf e))
      = fun e => decide (e.1 = username) := rfl
  rw [List.find?_map, hkey]
  cases hfind : es.find? (·.1 = username) with
  | none => rfl
  | some e =>
    have husername : e.1 = username := by simpa using List.find?_some hfind
    subst husername
    rfl

/--
What a load leaves behind, the part about `userInfo` is an addition to what was there.
-/
theorem load_spec (disk : Disk) (username : Bytes)
    : (file.load disk).2.filename = file.filename
      ∧ (file.load disk).2.rejectPlaintext = file.rejectPlaintext
      ∧ (file.load disk).2.loaded = (opened file.filename disk).isSome
      ∧ (file.load disk).2.users.lookup username
        = (opened file.filename disk).bind (fun text => lastEntry (entries file.rejectPlaintext text) username)
      ∧ (file.load disk).2.userInfo.lookup username
        = (((opened file.filename disk).bind fun text => lastEntry (entries file.rejectPlaintext text) username).map
          fun c => infoOf (username, c)).or (file.userInfo.lookup username) := by
  unfold load opened
  dsimp only
  split
  . exact ⟨rfl, rfl, rfl, rfl, rfl⟩
  . split
    . next hread =>
      rw [hread]
      exact ⟨rfl, rfl, rfl, rfl, rfl⟩
    . next text hread =>
      rw [hread, foldl_addLine]
      refine ⟨rfl, rfl, rfl, ?_, ?_⟩
      . simp only [OrderedMap.lookup_foldl_last, OrderedMap.lookup_empty, Option.or_none]
        rfl
      . simp only [OrderedMap.lookup_foldl_last, ← List.map_filterMap, ← List.map_reverse, find_map_infoOf]
        rfl

theorem credential_load (disk : Disk) (username : Bytes)
    : (file.load disk).2.credential username
        =
      (opened file.filename disk).bind fun text => lastEntry (entries file.rejectPlaintext text) username := by
  obtain ⟨-, -, hloaded, husers, -⟩ := load_spec file disk username
  rw [credential, hloaded, husers]
  cases opened file.filename disk <;> rfl

end load

end PasswordFile
end SimpleRsyncd
