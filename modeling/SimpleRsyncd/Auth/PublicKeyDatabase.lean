import SimpleRsyncd.Auth.PublicKey
import SimpleRsyncd.Bytes.Order
import SimpleRsyncd.Storage.Disk
import SimpleRsyncd.Transition.Basic

/-!
This module contains the database of public keys: the operations that change it and the text file that
it is kept in. When a line is read, the user in front of a key is only recognised if its colon comes
before anything that looks like a key type.
-/

namespace SimpleRsyncd

structure PublicKeyDatabase where
  keyFile : Bytes
  keys : OrderedMap Bytes (List PublicKeyInfo)
  loaded : Bool := false

namespace PublicKeyDatabase

/--
A database before its first key.
-/
def new (keyFile : Bytes) : PublicKeyDatabase where
  keyFile
  keys := .empty

def getUserKeys (db : PublicKeyDatabase) (username : Bytes) : List PublicKeyInfo :=
  (db.keys.lookup username).getD []

def userHasKeys (db : PublicKeyDatabase) (username : Bytes) : Bool :=
  match db.keys.lookup username with
  | none => false
  | some userKeys => !userKeys.isEmpty

def getUsers (db : PublicKeyDatabase) : List Bytes :=
  db.keys.entries.map Prod.fst

/--
`keys_[username].push_back(keyInfo)`.
-/
def pushKey (keys : OrderedMap Bytes (List PublicKeyInfo)) (username : Bytes) (keyInfo : PublicKeyInfo)
    : OrderedMap Bytes (List PublicKeyInfo) :=
  keys.insert username ((keys.lookup username).getD [] ++ [keyInfo])

/--
The user in front of a key, empty if there is none, and the text of the key.
-/
def splitUser (line : Bytes) : Bytes × Bytes :=
  match Bytes.find [colon] line with
  | some pos =>
    if (Bytes.find (bytes "ssh-") line).all (pos < ·) then
      (line.take pos, Bytes.trimLeft (line.drop (pos + 1)))
    else
      ([], line)
  | none => ([], line)

/--
The key on a trimmed line, with its owner.
-/
def parseTrimmed (line : Bytes) : Option PublicKeyInfo := do
  let (username, keyLine) := splitUser line
  let keyInfo ← PublicKey.parse (PublicKey.extractKeyLine keyLine)
  let username := if username.isEmpty then PublicKey.usernameFromComment keyInfo.comment else username
  if username.isEmpty then none else some { keyInfo with username }

theorem parseTrimmed_eq_some {line : Bytes} {k : PublicKeyInfo} (h : parseTrimmed line = some k)
    : ∃ k₀ username, PublicKey.parse (PublicKey.extractKeyLine (splitUser line).2) = some k₀
      ∧ k = { k₀ with username } ∧ username ≠ []
      ∧ username = if (splitUser line).1 = [] then PublicKey.usernameFromComment k₀.comment else (splitUser line).1 := by
  simp only [parseTrimmed] at h
  obtain ⟨k₀, hparse, h⟩ := Option.bind_eq_some_iff.mp h
  simp only [List.isEmpty_iff] at h
  generalize hname : (if (splitUser line).1 = [] then PublicKey.usernameFromComment k₀.comment else (splitUser line).1)
    = username at h
  by_cases hempty : username = []
  . simp [hempty] at h
  . rw [if_neg hempty] at h
    obtain rfl := Option.some.inj h
    exact ⟨k₀, username, hparse, rfl, hempty, hname.symm⟩

/--
The key on a line, `none` where the loop continues with the next line.
-/
def parseLine (line : Bytes) : Option PublicKeyInfo :=
  if line.isEmpty || line.head? = some 35 then
    none
  else
    let line := Bytes.trimRight (Bytes.trimLeft line)
    if line.isEmpty then none else parseTrimmed line

def addLine (keys : OrderedMap Bytes (List PublicKeyInfo)) (line : Bytes)
    : OrderedMap Bytes (List PublicKeyInfo) :=
  match parseLine line with
  | none => keys
  | some keyInfo => pushKey keys keyInfo.username keyInfo

def load (db : PublicKeyDatabase) (disk : Disk) : Bool × PublicKeyDatabase :=
  if db.keyFile.isEmpty then
    (false, db)
  else
    match disk.read db.keyFile with
    | none => (false, { db with keys := .empty })
    | some text => (true, { db with keys := (Bytes.getlines newline text).foldl addLine .empty, loaded := true })

/--
The line of a key, without the newline.
-/
def keyLine (username : Bytes) (keyInfo : PublicKeyInfo) : Bytes :=
  username ++ colon :: 32 :: PublicKey.keyText keyInfo

def fileText (db : PublicKeyDatabase) : Bytes :=
  let lines :=
    bytes "# Public key database"
      :: bytes "# Format: username: key-type key-data [comment]"
      :: db.keys.entries.flatMap fun e => e.2.map (keyLine e.1)
  lines.flatMap (· ++ [newline])

def save (db : PublicKeyDatabase) (disk : Disk) : Bool × Disk :=
  if db.keyFile.isEmpty then
    (false, disk)
  else
    match disk.write db.keyFile db.fileText with
    | none => (false, disk)
    | some disk => (true, disk)

/--
Replace the keys and save them if the database has a file, a failure to save is reported.
-/
def setKeys (db : PublicKeyDatabase) (disk : Disk) (keys : OrderedMap Bytes (List PublicKeyInfo))
    : Bool × PublicKeyDatabase × Disk :=
  let db := { db with keys }
  if db.keyFile.isEmpty then
    (true, db, disk)
  else
    let (saved, disk) := db.save disk
    (saved, db, disk)

def addKey (db : PublicKeyDatabase) (disk : Disk) (username keyString : Bytes)
    : Bool × PublicKeyDatabase × Disk :=
  match PublicKey.parse keyString with
  | none => (false, db, disk)
  | some keyInfo => db.setKeys disk (pushKey db.keys username { keyInfo with username })

def removeKey (db : PublicKeyDatabase) (disk : Disk) (username keyData : Bytes)
    : Bool × PublicKeyDatabase × Disk :=
  match db.keys.lookup username with
  | none => (false, db, disk)
  | some userKeys =>
    let userKeys := userKeys.filter (·.keyData ≠ keyData)
    if userKeys.isEmpty then
      db.setKeys disk (db.keys.erase username)
    else
      db.setKeys disk (db.keys.insert username userKeys)

/--
The calls that change a database.
-/
inductive Action where
  | addKey (username keyString : Bytes)
  | removeKey (username keyData : Bytes)

def perform : Action → PublicKeyDatabase × Disk → PublicKeyDatabase × Disk
  | .addKey username keyString, (db, disk) => (db.addKey disk username keyString).2
  | .removeKey username keyData, (db, disk) => (db.removeKey disk username keyData).2

def step : Transition (PublicKeyDatabase × Disk) Action :=
  .ofFun perform

@[simp]
theorem setKeys_keys (db : PublicKeyDatabase) (disk : Disk) (keys : OrderedMap Bytes (List PublicKeyInfo))
    : (db.setKeys disk keys).2.1.keys = keys := by
  simp only [setKeys]
  split <;> rfl

/--
What a call can do to the keys of a user: leave them alone, add a parsed key at the end, or remove some
of them, the user itself with the last one.
-/
theorem step_cases {s s' : PublicKeyDatabase × Disk} {a : Action} (h : step s a s')
    : s'.1.keys = s.1.keys
      ∨ (∃ username keyString keyInfo, a = .addKey username keyString
        ∧ PublicKey.parse keyString = some keyInfo
        ∧ s'.1.keys = pushKey s.1.keys username { keyInfo with username })
      ∨ ∃ username userKeys, s.1.keys.lookup username = some userKeys
        ∧ ∃ keyData, s'.1.keys = if userKeys.filter (·.keyData ≠ keyData) = [] then
            s.1.keys.erase username
          else
            s.1.keys.insert username (userKeys.filter (·.keyData ≠ keyData)) := by
  obtain ⟨db, disk⟩ := s
  obtain rfl : perform a (db, disk) = s' := h
  cases a with
  | addKey username keyString =>
    simp only [perform, addKey]
    split
    . exact .inl rfl
    . next keyInfo hparse =>
      exact .inr (.inl ⟨username, keyString, keyInfo, rfl, hparse, setKeys_keys ..⟩)
  | removeKey username keyData =>
    simp only [perform, removeKey]
    split
    . exact .inl rfl
    . next userKeys hlookup =>
      refine .inr (.inr ⟨username, userKeys, hlookup, keyData, ?_⟩)
      generalize userKeys.filter (·.keyData ≠ keyData) = remaining
      cases remaining <;> simp

end PublicKeyDatabase
end SimpleRsyncd
