import SimpleRsyncd.Auth.UserDatabase

/-!
This module contains what a saved user database looks like after it was loaded again. A colon separates
the fields of a line and also the parts of a hash, so a user with a hash comes back with its first part
only; a user without a hash and without permissions has too few fields on its line and gets lost.
-/

namespace SimpleRsyncd

namespace UserDatabase

/--
What a field of a line in the file can hold.
-/
structure IsPlain (s : Bytes) : Prop where
  noColon : colon ∉ s
  noComma : comma ∉ s
  noNewline : newline ∉ s
  noHash : s.head? ≠ some 35
  noSemicolon : s.head? ≠ some 59

instance (s : Bytes) : Decidable (IsPlain s) :=
  decidable_of_iff (colon ∉ s ∧ comma ∉ s ∧ newline ∉ s ∧ s.head? ≠ some 35 ∧ s.head? ≠ some 59)
    ⟨fun ⟨h₁, h₂, h₃, h₄, h₅⟩ => ⟨h₁, h₂, h₃, h₄, h₅⟩, fun ⟨h₁, h₂, h₃, h₄, h₅⟩ => ⟨h₁, h₂, h₃, h₄, h₅⟩⟩

/--
Users are created with a plain name and with plain permissions that are not empty.
-/
def Action.Plain (a : Action) : Prop :=
  ∀ e ∈ a.created, IsPlain e.1 ∧ ∀ permission ∈ e.2, IsPlain permission ∧ permission ≠ []

instance (a : Action) : Decidable a.Plain := by
  unfold Action.Plain
  infer_instance

/--
A hash is empty or has three fields.
-/
def IsHash (hash : Bytes) : Prop :=
  hash = [] ∨ ∃ salt digest, hash = bytes "sha256:" ++ (salt ++ colon :: digest)
    ∧ colon ∉ salt ∧ newline ∉ salt ∧ newline ∉ digest

structure StoredUser (username : Bytes) (userInfo : UserInfo) : Prop where
  name : userInfo.username = username
  plain : IsPlain username
  hash : IsHash userInfo.passwordHash
  permissions : ∀ permission ∈ userInfo.permissions, IsPlain permission ∧ permission ≠ []

def Stored (users : OrderedMap Bytes UserInfo) : Prop :=
  ∀ username userInfo, users.lookup username = some userInfo → StoredUser username userInfo

variable (sha256 : Bytes → Bytes)

theorem stored_step {s s' : UserDatabase × Disk} {a : Action} (hstored : Stored s.1.users)
    (hplain : a.Plain) (h : step sha256 s a s')
    : Stored s'.1.users := by
  rcases step_cases sha256 h with hsame | ⟨name, info, outcome, password, hinsert, hhash, horigin⟩ | ⟨name, herase⟩
  . rw [hsame]
    exact hstored
  . intro username userInfo hlookup
    rw [hinsert, OrderedMap.lookup_insert] at hlookup
    split at hlookup
    . next heq =>
      subst heq
      obtain rfl : info = userInfo := by simpa using hlookup
      have hIsHash : IsHash info.passwordHash := by
        rw [hhash]
        exact PasswordHasher.hashPassword_cases sha256 outcome password
      rcases horigin with ⟨hcreated, hname⟩ | ⟨old, hold, hname, hpermissions⟩
      . obtain ⟨hplainName, hplainPermissions⟩ := hplain _ hcreated
        exact ⟨hname, hplainName, hIsHash, hplainPermissions⟩
      . have hstoredOld := hstored _ _ hold
        refine ⟨hname.trans hstoredOld.name, hstoredOld.plain, hIsHash, ?_⟩
        rw [hpermissions]
        exact hstoredOld.permissions
    . exact hstored _ _ hlookup
  . intro username userInfo hlookup
    rw [herase, OrderedMap.lookup_erase] at hlookup
    split at hlookup
    . simp at hlookup
    . exact hstored _ _ hlookup

section line

variable {username : Bytes} {userInfo : UserInfo}

theorem StoredUser.newline_notMem_userLine (h : StoredUser username userInfo)
    : newline ∉ userLine username userInfo := by
  have hhash : newline ∉ userInfo.passwordHash := by
    rcases h.hash with hhash | ⟨salt, digest, hhash, -, hsalt, hdigest⟩
    . simp [hhash]
    . have hscheme : newline ∉ bytes "sha256:" := by decide
      have hcolon : newline ≠ colon := by decide
      rw [hhash]
      simp [hscheme, hsalt, hdigest, hcolon]
  have hpermissions : newline ∉ [comma].intercalate userInfo.permissions := by
    intro hmem
    rcases Bytes.mem_of_mem_intercalate hmem with heq | ⟨permission, hpermission, hmem⟩
    . simp [newline, comma] at heq
    . exact (h.permissions permission hpermission).1.noNewline hmem
  have hcolon : newline ≠ colon := by decide
  unfold userLine
  split <;> simp [h.plain.noNewline, hhash, hcolon, hpermissions]

/--
The line of a user starts with its name, and with nothing that makes it a comment.
-/
theorem StoredUser.parseLine_eq (h : StoredUser username userInfo) (rest : Bytes)
    : parseLine (username ++ colon :: rest) = (Bytes.cut colon rest).map fun fields =>
      {
        username
        passwordHash := fields.1
        passwordHashed := PasswordHasher.isHashed fields.1
        permissions := Bytes.getlines comma fields.2
      } := by
  have hcut : Bytes.cut colon (username ++ colon :: rest) = some (username, rest) :=
    Bytes.cut_append h.plain.noColon
  have hhead : ∀ c, username.head? ≠ some c → c ≠ colon → (username ++ colon :: rest).head? ≠ some c := by
    intro c hname hc
    cases username with
    | nil => simpa using hc.symm
    | cons b bs => simpa using hname
  have hhash := hhead 35 h.plain.noHash (by decide)
  have hsemicolon := hhead 59 h.plain.noSemicolon (by decide)
  have hempty : (username ++ colon :: rest).isEmpty = false := by simp
  simp only [parseLine, hempty, hhash, hsemicolon, decide_false, Bool.or_self, Bool.false_eq_true, if_false, hcut]
  simp only [Option.bind_eq_bind, Option.bind_some]
  cases Bytes.cut colon rest <;> rfl

/--
Only the name of the digest is left of a hash.
-/
theorem StoredUser.parseLine_of_hash (h : StoredUser username userInfo) (hhash : userInfo.passwordHash ≠ [])
    : ∃ userInfo', parseLine (userLine username userInfo) = some userInfo' ∧ userInfo'.username = username
      ∧ userInfo'.passwordHash = bytes "sha256" := by
  obtain ⟨salt, digest, hfields, -⟩ := h.hash.resolve_left hhash
  have hscheme : bytes "sha256:" = bytes "sha256" ++ [colon] := by decide
  have hline : ∃ rest, userLine username userInfo = username ++ colon :: (bytes "sha256" ++ colon :: rest) := by
    unfold userLine
    rw [hfields, hscheme]
    split
    . exact ⟨salt ++ colon :: digest, by simp⟩
    . exact ⟨salt ++ colon :: digest ++ colon :: [comma].intercalate userInfo.permissions, by simp⟩
  obtain ⟨rest, hline⟩ := hline
  rw [hline, h.parseLine_eq, Bytes.cut_append (by decide)]
  exact ⟨_, rfl, rfl, rfl⟩

theorem StoredUser.parseLine_of_permissions (h : StoredUser username userInfo)
    (hhash : userInfo.passwordHash = []) (hpermissions : userInfo.permissions ≠ [])
    : ∃ userInfo', parseLine (userLine username userInfo) = some userInfo' ∧ userInfo'.username = username
      ∧ userInfo'.passwordHash = [] ∧ userInfo'.permissions = userInfo.permissions := by
  have hline : userLine username userInfo
      = username ++ colon :: ([] ++ colon :: [comma].intercalate userInfo.permissions) := by
    simp [userLine, hhash, hpermissions]
  have hitems : Bytes.getlines comma ([comma].intercalate userInfo.permissions) = userInfo.permissions :=
    Bytes.getlines_intercalate (fun permission hmem => (h.permissions permission hmem).1.noComma)
      (fun permission hmem => (h.permissions permission hmem).2) hpermissions
  rw [hline, h.parseLine_eq, Bytes.cut_append (by simp)]
  exact ⟨_, rfl, rfl, rfl, hitems⟩

theorem StoredUser.parseLine_of_bare (h : StoredUser username userInfo)
    (hhash : userInfo.passwordHash = []) (hpermissions : userInfo.permissions = [])
    : parseLine (userLine username userInfo) = none := by
  have hline : userLine username userInfo = username ++ colon :: [] := by
    simp [userLine, hhash, hpermissions]
  rw [hline, h.parseLine_eq, Bytes.cut_eq_none (by simp)]
  rfl

/--
A user that is read at all is read under its own name.
-/
theorem StoredUser.username_eq (h : StoredUser username userInfo) {userInfo' : UserInfo}
    (hparse : parseLine (userLine username userInfo) = some userInfo')
    : userInfo'.username = username := by
  by_cases hhash : userInfo.passwordHash = []
  . by_cases hpermissions : userInfo.permissions = []
    . simp [h.parseLine_of_bare hhash hpermissions] at hparse
    . obtain ⟨info, hinfo, hname, -⟩ := h.parseLine_of_permissions hhash hpermissions
      simp_all
  . obtain ⟨info, hinfo, hname, -⟩ := h.parseLine_of_hash hhash
    simp_all

end line

theorem addLine_of_comment (users : OrderedMap Bytes UserInfo) (line : Bytes)
    : addLine users (35 :: line) = users := by
  simp [addLine, parseLine]

/--
What has been saved is loaded, line by line.
-/
theorem users_load_save {db db' loaded : UserDatabase} {disk disk' : Disk}
    (hfile : db'.databaseFile = db.databaseFile) (hsave : db.save disk = (true, disk'))
    (hload : db'.load disk' = (true, loaded))
    : loaded.users = (Bytes.getlines newline db.fileText).foldl addLine .empty := by
  simp only [save, load, hfile] at hsave hload
  split at hsave
  . simp at hsave
  . next hnamed =>
    rw [if_neg hnamed] at hload
    split at hsave
    . simp at hsave
    . next hwrite =>
      split at hload
      . simp at hload
      . next text hread =>
        obtain rfl : _ = disk' := by simpa using hsave
        obtain rfl := Disk.read_write hwrite hread
        simp only [Prod.mk.injEq, true_and] at hload
        rw [← hload]

/--
What is stored under a name after loading is what the line of that name is read as.
-/
theorem lookup_load_save {db db' loaded : UserDatabase} {disk disk' : Disk} (hstored : Stored db.users)
    (hfile : db'.databaseFile = db.databaseFile) (hsave : db.save disk = (true, disk'))
    (hload : db'.load disk' = (true, loaded)) (username : Bytes)
    : loaded.users.lookup username
      = (db.users.lookup username).bind fun userInfo => parseLine (userLine username userInfo) := by
  have hentry : ∀ e ∈ db.users.entries, StoredUser e.1 e.2 := by
    intro e he
    exact hstored _ _ (db.users.mem_entries_iff.mp he)
  have htext := users_load_save hfile hsave hload
  have hlines : Bytes.getlines newline db.fileText
      = bytes "# User database file"
        :: bytes "# Format: username:password_hash:permissions:metadata"
        :: db.users.entries.map fun e => userLine e.1 e.2 := by
    refine Bytes.getlines_flatMap ?_
    intro line hline
    rcases List.mem_cons.mp hline with rfl | hline
    . decide
    . rcases List.mem_cons.mp hline with rfl | hline
      . decide
      . obtain ⟨e, he, rfl⟩ := List.mem_map.mp hline
        exact (hentry e he).newline_notMem_userLine
  have hfold : loaded.users = db.users.entries.foldl (fun users e =>
      (((parseLine (userLine e.1 e.2)).map fun userInfo => (userInfo.username, userInfo)).elim users
        fun e' => users.insert e'.1 e'.2)) .empty := by
    rw [htext, hlines, List.foldl_cons, List.foldl_cons, List.foldl_map]
    have hfirst : ∀ users, addLine users (bytes "# User database file") = users :=
      fun users => addLine_of_comment users _
    have hsecond : ∀ users,
        addLine users (bytes "# Format: username:password_hash:permissions:metadata") = users :=
      fun users => addLine_of_comment users _
    rw [hfirst, hsecond]
    congr 1
    funext users e
    unfold addLine
    cases parseLine (userLine e.1 e.2) <;> rfl
  rw [hfold, OrderedMap.lookup_foldl_insert _ _ _ db.users.nodup_keys, OrderedMap.lookup_empty,
    Option.or_none]
  . simp only [Option.map_map, OrderedMap.lookup]
    congr 1
    funext userInfo
    cases parseLine (userLine username userInfo) <;> rfl
  . intro e he e' hparse
    obtain ⟨userInfo', hline, rfl⟩ := Option.map_eq_some_iff.mp hparse
    exact (hentry e he).username_eq hline

/--
Two databases have the same users, with the same hashes and permissions, who can log in with the same
passwords.
-/
structure SameUsers (db db' : UserDatabase) : Prop where
  usernames : db'.getUsers = db.getUsers
  fields : ∀ username userInfo userInfo', db.getUserInfo username = some userInfo
    → db'.getUserInfo username = some userInfo'
    → userInfo'.passwordHash = userInfo.passwordHash ∧ userInfo'.permissions = userInfo.permissions
  passwords : ∀ username userInfo userInfo', db.getUserInfo username = some userInfo
    → db'.getUserInfo username = some userInfo'
    → ∀ outcome password, PasswordHasher.verifyPassword sha256 outcome password userInfo'.passwordHash
      = PasswordHasher.verifyPassword sha256 outcome password userInfo.passwordHash

theorem stored_of_run {databaseFile : Bytes} {disk₀ disk : Disk} {as : List Action} {db : UserDatabase}
    (hrun : Transition.Run ((step sha256).restrict fun _ a => a.Plain) (new databaseFile, disk₀) as (db, disk))
    : Stored db.users := by
  refine hrun.invariant (I := fun s => Stored s.1.users) ?_ ?_
  . intro username userInfo h
    simp [new] at h
  . rintro s a s' hs ⟨hplain, hstep⟩
    exact stored_step sha256 hs hplain hstep

section reread

variable {db loaded : UserDatabase} {username : Bytes} {userInfo : UserInfo}

/--
A hash does not come back, only the name of its digest does.
-/
theorem SameUsers.passwordHash_eq_nil (h : SameUsers sha256 db loaded) (hstored : StoredUser username userInfo)
    (hget : db.users.lookup username = some userInfo)
    (hloaded : loaded.users.lookup username = parseLine (userLine username userInfo))
    : userInfo.passwordHash = [] := by
  by_contra hhash
  obtain ⟨userInfo', hline, -, hhash'⟩ := hstored.parseLine_of_hash hhash
  obtain ⟨salt, digest, hfields, -⟩ := hstored.hash.resolve_left hhash
  have hsame := (h.fields _ _ _ hget (hloaded.trans hline)).1
  rw [hhash', hfields] at hsame
  have hlength := congrArg List.length hsame
  simp [bytes] at hlength

/--
A user without a hash and without permissions does not come back.
-/
theorem SameUsers.permissions_ne_nil (h : SameUsers sha256 db loaded) (hstored : StoredUser username userInfo)
    (hget : db.users.lookup username = some userInfo)
    (hloaded : loaded.users.lookup username = parseLine (userLine username userInfo))
    (hhash : userInfo.passwordHash = [])
    : userInfo.permissions ≠ [] := by
  intro hpermissions
  have hlost : loaded.users.lookup username = none := hloaded.trans (hstored.parseLine_of_bare hhash hpermissions)
  have hmem : username ∈ db.getUsers := by
    rw [getUsers, OrderedMap.mem_keys_iff, hget]
    simp
  rw [← h.usernames, getUsers, OrderedMap.mem_keys_iff] at hmem
  exact hmem hlost

/--
Databases in which the same names are stored with the same fields have the same users.
-/
theorem sameUsers_of_lookup (hnone : ∀ username, db.users.lookup username = none → loaded.users.lookup username = none)
    (hread : ∀ username userInfo, db.users.lookup username = some userInfo →
      ∃ userInfo', loaded.users.lookup username = some userInfo'
        ∧ userInfo'.passwordHash = userInfo.passwordHash ∧ userInfo'.permissions = userInfo.permissions)
    : SameUsers sha256 db loaded := by
  have hfields : ∀ username userInfo userInfo', db.getUserInfo username = some userInfo
      → loaded.getUserInfo username = some userInfo'
      → userInfo'.passwordHash = userInfo.passwordHash ∧ userInfo'.permissions = userInfo.permissions := by
    intro username userInfo userInfo' hget hget'
    obtain ⟨info, hinfo, hsame⟩ := hread _ _ hget
    obtain rfl : userInfo' = info := by
      rw [getUserInfo, hinfo] at hget'
      simpa using hget'.symm
    exact hsame
  refine ⟨?_, hfields, ?_⟩
  . refine OrderedMap.keys_eq_of_lookup fun username => ?_
    constructor
    . exact mt (hnone username)
    . intro hdb
      obtain ⟨userInfo, hget⟩ := Option.ne_none_iff_exists'.mp hdb
      obtain ⟨userInfo', hget', -⟩ := hread _ _ hget
      simp [hget']
  . intro username userInfo userInfo' hget hget' outcome password
    rw [(hfields _ _ _ hget hget').1]

end reread

/--
Saving and loading a database keeps it if and only if no user has a hash, which needs the digest to
have failed for each of them, and each has a permission.
-/
theorem sameUsers_load_save_iff {databaseFile : Bytes} {disk₀ disk disk' disk'' : Disk}
    {as : List Action} {db db' loaded : UserDatabase}
    (hrun : Transition.Run ((step sha256).restrict fun _ a => a.Plain) (new databaseFile, disk₀) as (db, disk))
    (hfile : db'.databaseFile = db.databaseFile) (hsave : db.save disk' = (true, disk''))
    (hload : db'.load disk'' = (true, loaded))
    : SameUsers sha256 db loaded ↔ ∀ username userInfo, db.getUserInfo username = some userInfo
      → userInfo.passwordHash = [] ∧ userInfo.permissions ≠ [] := by
  have hstored := stored_of_run sha256 hrun
  have hlookup := lookup_load_save hstored hfile hsave hload
  have hline : ∀ username userInfo, db.users.lookup username = some userInfo →
      loaded.users.lookup username = parseLine (userLine username userInfo) := by
    intro username userInfo hget
    rw [hlookup, hget]
    rfl
  constructor
  . intro h username userInfo hget
    have hhash := h.passwordHash_eq_nil sha256 (hstored _ _ hget) hget (hline _ _ hget)
    exact ⟨hhash, h.permissions_ne_nil sha256 (hstored _ _ hget) hget (hline _ _ hget) hhash⟩
  . intro h
    refine sameUsers_of_lookup sha256 (fun username hnone => by rw [hlookup, hnone]; rfl) ?_
    intro username userInfo hget
    obtain ⟨hhash, hpermissions⟩ := h _ _ hget
    obtain ⟨userInfo', hparse, -, hhash', hpermissions'⟩ :=
      (hstored _ _ hget).parseLine_of_permissions hhash hpermissions
    exact ⟨userInfo', (hline _ _ hget).trans hparse, hhash'.trans hhash.symm, hpermissions'⟩

/--
The digest of the salt `000102030405060708090a0b0c0d0e0f` and the password `secret`.
-/
def sampleDigest : Bytes → Bytes := fun _ =>
  [96, 45, 102, 216, 128, 144, 13, 218, 170, 23, 145, 222, 196, 27, 72, 99, 197, 153, 141, 194, 113, 46, 131, 65, 118, 52, 182, 79, 146, 15, 21, 239]

def createAlice : Action :=
  .createUser { entropy := (List.range 16).map UInt8.ofNat } (bytes "alice") (bytes "secret") [bytes "read"]

def savedAlice : UserDatabase × Disk :=
  perform sampleDigest createAlice (new (bytes "/etc/users.db"), Disk.empty)

def loadedAlice : Bool × UserDatabase :=
  savedAlice.1.load (savedAlice.1.save savedAlice.2).2

/--
The password of the only user is replaced by `sha256`, which is then accepted in plain text.
-/
theorem not_sameUsers_alice : Transition.Run ((step sampleDigest).restrict fun _ a => a.Plain)
      (new (bytes "/etc/users.db"), Disk.empty) [createAlice] savedAlice
    ∧ (savedAlice.1.save savedAlice.2).1 = true ∧ loadedAlice.1 = true
    ∧ ¬SameUsers sampleDigest savedAlice.1 loadedAlice.2 := by
  refine ⟨.single ⟨by decide, rfl⟩, by decide, by decide, ?_⟩
  intro h
  have hstored : ∃ userInfo, savedAlice.1.getUserInfo (bytes "alice") = some userInfo
      ∧ userInfo.passwordHash ≠ bytes "sha256" := by
    refine ⟨(savedAlice.1.getUserInfo (bytes "alice")).get (by decide), ?_, ?_⟩
    . simp
    . decide
  have hloaded : ∃ userInfo', loadedAlice.2.getUserInfo (bytes "alice") = some userInfo'
      ∧ userInfo'.passwordHash = bytes "sha256" := by
    refine ⟨(loadedAlice.2.getUserInfo (bytes "alice")).get (by decide), ?_, ?_⟩
    . simp
    . decide
  obtain ⟨userInfo, hget, hhash⟩ := hstored
  obtain ⟨userInfo', hget', hhash'⟩ := hloaded
  exact hhash ((h.fields _ _ _ hget hget').1.symm.trans hhash')

def createBob : Action :=
  .createUser { entropy := (List.range 16).map UInt8.ofNat, digestFails := true } (bytes "bob") (bytes "secret")
    [bytes "read"]

def savedBob : UserDatabase × Disk :=
  perform sampleDigest createBob (new (bytes "/etc/users.db"), Disk.empty)

theorem sameUsers_bob : SameUsers sampleDigest savedBob.1 (savedBob.1.load (savedBob.1.save savedBob.2).2).2 := by
  have hrun : Transition.Run ((step sampleDigest).restrict fun _ a => a.Plain)
      (new (bytes "/etc/users.db"), Disk.empty) [createBob] (savedBob.1, savedBob.2) :=
    .single ⟨by decide, rfl⟩
  have hsave : (savedBob.1.save savedBob.2).1 = true := by decide
  have hload : (savedBob.1.load (savedBob.1.save savedBob.2).2).1 = true := by decide
  refine (sameUsers_load_save_iff sampleDigest hrun rfl (Prod.ext hsave rfl) (Prod.ext hload rfl)).mpr ?_
  intro username userInfo hget
  have hmem := savedBob.1.users.mem_entries_iff.mpr hget
  have hall : ∀ e ∈ savedBob.1.users.entries, e.2.passwordHash = [] ∧ e.2.permissions ≠ [] := by
    decide
  exact hall _ hmem

end UserDatabase
end SimpleRsyncd
