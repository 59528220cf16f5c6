import SimpleRsyncd.Auth.Credentials
import SimpleRsyncd.Auth.Mutators
import SimpleRsyncd.Auth.PublicKeyDatabase.RoundTrip

/-!
This module determines what is left of the keys of a user once one of them is revoked, after any calls on the
database and any changes to its file. A revoked key is not looked at again before it is added or loaded again.
-/

namespace SimpleRsyncd
namespace PublicKeyDatabase

/--
What happens to a database: it is loaded, a call changes it, or somebody else changes the files.
-/
inductive Event where
  | load
  | call (a : Action)
  | files (disk : Disk)

def act : Event → PublicKeyDatabase × Disk → PublicKeyDatabase × Disk
  | .load, (db, disk) => ((db.load disk).2, disk)
  | .call a, s => perform a s
  | .files disk, (db, _) => (db, disk)

def history : Transition (PublicKeyDatabase × Disk) Event :=
  .ofFun act

section keys

variable {keys : OrderedMap Bytes (List PublicKeyInfo)} {username other keyData : Bytes}

theorem noEmpty_setRemaining (h : NoEmpty keys) (username : Bytes) (remaining : List PublicKeyInfo)
    : NoEmpty (setRemaining keys username remaining) := by
  intro other
  rw [lookup_setRemaining]
  split
  . split
    . simp
    . next hsome => simpa using hsome
  . exact h other

end keys

variable {db : PublicKeyDatabase} {disk : Disk} {username other keyData : Bytes} {s s' : PublicKeyDatabase × Disk}
  {e : Event} {es : List Event}

/--
What an event can do to the keys: nothing, read them from a file, add one, or remove the keys of a user that
have the same data.
-/
theorem history_cases (h : history s e s')
    : s'.1.keys = s.1.keys
      ∨ (e = .load ∧ ∃ lines : List Bytes, s'.1.keys = lines.foldl addLine .empty)
      ∨ (∃ username keyString keyInfo, e = .call (.addKey username keyString)
        ∧ PublicKey.parse keyString = some keyInfo
        ∧ s'.1.keys = pushKey s.1.keys username { keyInfo with username })
      ∨ ∃ username keyData, s'.1.keys
        = setRemaining s.1.keys username ((keysOf s.1.keys username).filter (·.keyData ≠ keyData)) := by
  obtain ⟨db, disk⟩ := s
  obtain rfl : act e (db, disk) = s' := h
  cases e with
  | load =>
    simp only [act, load]
    split
    . exact .inl rfl
    . split
      . -- the keys are gone although the file cannot be read
        exact .inr (.inl ⟨trivial, [], rfl⟩)
      . exact .inr (.inl ⟨trivial, _, rfl⟩)
  | call a =>
    have hstep : step (db, disk) a (act (.call a) (db, disk)) := rfl
    rcases step_cases hstep with hsame | ⟨username, keyString, keyInfo, rfl, hparse, hkeys⟩ | ⟨username, userKeys, hlookup, keyData, hkeys⟩
    . exact .inl hsame
    . exact .inr (.inr (.inl ⟨username, keyString, keyInfo, rfl, hparse, hkeys⟩))
    . refine .inr (.inr (.inr ⟨username, keyData, ?_⟩))
      rw [hkeys, keysOf, hlookup, Option.getD_some, setRemaining]
      simp only [List.isEmpty_iff]
  | files disk => exact .inl rfl

theorem noEmpty_step (hnoEmpty : NoEmpty s.1.keys) (h : history s e s') : NoEmpty s'.1.keys := by
  rcases history_cases h with hkeys | ⟨-, lines, hkeys⟩ | ⟨username, keyString, keyInfo, -, -, hkeys⟩ | ⟨username, keyData, hkeys⟩
  all_goals rw [hkeys]
  . exact hnoEmpty
  . exact noEmpty_foldl_addLine lines (by simp [NoEmpty])
  . exact noEmpty_pushKey hnoEmpty username _
  . exact noEmpty_setRemaining hnoEmpty username _

/--
No user is ever stored without keys.
-/
theorem noEmpty_run {keyFile : Bytes} {disk₀ : Disk} (hrun : history.Run (new keyFile, disk₀) es s) : NoEmpty s.1.keys :=
  hrun.invariant (by simp [NoEmpty, new]) fun _ _ _ => noEmpty_step

theorem userHasKeys_iff (h : NoEmpty db.keys) (username : Bytes)
    : db.userHasKeys username = true ↔ username ∈ db.getUsers := by
  have hne := h username
  rw [getUsers, OrderedMap.mem_keys_iff, userHasKeys]
  cases hlookup : db.keys.lookup username with
  | none => simp
  | some userKeys =>
    rw [hlookup] at hne
    simpa using hne

theorem keys_removeKey (disk : Disk) (keyData : Bytes) {userKeys : List PublicKeyInfo} (h : db.keys.lookup username = some userKeys)
    : (db.removeKey disk username keyData).2.1.keys
      = setRemaining db.keys username (userKeys.filter (·.keyData ≠ keyData)) := by
  simp only [removeKey, h, setRemaining]
  split <;> exact setKeys_keys ..

section verify

variable {Key : Type} (ssl : OpenSsl Key) (oracle : SignatureOracle Key)

/--
The loop of `verifySignature`: what it returns, and the keys that it has tried until then.
-/
def tryKeys (data signature : Bytes) : List PublicKeyInfo → Bool × List PublicKeyInfo
  | [] => (false, [])
  | keyInfo :: rest =>
    if PublicKey.verifySignature ssl oracle keyInfo data signature then
      (true, [keyInfo])
    else
      let (verified, tried) := tryKeys data signature rest
      (verified, keyInfo :: tried)

/--
What `verifySignature` returns, and the keys that it consults.
-/
def consult (db : PublicKeyDatabase) (username data signature : Bytes) : Bool × List PublicKeyInfo :=
  match db.keys.lookup username with
  | none => (false, [])
  | some userKeys => tryKeys ssl oracle data signature userKeys

variable {data signature : Bytes}

theorem tryKeys_fst (userKeys : List PublicKeyInfo)
    : (tryKeys ssl oracle data signature userKeys).1
      = userKeys.any fun keyInfo => PublicKey.verifySignature ssl oracle keyInfo data signature := by
  induction userKeys with
  | nil => rfl
  | cons keyInfo rest ih =>
    rw [tryKeys, List.any_cons]
    split
    . next hverified => rw [hverified, Bool.true_or]
    . next hrejected => rw [Bool.eq_false_iff.mpr hrejected, Bool.false_or, ← ih]

theorem isPrefix_tryKeys (userKeys : List PublicKeyInfo) : (tryKeys ssl oracle data signature userKeys).2 <+: userKeys := by
  induction userKeys with
  | nil => exact List.prefix_rfl
  | cons keyInfo rest ih =>
    rw [tryKeys]
    split
    . exact List.prefix_append [keyInfo] rest
    . exact List.cons_prefix_cons.mpr ⟨rfl, ih⟩

theorem consult_fst (db : PublicKeyDatabase) (username : Bytes)
    : (db.consult ssl oracle username data signature).1 = db.verifySignature ssl oracle username data signature := by
  unfold consult verifySignature
  cases db.keys.lookup username with
  | none => rfl
  | some userKeys => exact tryKeys_fst ssl oracle userKeys

theorem isPrefix_consult (db : PublicKeyDatabase) (username : Bytes)
    : (db.consult ssl oracle username data signature).2 <+: db.getUserKeys username := by
  unfold consult getUserKeys
  cases db.keys.lookup username with
  | none => exact List.prefix_rfl
  | some userKeys => exact isPrefix_tryKeys ssl oracle userKeys

end verify

/--
The events that can bring a revoked key back: a load, and a call that adds a key with the same data.
-/
def Event.Restores (username keyData : Bytes) : Event → Prop
  | .load => True
  | .call (.addKey username' keyString) =>
    username' = username ∧ ∃ keyInfo, PublicKey.parse keyString = some keyInfo ∧ keyInfo.keyData = keyData
  | .call (.removeKey _ _) | .files _ => False

/--
The user has no key with these data.
-/
def Revoked (username keyData : Bytes) (keys : OrderedMap Bytes (List PublicKeyInfo)) : Prop :=
  ∀ keyInfo ∈ keysOf keys username, keyInfo.keyData ≠ keyData

theorem revoked_step (hrevoked : Revoked username keyData s.1.keys)
    (h : (history.restrict fun _ e => ¬e.Restores username keyData) s e s')
    : Revoked username keyData s'.1.keys := by
  obtain ⟨hkeeps, hstep⟩ := h
  rcases history_cases hstep with hkeys | ⟨rfl, -⟩ | ⟨username', keyString, k, rfl, hparse, hkeys⟩ | ⟨username', keyData', hkeys⟩
  . rwa [hkeys]
  . exact absurd trivial hkeeps
  . rw [hkeys]
    intro keyInfo hmem
    rw [keysOf_pushKey] at hmem
    split at hmem
    . next heq =>
      rcases List.mem_append.mp hmem with hmem | hmem
      . exact hrevoked keyInfo hmem
      . -- a key with the same data may not be added here
        obtain rfl := List.mem_singleton.mp hmem
        exact fun hdata => hkeeps ⟨heq.symm, k, hparse, hdata⟩
    . exact hrevoked keyInfo hmem
  . rw [hkeys]
    intro keyInfo hmem
    rw [keysOf_setRemaining] at hmem
    split at hmem
    . next heq =>
      obtain rfl := heq
      exact hrevoked keyInfo (List.mem_of_mem_filter hmem)
    . exact hrevoked keyInfo hmem

/--
What the removal of a key leaves: the other keys of the user in their order, and what the other users have.
-/
theorem removeKey_exact (disk : Disk) (keyData : Bytes) (hmem : username ∈ db.getUsers)
    : (db.removeKey disk username keyData).2.1.getUserKeys username
        = (db.getUserKeys username).filter (·.keyData ≠ keyData)
      ∧ ∀ other, other ≠ username →
        (db.removeKey disk username keyData).2.1.keys.lookup other = db.keys.lookup other := by
  rw [getUsers, OrderedMap.mem_keys_iff] at hmem
  obtain ⟨userKeys, hlookup⟩ := Option.ne_none_iff_exists'.mp hmem
  have hkeys := keys_removeKey disk keyData hlookup
  constructor
  . rw [getUserKeys, hkeys, getUserKeys, hlookup]
    exact (keysOf_setRemaining ..).trans (if_pos rfl)
  . intro other hne
    rw [hkeys, lookup_setRemaining, if_neg hne]

/--
In every state that loads, calls and changes to the files lead to, a user is stored only with keys, and once a key
is removed no check of a signature of the user tries it, until it is added or loaded again.
-/
theorem revocation_exact {Key : Type} (ssl : OpenSsl Key) (oracle : SignatureOracle Key) {keyFile : Bytes}
    {disk₀ disk : Disk} {es : List Event} {db : PublicKeyDatabase}
    (hrun : history.Run (new keyFile, disk₀) es (db, disk))
    : (∀ username, db.keys.lookup username ≠ some [])
      ∧ (∀ username, db.userHasKeys username = true ↔ username ∈ db.getUsers)
      ∧ ∀ username keyData, username ∈ db.getUsers →
        (db.removeKey disk username keyData).2.1.getUserKeys username
            = (db.getUserKeys username).filter (·.keyData ≠ keyData)
          ∧ (∀ other, other ≠ username →
            (db.removeKey disk username keyData).2.1.keys.lookup other = db.keys.lookup other)
          ∧ ∀ es s, (history.restrict fun _ e => ¬e.Restores username keyData).Run (db.removeKey disk username keyData).2 es s →
            ∀ data signature,
              (s.1.consult ssl oracle username data signature).1 = s.1.verifySignature ssl oracle username data signature
                ∧ ∀ keyInfo ∈ (s.1.consult ssl oracle username data signature).2, keyInfo.keyData ≠ keyData := by
  have hnoEmpty : NoEmpty db.keys := noEmpty_run hrun
  refine ⟨hnoEmpty, userHasKeys_iff hnoEmpty, ?_⟩
  intro username keyData hmem
  obtain ⟨hremaining, hothers⟩ := removeKey_exact disk keyData hmem
  refine ⟨hremaining, hothers, ?_⟩
  intro es s hafter data signature
  have hrevoked : Revoked username keyData s.1.keys := by
    refine hafter.invariant (I := fun s => Revoked username keyData s.1.keys) ?_ fun _ _ _ => revoked_step
    intro keyInfo hkey
    have hkey : keyInfo ∈ (db.removeKey disk username keyData).2.1.getUserKeys username := hkey
    rw [hremaining] at hkey
    simpa using (List.mem_filter.mp hkey).2
  exact ⟨consult_fst ssl oracle s.1 username, fun keyInfo hkey =>
    hrevoked keyInfo ((isPrefix_consult ssl oracle s.1 username).subset hkey)⟩

def addTwice : Event :=
  .call (.addKey (bytes "bob") (bytes "ssh-rsa AAAAB3 laptop"))

/--
A database to which a key was added a second time.
-/
def duplicated : PublicKeyDatabase × Disk :=
  act addTwice (act addTwice (new [], .empty))

theorem revocation_exact_duplicated
    : (duplicated.1.removeKey duplicated.2 (bytes "bob") (bytes "AAAAB3")).2.1.getUserKeys (bytes "bob") = []
      ∧ ∀ data signature,
        ∀ keyInfo ∈ ((duplicated.1.removeKey duplicated.2 (bytes "bob") (bytes "AAAAB3")).2.1.consult AuthenticationManager.noKeys
          (fun _ _ _ _ => false) (bytes "bob") data signature).2, keyInfo.keyData ≠ bytes "AAAAB3" := by
  have hrun : history.Run (new [], .empty) [addTwice, addTwice] (duplicated.1, duplicated.2) :=
    .cons rfl (.single rfl)
  obtain ⟨hremaining, -, hconsults⟩ :=
    (revocation_exact AuthenticationManager.noKeys (fun _ _ _ _ => false) hrun).2.2 (bytes "bob") (bytes "AAAAB3") (by decide)
  constructor
  . rw [hremaining]
    decide
  . intro data signature
    exact (hconsults [] _ .nil data signature).2

end PublicKeyDatabase
end SimpleRsyncd
