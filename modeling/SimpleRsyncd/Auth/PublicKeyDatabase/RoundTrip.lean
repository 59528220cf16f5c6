import Mathlib.Algebra.Order.BigOperators.Group.List
import Mathlib.Algebra.Order.Group.Nat
import SimpleRsyncd.Auth.PublicKeyDatabase

/-!
This module contains what a saved database of public keys looks like after it was loaded again. A key is
kept if its line leads back to it: no key type that is looked for earlier may occur in it, and a user whose
name looks like a key type has to be found in the comment again.
-/

namespace SimpleRsyncd

/--
If a partial function keeps a list apart from the order, and every element it changes gets larger, then
it changes none of them.
-/
theorem eq_some_of_perm_of_growing {α : Type} {f : α → Option α} {size : α → Nat} {l : List α}
    (hperm : (l.filterMap f).Perm l) (hgrow : ∀ a ∈ l, ∀ b, f a = some b → b = a ∨ size a < size b)
    : ∀ a ∈ l, f a = some a := by
  have hsome : ∀ a ∈ l, (f a).isSome = true :=
    List.filterMap_length_eq_length.mp hperm.length_eq
  have hmap : l.filterMap f = l.map fun a => (f a).getD a := by
    rw [← List.filterMap_eq_map]
    apply List.filterMap_congr
    intro a ha
    obtain ⟨b, hb⟩ := Option.isSome_iff_exists.mp (hsome a ha)
    simp [hb]
  have hsum : (l.map fun a => size ((f a).getD a)).sum = (l.map size).sum := by
    rw [hmap] at hperm
    simpa [Function.comp_def] using (hperm.map size).sum_eq
  intro a ha
  obtain ⟨b, hb⟩ := Option.isSome_iff_exists.mp (hsome a ha)
  rcases hgrow a ha b hb with rfl | hlt
  . exact hb
  . exfalso
    have hle : ∀ a ∈ l, size a ≤ size ((f a).getD a) := by
      intro a ha
      cases hfa : f a with
      | none => simp
      | some b =>
        rcases hgrow a ha b hfa with rfl | hlt
        . simp
        . exact hlt.le
    have := List.sum_lt_sum size _ hle ⟨a, ha, by simpa [hb] using hlt⟩
    omega

namespace PublicKeyDatabase

open PublicKey

/--
What the user in front of a key can be.
-/
structure IsUsername (s : Bytes) : Prop where
  noColon : colon ∉ s
  noSpace : ∀ c ∈ s, Bytes.isspace c = false
  noHash : s.head? ≠ some 35

/--
A key in text form on one line, without blanks at its end.
-/
structure IsKeyString (s : Bytes) : Prop where
  noNewline : newline ∉ s
  noBlank : ∀ c ∈ s.getLast?, Bytes.isblank c = false

def Action.Plain : Action → Prop
  | .addKey username keyString => IsUsername username ∧ IsKeyString keyString
  | .removeKey .. => True

structure StoredKey (username : Bytes) (k : PublicKeyInfo) : Prop where
  owner : k.username = username
  isUsername : IsUsername username
  isKey : IsKey k
  noBlank : ∀ c ∈ k.comment.getLast?, Bytes.isblank c = false

def Stored (keys : OrderedMap Bytes (List PublicKeyInfo)) : Prop :=
  ∀ username userKeys, keys.lookup username = some userKeys →
    userKeys ≠ [] ∧ ∀ k ∈ userKeys, StoredKey username k

theorem storedKey_of_parse {username keyString : Bytes} {k : PublicKeyInfo} (husername : IsUsername username)
    (hstring : IsKeyString keyString) (h : parse keyString = some k)
    : StoredKey username { k with username } := by
  obtain ⟨blanks, blanks', rest, rfl, -, -, -, hcomment, hk⟩ := parse_eq_some h
  refine ⟨rfl, husername, ⟨hk.keyType, hk.keyData, hk.supported, hk.comment⟩, ?_⟩
  have hrest : rest.takeWhile (· ≠ newline) = rest := by
    refine Bytes.takeWhile_ne_eq_self ?_
    intro hmem
    exact hstring.noNewline (by simp [hmem])
  rw [hrest] at hcomment
  intro c hc
  have hsuffix : k.comment <:+ blanks ++ k.keyType ++ (blanks' ++ k.keyData ++ rest) := by
    rw [hcomment]
    refine (List.drop_suffix ..).trans ?_
    exact (List.suffix_append ..).trans (List.suffix_append ..)
  have hne : k.comment ≠ [] := by
    rintro hempty
    simp [hempty] at hc
  refine hstring.noBlank c ?_
  rwa [Bytes.getLast?_eq_of_suffix hsuffix hne]

theorem stored_step {s s' : PublicKeyDatabase × Disk} {a : Action} (hstored : Stored s.1.keys)
    (hplain : a.Plain) (h : step s a s')
    : Stored s'.1.keys := by
  rcases step_cases h with hsame | ⟨username, keyString, keyInfo, rfl, hparse, hpush⟩
    | ⟨username, userKeys, hlookup, keyData, hremove⟩
  . rw [hsame]
    exact hstored
  . obtain ⟨husername, hstring⟩ := hplain
    intro name keys hget
    rw [hpush, pushKey, OrderedMap.lookup_insert] at hget
    split at hget
    . next heq =>
      subst heq
      obtain rfl := Option.some.inj hget
      refine ⟨by simp, ?_⟩
      intro k hk
      -- the key at the end is new, the others were there
      rcases List.mem_append.mp hk with hold | hnew
      . cases hold' : s.1.keys.lookup name with
        | none => simp [hold'] at hold
        | some old => exact (hstored _ _ hold').2 k (by simpa [hold'] using hold)
      . obtain rfl : k = { keyInfo with username := name } := by simpa using hnew
        exact storedKey_of_parse husername hstring hparse
    . exact hstored _ _ hget
  . intro name keys hget
    rw [hremove] at hget
    split at hget
    . rw [OrderedMap.lookup_erase] at hget
      split at hget
      . simp at hget
      . exact hstored _ _ hget
    . next hne =>
      rw [OrderedMap.lookup_insert] at hget
      split at hget
      . next heq =>
        subst heq
        obtain rfl := Option.some.inj hget
        exact ⟨hne, fun k hk => (hstored _ _ hlookup).2 k (List.mem_of_mem_filter hk)⟩
      . exact hstored _ _ hget

section line

variable {username : Bytes} {k : PublicKeyInfo}

theorem StoredKey.newline_notMem_keyLine (h : StoredKey username k) : newline ∉ keyLine username k := by
  have husername : newline ∉ username := by
    intro hmem
    have := h.isUsername.noSpace _ hmem
    revert this
    decide
  have hcolon : newline ≠ colon := by decide
  have hblank : newline ≠ 32 := by decide
  simp [keyLine, husername, hcolon, hblank, newline_notMem_keyText h.isKey]

theorem StoredKey.noBlank_keyText (h : StoredKey username k) : ∀ c ∈ (keyText k).getLast?, Bytes.isblank c = false := by
  intro c hc
  by_cases hcomment : k.comment = []
  . have hsuffix : k.keyData <:+ keyText k := ⟨k.keyType ++ [32], by simp [keyText, hcomment]⟩
    rw [Bytes.getLast?_eq_of_suffix hsuffix h.isKey.keyData.ne_nil] at hc
    exact Bytes.isblank_of_not_isspace (h.isKey.keyData.noSpace c (List.mem_of_getLast? hc))
  . have hsuffix : k.comment <:+ keyText k := ⟨k.keyType ++ 32 :: k.keyData ++ [32], by simp [keyText, hcomment]⟩
    rw [Bytes.getLast?_eq_of_suffix hsuffix hcomment] at hc
    exact h.noBlank c hc

theorem StoredKey.head_keyLine (h : StoredKey username k)
    : ∀ c ∈ (keyLine username k).head?, Bytes.isblank c = false ∧ c ≠ 35 := by
  intro c hc
  cases husername : username with
  | nil =>
    obtain rfl : colon = c := by simpa [keyLine, husername] using hc
    decide
  | cons d ds =>
    obtain rfl : d = c := by simpa [keyLine, husername] using hc
    have hd := h.isUsername.noSpace d (by simp [husername])
    have hhash := h.isUsername.noHash
    refine ⟨Bytes.isblank_of_not_isspace hd, ?_⟩
    simpa [husername] using hhash

theorem StoredKey.parseLine_keyLine (h : StoredKey username k)
    : parseLine (keyLine username k) = parseTrimmed (keyLine username k) := by
  have hempty : (keyLine username k).isEmpty = false := by simp [keyLine]
  have hcomment : (keyLine username k).head? ≠ some 35 := by
    intro heq
    exact (h.head_keyLine 35 heq).2 rfl
  have hleft : Bytes.trimLeft (keyLine username k) = keyLine username k :=
    Bytes.trimLeft_eq_self fun c hc => (h.head_keyLine c hc).1
  have hright : Bytes.trimRight (keyLine username k) = keyLine username k := by
    refine Bytes.trimRight_eq_self ?_
    intro c hc
    have hne : keyText k ≠ [] := by simp [keyText]
    have hsuffix : keyText k <:+ keyLine username k := ⟨username ++ [colon, 32], by simp [keyLine]⟩
    rw [Bytes.getLast?_eq_of_suffix hsuffix hne] at hc
    exact h.noBlank_keyText c hc
  simp [parseLine, hempty, hcomment, hleft, hright]

theorem StoredKey.find_colon (h : StoredKey username k) : Bytes.find [colon] (keyLine username k) = some username.length := by
  rw [keyLine, Bytes.find_singleton_append _ h.isUsername.noColon]

theorem StoredKey.splitUser_of_infix (h : StoredKey username k) (hssh : bytes "ssh-" <:+: username)
    : splitUser (keyLine username k) = ([], keyLine username k) := by
  obtain ⟨i, hi, hfind⟩ : ∃ i < username.length, Bytes.find (bytes "ssh-") (keyLine username k) = some i :=
    Bytes.find_lt_of_infix (by decide) hssh
  have hnot : ¬username.length < i := by omega
  simp [splitUser, h.find_colon, hfind, hnot]

theorem StoredKey.splitUser_of_notInfix (h : StoredKey username k) (hssh : ¬bytes "ssh-" <:+: username)
    : splitUser (keyLine username k) = (username, keyText k) := by
  have hfind : Bytes.find (bytes "ssh-") (keyLine username k)
      = (Bytes.find (bytes "ssh-") (32 :: keyText k)).map (username.length + 1 + ·) :=
    Bytes.find_append_cons (by decide) hssh
  have hafter : (Bytes.find (bytes "ssh-") (keyLine username k)).all (username.length < ·) = true := by
    rw [hfind]
    cases Bytes.find (bytes "ssh-") (32 :: keyText k) with
    | none => rfl
    | some i =>
      simp only [Option.map_some, Option.all_some, decide_eq_true_eq]
      omega
  have htrim : Bytes.trimLeft (32 :: keyText k) = keyText k := by
    have hhead : ∀ c ∈ (keyText k).head?, Bytes.isblank c = false := by
      intro c hc
      cases htype : k.keyType with
      | nil => exact absurd htype h.isKey.keyType.ne_nil
      | cons d ds =>
        obtain rfl : d = c := by simpa [keyText, htype] using hc
        exact Bytes.isblank_of_not_isspace (h.isKey.keyType.noSpace d (by simp [htype]))
    have hblank : Bytes.isblank 32 = true := by decide
    rw [Bytes.trimLeft, List.dropWhile_cons_of_pos hblank]
    exact Bytes.trimLeft_eq_self hhead
  have hdrop : (keyLine username k).drop (username.length + 1) = 32 :: keyText k := by
    simp [keyLine]
  have htake : (keyLine username k).take username.length = username := by
    simp [keyLine]
  rw [splitUser, h.find_colon]
  simp only [hafter, if_true, hdrop, htake, htrim]

/--
What a search finds that is more than the key starts in the name of its owner.
-/
theorem exists_extracted (hlt : (keyText k).length < (extractKeyLine (keyLine username k)).length)
    : ∃ pre w, pre ++ w = username ++ [colon] ∧ extractKeyLine (keyLine username k) = w ++ [32] ++ keyText k := by
  obtain ⟨pre, hpre⟩ := lineFrom_suffix getSupportedKeyTypes (keyLine username k)
  change pre ++ extractKeyLine (keyLine username k) = keyLine username k at hpre
  have hline : keyLine username k = (username ++ [colon] ++ [32]) ++ keyText k := by
    simp [keyLine]
  have hsplit : ∃ v, username ++ [colon] ++ [32] = pre ++ v ∧ extractKeyLine (keyLine username k) = v ++ keyText k := by
    nth_rewrite 2 [hline] at hpre
    rcases List.append_eq_append_iff.mp hpre with ⟨v, hv, hs⟩ | ⟨v, hv, hs⟩
    . exact ⟨v, hv, hs⟩
    . have := congrArg List.length hs
      simp only [List.length_append] at this
      omega
  obtain ⟨v, hv, hextract⟩ := hsplit
  rcases List.eq_nil_or_concat v with rfl | ⟨w, b, rfl⟩
  . simp [hextract] at hlt
  . rw [List.concat_eq_append, ← List.append_assoc] at hv
    obtain ⟨hw, hb⟩ := List.append_inj' hv rfl
    obtain rfl : 32 = b := by simpa using hb
    exact ⟨pre, w, hw.symm, by rw [hextract, List.concat_eq_append]⟩

theorem StoredKey.isWord_extracted (h : StoredKey username k) {pre w : Bytes} (hw : pre ++ w = username ++ [colon])
    (hextract : extractKeyLine (keyLine username k) = w ++ [32] ++ keyText k)
    : IsWord w := by
  constructor
  . -- a blank alone is not where a key was found
    rintro rfl
    rcases lineFrom_eq_or_prefix getSupportedKeyTypes (keyLine username k) with hall | ⟨keyType, hmem, hkey⟩
    . have hlength := congrArg List.length (hextract.symm.trans hall)
      simp only [keyLine, List.nil_append, List.length_append, List.length_cons, List.length_nil] at hlength
      omega
    . have hkeyWord := isWord_of_mem_getSupportedKeyTypes hmem
      change keyType <+: extractKeyLine (keyLine username k) at hkey
      rw [hextract] at hkey
      cases keyType with
      | nil => exact hkeyWord.ne_nil rfl
      | cons c keyType =>
        obtain ⟨rfl, -⟩ := List.cons_prefix_cons.mp hkey
        exact hkeyWord.notMem_of_isspace (c := 32) (by decide) (by simp)
  . intro c hc
    have hmem : c ∈ username ++ [colon] := hw ▸ List.mem_append_right pre hc
    rcases List.mem_append.mp hmem with hname | hcolon
    . exact h.isUsername.noSpace c hname
    . obtain rfl : c = colon := by simpa using hcolon
      decide

/--
What a search for a key in the line of a key can find besides that key: more text in front of it, which
then becomes a part of the key.
-/
theorem StoredKey.extractKeyLine_keyLine (h : StoredKey username k) {k' : PublicKeyInfo}
    (hparse : parse (extractKeyLine (keyLine username k)) = some k')
    : extractKeyLine (keyLine username k) = extractKeyLine (keyText k) ∨ k.comment.length < k'.comment.length := by
  have happend : extractKeyLine (keyLine username k) = extractKeyLine (keyText k)
      ∨ (keyText k).length < (extractKeyLine (keyLine username k)).length := by
    have hline : keyLine username k = (username ++ [colon] ++ [32]) ++ keyText k := by
      simp [keyLine]
    rw [hline]
    exact lineFrom_append _ _ (by simp)
  rcases happend with hsame | hlt
  . exact .inl hsame
  . right
    obtain ⟨pre, w, hw, hextract⟩ := exists_extracted hlt
    have hword := h.isWord_extracted hw hextract
    rw [hextract, List.append_assoc] at hparse
    exact parse_word_keyText h.isKey hword hparse

/--
A key that was read from some line is found in its own text again, and its owner in its comment if the
name of the owner looks like a key type.
-/
structure Settled (k : PublicKeyInfo) : Prop where
  named : k.username ≠ []
  text : extractKeyLine (keyText k) = keyText k
  owner : bytes "ssh-" <:+: k.username → usernameFromComment k.comment = k.username

theorem StoredKey.settled_of_parseLine (h : StoredKey username k) {k' : PublicKeyInfo}
    (hread : parseLine (keyLine username k) = some k')
    : Settled k' := by
  rw [h.parseLine_keyLine] at hread
  obtain ⟨k₀, name, hparse, rfl, hnamed, hname⟩ := parseTrimmed_eq_some hread
  refine ⟨hnamed, ?_, ?_⟩
  . have htext : extractKeyLine (keyText k₀) = keyText k₀ := extractKeyLine_keyText hparse (lineFrom_lineFrom ..)
    exact htext
  . intro hoccurs
    split at hname
    . exact hname.symm
    . next hne =>
      by_cases hssh : bytes "ssh-" <:+: username
      . exact absurd (by rw [h.splitUser_of_infix hssh]) hne
      . rw [h.splitUser_of_notInfix hssh] at hname
        subst hname
        exact absurd hoccurs hssh

/--
Reading a settled key gives the same key or one with a longer comment.
-/
theorem StoredKey.eq_or_lt_of_parseLine (h : StoredKey username k) (hsettled : Settled k) {k' : PublicKeyInfo}
    (hread : parseLine (keyLine username k) = some k')
    : k' = k ∨ k.comment.length < k'.comment.length := by
  rw [h.parseLine_keyLine] at hread
  obtain ⟨k₀, name, hparse, rfl, hnamed, hname⟩ := parseTrimmed_eq_some hread
  obtain rfl := h.owner
  by_cases hssh : bytes "ssh-" <:+: k.username
  . rw [h.splitUser_of_infix hssh] at hparse hname
    rcases h.extractKeyLine_keyLine hparse with hsame | hlt
    . left
      rw [hsame, hsettled.text, parse_keyText h.isKey] at hparse
      obtain rfl := Option.some.inj hparse
      rw [if_pos rfl] at hname
      rw [hname, hsettled.owner hssh]
    . exact .inr hlt
  . left
    rw [h.splitUser_of_notInfix hssh] at hparse hname
    rw [hsettled.text, parse_keyText h.isKey] at hparse
    obtain rfl := Option.some.inj hparse
    rw [if_neg hsettled.named] at hname
    rw [hname]

/--
The line of a key leads back to the key and its owner.
-/
structure ReadsBack (k : PublicKeyInfo) : Prop extends Settled k where
  line : bytes "ssh-" <:+: k.username → extractKeyLine (keyLine k.username k) = keyText k

theorem StoredKey.parseLine_eq_self_iff (h : StoredKey username k)
    : parseLine (keyLine username k) = some k ↔ ReadsBack k := by
  obtain rfl := h.owner
  constructor
  . intro hread
    have hsettled := h.settled_of_parseLine hread
    refine ⟨hsettled, ?_⟩
    intro hssh
    rw [h.parseLine_keyLine] at hread
    obtain ⟨k₀, name, hparse, hk, -⟩ := parseTrimmed_eq_some hread
    rw [h.splitUser_of_infix hssh] at hparse
    rcases h.extractKeyLine_keyLine hparse with hsame | hlt
    . rw [hsame, hsettled.text]
    . rw [hk] at hlt
      exact absurd hlt (Nat.lt_irrefl _)
  . intro hback
    rw [h.parseLine_keyLine]
    by_cases hssh : bytes "ssh-" <:+: k.username
    . simp [parseTrimmed, h.splitUser_of_infix hssh, hback.line hssh, parse_keyText h.isKey, hback.owner hssh,
        hback.named]
    . simp [parseTrimmed, h.splitUser_of_notInfix hssh, hback.text, parse_keyText h.isKey, hback.named]

end line

/--
No user is stored without keys.
-/
def NoEmpty (keys : OrderedMap Bytes (List PublicKeyInfo)) : Prop :=
  ∀ username, keys.lookup username ≠ some []

def allKeys (db : PublicKeyDatabase) : List PublicKeyInfo :=
  db.keys.entries.flatMap Prod.snd

theorem lookup_foldl_addLine (lines : List Bytes) (keys : OrderedMap Bytes (List PublicKeyInfo)) (username : Bytes)
    : ((lines.foldl addLine keys).lookup username).getD []
      = (keys.lookup username).getD [] ++ (lines.filterMap parseLine).filter (·.username = username) := by
  induction lines generalizing keys with
  | nil => simp
  | cons line lines ih =>
    rw [List.foldl_cons, ih, addLine]
    cases hline : parseLine line with
    | none => simp [hline]
    | some k =>
      by_cases hk : k.username = username
      . subst hk
        simp [hline, pushKey]
      . simp [hline, pushKey, OrderedMap.lookup_insert, hk, Ne.symm hk]

theorem noEmpty_pushKey {keys : OrderedMap Bytes (List PublicKeyInfo)} (h : NoEmpty keys) (username : Bytes)
    (keyInfo : PublicKeyInfo)
    : NoEmpty (pushKey keys username keyInfo) := by
  intro other
  rw [pushKey, OrderedMap.lookup_insert]
  split
  . simp
  . exact h other

theorem noEmpty_foldl_addLine (lines : List Bytes) {keys : OrderedMap Bytes (List PublicKeyInfo)} (h : NoEmpty keys)
    : NoEmpty (lines.foldl addLine keys) := by
  induction lines generalizing keys with
  | nil => exact h
  | cons line lines ih =>
    refine ih ?_
    unfold addLine
    split
    . exact h
    . exact noEmpty_pushKey h _ _

/--
The keys of a user are its keys among all keys, in this order.
-/
theorem filter_allKeys {db : PublicKeyDatabase} (hstored : Stored db.keys) (username : Bytes)
    : db.allKeys.filter (·.username = username) = db.getUserKeys username := by
  refine db.keys.filter_flatMap_entries PublicKeyInfo.username username ?_
  intro e he k hk
  exact ((hstored _ _ (db.keys.mem_entries_iff.mp he)).2 k hk).owner

theorem addLine_of_comment (keys : OrderedMap Bytes (List PublicKeyInfo)) (line : Bytes)
    : addLine keys (35 :: line) = keys := by
  simp [addLine, parseLine]

/--
What has been saved is loaded, line by line.
-/
theorem keys_load_save {db db' loaded : PublicKeyDatabase} {disk disk' : Disk} (hfile : db'.keyFile = db.keyFile)
    (hsave : db.save disk = (true, disk')) (hload : db'.load disk' = (true, loaded))
    : loaded.keys = (Bytes.getlines newline db.fileText).foldl addLine .empty := by
  simp only [save, load, hfile] at hsave hload
  split at hsave
  . simp at hsave
  . next hnamed =>
    rw [if_neg hnamed] at hload
    split at hsave
    . simp at hsave
    . next hwrite =>
      split at hload
      . simp at hload
      . next text hread =>
        obtain rfl : _ = disk' := by simpa using hsave
        obtain rfl := Disk.read_write hwrite hread
        simp only [Prod.mk.injEq, true_and] at hload
        rw [← hload]

/--
What is read for a user after a database was saved.
-/
theorem getUserKeys_load_save {db db' loaded : PublicKeyDatabase} {disk disk' : Disk} (hstored : Stored db.keys)
    (hfile : db'.keyFile = db.keyFile) (hsave : db.save disk = (true, disk'))
    (hload : db'.load disk' = (true, loaded))
    : NoEmpty loaded.keys ∧ ∀ username, loaded.getUserKeys username
      = (db.allKeys.filterMap fun k => parseLine (keyLine k.username k)).filter (·.username = username) := by
  have hentry : ∀ e ∈ db.keys.entries, ∀ k ∈ e.2, StoredKey e.1 k := by
    intro e he
    exact (hstored _ _ (db.keys.mem_entries_iff.mp he)).2
  have htext := keys_load_save hfile hsave hload
  have hlines : Bytes.getlines newline db.fileText
      = bytes "# Public key database"
        :: bytes "# Format: username: key-type key-data [comment]"
        :: db.keys.entries.flatMap fun e => e.2.map (keyLine e.1) := by
    refine Bytes.getlines_flatMap ?_
    intro line hline
    rcases List.mem_cons.mp hline with rfl | hline
    . decide
    . rcases List.mem_cons.mp hline with rfl | hline
      . decide
      . obtain ⟨e, he, hline⟩ := List.mem_flatMap.mp hline
        obtain ⟨k, hk, rfl⟩ := List.mem_map.mp hline
        exact (hentry e he k hk).newline_notMem_keyLine
  have hkeyLines : (db.keys.entries.flatMap fun e => e.2.map (keyLine e.1))
      = db.allKeys.map fun k => keyLine k.username k := by
    rw [allKeys, List.map_flatMap]
    refine List.flatMap_congr fun e he => List.map_congr_left fun k hk => ?_
    rw [(hentry e he k hk).owner]
  have hloaded : loaded.keys = (db.allKeys.map fun k => keyLine k.username k).foldl addLine .empty := by
    have hfirst : ∀ keys, addLine keys (bytes "# Public key database") = keys :=
      fun keys => addLine_of_comment keys _
    have hsecond : ∀ keys, addLine keys (bytes "# Format: username: key-type key-data [comment]") = keys :=
      fun keys => addLine_of_comment keys _
    rw [htext, hlines, List.foldl_cons, List.foldl_cons, hfirst, hsecond, hkeyLines]
  constructor
  . rw [hloaded]
    exact noEmpty_foldl_addLine _ (by simp [NoEmpty])
  . intro username
    rw [getUserKeys, hloaded, lookup_foldl_addLine, List.filterMap_map]
    simp

theorem lookup_of_noEmpty {db : PublicKeyDatabase} (h : NoEmpty db.keys) (username : Bytes)
    : db.keys.lookup username = if db.getUserKeys username = [] then none else some (db.getUserKeys username) := by
  have := h username
  unfold getUserKeys
  cases hlookup : db.keys.lookup username with
  | none => simp
  | some userKeys => simp_all

/--
Two databases have the same users with the same keys in the same order.
-/
def SameKeys (db db' : PublicKeyDatabase) : Prop :=
  ∀ username, (db'.keys.lookup username).map (·.map fun k => (k.keyType, k.keyData, k.comment))
    = (db.keys.lookup username).map (·.map fun k => (k.keyType, k.keyData, k.comment))

/--
The keys of a user are known by their fields.
-/
theorem SameKeys.getUserKeys_eq {db db' : PublicKeyDatabase} {username : Bytes} (h : SameKeys db db')
    (howner : ∀ k ∈ db.getUserKeys username, k.username = username)
    (howner' : ∀ k ∈ db'.getUserKeys username, k.username = username)
    : db'.getUserKeys username = db.getUserKeys username := by
  let rebuild : Bytes × Bytes × Bytes → PublicKeyInfo := fun fields =>
    { keyType := fields.1, keyData := fields.2.1, comment := fields.2.2, username }
  have hrebuild : ∀ userKeys : List PublicKeyInfo, (∀ k ∈ userKeys, k.username = username) →
      (userKeys.map fun k => (k.keyType, k.keyData, k.comment)).map rebuild = userKeys := by
    intro userKeys howner
    rw [List.map_map]
    refine (List.map_congr_left fun k hk => ?_).trans (List.map_id _)
    obtain rfl := howner k hk
    rfl
  have hfields : ∀ db : PublicKeyDatabase, (db.getUserKeys username).map (fun k => (k.keyType, k.keyData, k.comment))
      = ((db.keys.lookup username).map (·.map fun k => (k.keyType, k.keyData, k.comment))).getD [] := by
    intro db
    unfold getUserKeys
    cases db.keys.lookup username <;> rfl
  rw [← hrebuild _ howner', hfields, h username, ← hfields, hrebuild _ howner]

theorem stored_of_run {keyFile : Bytes} {disk₀ disk : Disk} {as : List Action} {db : PublicKeyDatabase}
    (hrun : Transition.Run (step.restrict fun _ a => a.Plain) (new keyFile, disk₀) as (db, disk))
    : Stored db.keys := by
  refine hrun.invariant (I := fun s => Stored s.1.keys) ?_ ?_
  . intro username userKeys h
    simp [new] at h
  . rintro s a s' hs ⟨hplain, hstep⟩
    exact stored_step hs hplain hstep

theorem storedKey_of_mem {db : PublicKeyDatabase} {username : Bytes} {k : PublicKeyInfo} (hstored : Stored db.keys)
    (hk : k ∈ db.getUserKeys username)
    : StoredKey username k := by
  rw [getUserKeys] at hk
  cases hlookup : db.keys.lookup username with
  | none => simp [hlookup] at hk
  | some userKeys => exact (hstored _ _ hlookup).2 k (by simpa [hlookup] using hk)

theorem mem_allKeys_iff {db : PublicKeyDatabase} (hstored : Stored db.keys) (k : PublicKeyInfo)
    : k ∈ db.allKeys ↔ k ∈ db.getUserKeys k.username := by
  rw [← filter_allKeys hstored]
  simp

/--
Lists with the same keys for every user have the same keys.
-/
theorem perm_of_filter_username {l l' : List PublicKeyInfo}
    (h : ∀ username, l.filter (·.username = username) = l'.filter (·.username = username))
    : l.Perm l' := by
  rw [List.perm_iff_count]
  intro k
  have hcount : ∀ l : List PublicKeyInfo, l.count k = (l.filter (·.username = k.username)).count k := by
    intro l
    rw [List.count_filter (by simp)]
  rw [hcount, h, ← hcount]

/--
Saving and loading a database keeps it if and only if the line of every stored key leads back to it.
-/
theorem sameKeys_load_save_iff {keyFile : Bytes} {disk₀ disk disk' disk'' : Disk}
    {as : List Action} {db db' loaded : PublicKeyDatabase}
    (hrun : Transition.Run (step.restrict fun _ a => a.Plain) (new keyFile, disk₀) as (db, disk))
    (hfile : db'.keyFile = db.keyFile) (hsave : db.save disk' = (true, disk''))
    (hload : db'.load disk'' = (true, loaded))
    : SameKeys db loaded ↔ ∀ username, ∀ k ∈ db.getUserKeys username, ReadsBack k := by
  have hstored := stored_of_run hrun
  have hnoEmpty : NoEmpty db.keys := fun username h => (hstored _ _ h).1 rfl
  obtain ⟨hnoEmpty', hread⟩ := getUserKeys_load_save hstored hfile hsave hload
  have howner : ∀ username, ∀ k ∈ db.getUserKeys username, StoredKey username k :=
    fun username k hk => storedKey_of_mem hstored hk
  have hall := mem_allKeys_iff hstored
  constructor
  . intro hsame
    have hsameKeys : ∀ username, loaded.getUserKeys username = db.getUserKeys username := by
      intro username
      refine hsame.getUserKeys_eq (fun k hk => (howner username k hk).owner) ?_
      intro k hk
      rw [hread] at hk
      simpa using List.of_mem_filter hk
    have hperm : (db.allKeys.filterMap fun k => parseLine (keyLine k.username k)).Perm db.allKeys := by
      refine perm_of_filter_username fun username => ?_
      rw [← hread, hsameKeys, filter_allKeys hstored]
    have hgrow : ∀ k ∈ db.allKeys, ∀ k', parseLine (keyLine k.username k) = some k' →
        k' = k ∨ k.comment.length < k'.comment.length := by
      intro k hk k' hk'
      -- every key of the database was read from a line, so it is settled
      obtain ⟨k₀, hk₀, hsettled⟩ := List.mem_filterMap.mp (hperm.mem_iff.mpr hk)
      have hstoredKey := howner _ _ ((hall k).mp hk)
      have hstoredKey₀ := howner _ _ ((hall k₀).mp hk₀)
      exact hstoredKey.eq_or_lt_of_parseLine (hstoredKey₀.settled_of_parseLine hsettled) hk'
    intro username k hk
    have hstoredKey := howner username k hk
    obtain rfl := hstoredKey.owner
    exact hstoredKey.parseLine_eq_self_iff.mp (eq_some_of_perm_of_growing hperm hgrow k ((hall k).mpr hk))
  . intro hback
    have hkept : (db.allKeys.filterMap fun k => parseLine (keyLine k.username k)) = db.allKeys := by
      refine (List.filterMap_congr fun k hk => ?_).trans List.filterMap_some
      have hmem := (hall k).mp hk
      exact (howner _ _ hmem).parseLine_eq_self_iff.mpr (hback _ _ hmem)
    have hsameKeys : ∀ username, loaded.getUserKeys username = db.getUserKeys username := by
      intro username
      rw [hread, hkept, filter_allKeys hstored]
    intro username
    rw [lookup_of_noEmpty hnoEmpty, lookup_of_noEmpty hnoEmpty', hsameKeys]

theorem isUsername_iff (s : Bytes)
    : (colon ∉ s ∧ s.all (!Bytes.isspace ·) = true ∧ s.head? ≠ some 35) ↔ IsUsername s := by
  constructor
  . rintro ⟨hcolon, hspace, hhash⟩
    exact ⟨hcolon, by simpa using hspace, hhash⟩
  . rintro ⟨hcolon, hspace, hhash⟩
    exact ⟨hcolon, by simpa using hspace, hhash⟩

instance (s : Bytes) : Decidable (IsUsername s) :=
  decidable_of_iff _ (isUsername_iff s)

theorem isKeyString_iff (s : Bytes)
    : (newline ∉ s ∧ s.getLast?.all (!Bytes.isblank ·) = true) ↔ IsKeyString s := by
  constructor
  . rintro ⟨hnewline, hblank⟩
    refine ⟨hnewline, ?_⟩
    intro c hc
    simpa [Option.mem_def.mp hc] using hblank
  . rintro ⟨hnewline, hblank⟩
    refine ⟨hnewline, ?_⟩
    cases hlast : s.getLast? with
    | none => rfl
    | some c => simpa using hblank c hlast

instance (s : Bytes) : Decidable (IsKeyString s) :=
  decidable_of_iff _ (isKeyString_iff s)

/--
A key whose comment names the key that it replaces.
-/
def replaceKey : Action :=
  .addKey (bytes "bob") (bytes "ssh-ed25519 AAAAC3 replaces ssh-rsa AAAAB3")

def replaced : PublicKeyDatabase × Disk :=
  perform replaceKey (new (bytes "/etc/keys"), Disk.empty)

def loadedReplaced : Bool × PublicKeyDatabase :=
  replaced.1.load (replaced.1.save replaced.2).2

/--
The replaced key comes back in place of the new one.
-/
theorem not_sameKeys_replaced : Transition.Run (step.restrict fun _ a => a.Plain)
      (new (bytes "/etc/keys"), Disk.empty) [replaceKey] replaced
    ∧ (replaced.1.save replaced.2).1 = true ∧ loadedReplaced.1 = true
    ∧ loadedReplaced.2.getUserKeys (bytes "bob")
      = [{ keyType := bytes "ssh-rsa", keyData := bytes "AAAAB3", comment := [], username := bytes "bob" }]
    ∧ ¬SameKeys replaced.1 loadedReplaced.2 := by
  refine ⟨.single ⟨by simp only [replaceKey, Action.Plain]; decide, rfl⟩, by decide, by decide,
    by decide, ?_⟩
  intro h
  have hbob := h (bytes "bob")
  revert hbob
  decide

def addBob : Action :=
  .addKey (bytes "bob") (bytes "ssh-ed25519 AAAAC3 bob@host")

def addedBob : PublicKeyDatabase × Disk :=
  perform addBob (new (bytes "/etc/keys"), Disk.empty)

theorem sameKeys_bob : SameKeys addedBob.1 (addedBob.1.load (addedBob.1.save addedBob.2).2).2 := by
  have hrun : Transition.Run (step.restrict fun _ a => a.Plain) (new (bytes "/etc/keys"), Disk.empty) [addBob]
      (addedBob.1, addedBob.2) :=
    .single ⟨by simp only [addBob, Action.Plain]; decide, rfl⟩
  have hsave : (addedBob.1.save addedBob.2).1 = true := by decide
  have hload : (addedBob.1.load (addedBob.1.save addedBob.2).2).1 = true := by decide
  refine (sameKeys_load_save_iff hrun rfl (Prod.ext hsave rfl) (Prod.ext hload rfl)).mpr ?_
  intro username k hk
  have hkeys : ∀ e ∈ addedBob.1.keys.entries, ∀ k ∈ e.2, k.username ≠ []
      ∧ extractKeyLine (keyText k) = keyText k ∧ ¬bytes "ssh-" <:+: k.username := by
    decide
  rw [getUserKeys] at hk
  cases hlookup : addedBob.1.keys.lookup username with
  | none => simp [hlookup] at hk
  | some userKeys =>
    have hmem := addedBob.1.keys.mem_entries_iff.mpr hlookup
    obtain ⟨hnamed, htext, hssh⟩ := hkeys _ hmem k (by simpa [hlookup] using hk)
    exact ⟨⟨hnamed, htext, fun h => absurd h hssh⟩, fun h => absurd h hssh⟩

end PublicKeyDatabase
end SimpleRsyncd
