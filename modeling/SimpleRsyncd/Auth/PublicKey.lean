import SimpleRsyncd.Bytes.Text

/-!
This module contains public keys in text form: a key type, the key data and a comment that can be any
text. A key is looked for inside a line by searching for the supported key types in a fixed order.
-/

namespace SimpleRsyncd

structure PublicKeyInfo where
  keyType : Bytes
  keyData : Bytes
  comment : Bytes
  username : Bytes := []
  deriving DecidableEq

namespace PublicKey

def isSupportedKeyType (keyType : Bytes) : Bool :=
  keyType == bytes "ssh-rsa" || keyType == bytes "ssh-dss" || Bytes.startsWith keyType (bytes "ecdsa-sha2-")
    || keyType == bytes "ssh-ed25519"

def getSupportedKeyTypes : List Bytes :=
  [bytes "ssh-rsa", bytes "ssh-dss", bytes "ecdsa-sha2-nistp256", bytes "ecdsa-sha2-nistp384",
    bytes "ecdsa-sha2-nistp521", bytes "ssh-ed25519"]

/--
Two words and the rest of the line, whose first character is skipped.
-/
def parse (keyString : Bytes) : Option PublicKeyInfo :=
  if keyString.isEmpty then
    none
  else do
    let (keyType, iss) ← Bytes.extract keyString
    let (keyData, iss) ← Bytes.extract iss
    let rest := iss.takeWhile (· ≠ newline)
    let comment := if rest.isEmpty then [] else rest.drop 1
    if !isSupportedKeyType keyType then
      none
    else
      some { keyType, keyData, comment }

/--
The line from the first occurrence of the first of some key types that occurs in it.
-/
def lineFrom : List Bytes → Bytes → Bytes
  | [], line => line
  | keyType :: keyTypes, line =>
    match Bytes.find keyType line with
    | some pos => line.drop pos
    | none => lineFrom keyTypes line

def extractKeyLine (line : Bytes) : Bytes :=
  lineFrom getSupportedKeyTypes line

/--
The part of a comment in front of an `@`, all of it if there is none.
-/
def usernameFromComment (comment : Bytes) : Bytes :=
  if comment.isEmpty then
    []
  else
    match Bytes.find [64] comment with
    | some at_ => comment.take at_
    | none => comment

/--
A key as it is written after its user.
-/
def keyText (keyInfo : PublicKeyInfo) : Bytes :=
  keyInfo.keyType ++ 32 :: keyInfo.keyData ++ if keyInfo.comment.isEmpty then [] else 32 :: keyInfo.comment

section lineFrom

variable {keyTypes : List Bytes} {s s' : Bytes}

theorem lineFrom_suffix (keyTypes : List Bytes) (s : Bytes) : lineFrom keyTypes s <:+ s := by
  induction keyTypes with
  | nil => exact List.suffix_refl s
  | cons keyType keyTypes ih =>
    rw [lineFrom]
    split
    . exact List.drop_suffix ..
    . exact ih

theorem lineFrom_of_some {keyType : Bytes} {pos : Nat} (h : Bytes.find keyType s = some pos)
    : lineFrom (keyType :: keyTypes) s = s.drop pos := by
  rw [lineFrom, h]

theorem lineFrom_of_none {keyType : Bytes} (h : Bytes.find keyType s = none)
    : lineFrom (keyType :: keyTypes) s = lineFrom keyTypes s := by
  rw [lineFrom, h]

theorem lineFrom_of_prefix {keyType : Bytes} (h : keyType <+: s) : lineFrom (keyType :: keyTypes) s = s := by
  rw [lineFrom_of_some (Bytes.find_eq_zero h), List.drop_zero]

theorem lineFrom_of_notInfix {keyType : Bytes} (h : ¬keyType <:+: s)
    : lineFrom (keyType :: keyTypes) s = lineFrom keyTypes s :=
  lineFrom_of_none (Bytes.find_eq_none_iff.mpr h)

/--
A line that starts with a key already is left as it is.
-/
theorem lineFrom_lineFrom (keyTypes : List Bytes) (s : Bytes)
    : lineFrom keyTypes (lineFrom keyTypes s) = lineFrom keyTypes s := by
  induction keyTypes with
  | nil => rfl
  | cons keyType keyTypes ih =>
    cases hfind : Bytes.find keyType s with
    | some pos =>
      rw [lineFrom_of_some hfind]
      exact lineFrom_of_prefix (Bytes.prefix_drop_of_find hfind)
    | none =>
      rw [lineFrom_of_none hfind]
      have hnot : ¬keyType <:+: lineFrom keyTypes s := by
        intro hoccurs
        exact Bytes.find_eq_none_iff.mp hfind (hoccurs.trans (lineFrom_suffix keyTypes s).isInfix)
      rw [lineFrom_of_notInfix hnot]
      exact ih

/--
In front of a line that has a key, more text either does not matter or is kept in part.
-/
theorem lineFrom_append (a : Bytes) (s : Bytes) (ha : a ≠ [])
    : lineFrom keyTypes (a ++ s) = lineFrom keyTypes s ∨ s.length < (lineFrom keyTypes (a ++ s)).length := by
  induction keyTypes with
  | nil =>
    have := List.length_pos_iff.mpr ha
    exact .inr (by simpa [lineFrom] using this)
  | cons keyType keyTypes ih =>
    cases hfind : Bytes.find keyType (a ++ s) with
    | some pos =>
      rw [lineFrom_of_some hfind]
      by_cases hlt : pos < a.length
      . right
        simp only [List.length_drop, List.length_append]
        omega
      . left
        have hge : a.length ≤ pos := by omega
        rw [lineFrom_of_some (Bytes.find_of_find_append hfind hge)]
        simp [List.drop_append, hge]
    | none =>
      have hnot : ¬keyType <:+: s := by
        intro hoccurs
        exact Bytes.find_eq_none_iff.mp hfind (hoccurs.trans (List.suffix_append a s).isInfix)
      rw [lineFrom_of_none hfind, lineFrom_of_notInfix hnot]
      exact ih

theorem lineFrom_eq_or_prefix (keyTypes : List Bytes) (s : Bytes)
    : lineFrom keyTypes s = s ∨ ∃ keyType ∈ keyTypes, keyType <+: lineFrom keyTypes s := by
  induction keyTypes with
  | nil => exact .inl rfl
  | cons keyType keyTypes ih =>
    cases hfind : Bytes.find keyType s with
    | some pos =>
      rw [lineFrom_of_some hfind]
      exact .inr ⟨keyType, by simp, Bytes.prefix_drop_of_find hfind⟩
    | none =>
      rw [lineFrom_of_none hfind]
      rcases ih with heq | ⟨k, hk, hbegins⟩
      . exact .inl heq
      . exact .inr ⟨k, List.mem_cons_of_mem _ hk, hbegins⟩

/--
Whether a line starts with a key depends only on the key types that occur in it or that it starts with.
-/
theorem lineFrom_eq_self_of (h : lineFrom keyTypes s = s)
    (hoccurs : ∀ keyType ∈ keyTypes, keyType <:+: s' → keyType <:+: s)
    (hbegin : ∀ keyType ∈ keyTypes, keyType <+: s → keyType <+: s')
    : lineFrom keyTypes s' = s' := by
  induction keyTypes with
  | nil => rfl
  | cons keyType keyTypes ih =>
    cases hfind : Bytes.find keyType s with
    | some pos =>
      have hstart := Bytes.prefix_drop_of_find hfind
      have hdrop : lineFrom (keyType :: keyTypes) s = s.drop pos := lineFrom_of_some hfind
      rw [← hdrop, h] at hstart
      exact lineFrom_of_prefix (hbegin keyType (by simp) hstart)
    | none =>
      have hnot : ¬keyType <:+: s' := by
        intro hkey
        exact Bytes.find_eq_none_iff.mp hfind (hoccurs keyType (by simp) hkey)
      rw [lineFrom_of_none hfind] at h
      rw [lineFrom_of_notInfix hnot]
      refine ih h ?_ ?_
      . exact fun k hk => hoccurs k (List.mem_cons_of_mem _ hk)
      . exact fun k hk => hbegin k (List.mem_cons_of_mem _ hk)

end lineFrom

/--
A word between white space.
-/
structure IsWord (w : Bytes) : Prop where
  ne_nil : w ≠ []
  noSpace : ∀ c ∈ w, Bytes.isspace c = false

/--
What holds of every key that was parsed.
-/
structure IsKey (k : PublicKeyInfo) : Prop where
  keyType : IsWord k.keyType
  keyData : IsWord k.keyData
  supported : isSupportedKeyType k.keyType = true
  comment : newline ∉ k.comment

section parse

variable {s : Bytes} {k : PublicKeyInfo}

theorem comment_eq_drop (rest : Bytes) : (if rest.isEmpty then [] else rest.drop 1) = rest.drop 1 := by
  cases rest <;> rfl

/--
Where the parts of a parsed key are in the text.
-/
theorem parse_eq_some (h : parse s = some k)
    : ∃ blanks blanks' rest, s = blanks ++ k.keyType ++ (blanks' ++ k.keyData ++ rest)
      ∧ (∀ c ∈ blanks, Bytes.isspace c = true) ∧ blanks' ≠ [] ∧ (∀ c ∈ blanks', Bytes.isspace c = true)
      ∧ k.comment = (rest.takeWhile (· ≠ newline)).drop 1 ∧ IsKey k := by
  simp only [parse] at h
  split at h
  . simp at h
  . obtain ⟨⟨keyType, iss⟩, htype, h⟩ := Option.bind_eq_some_iff.mp h
    obtain ⟨⟨keyData, rest⟩, hdata, h⟩ := Option.bind_eq_some_iff.mp h
    simp only at htype hdata h
    split at h
    . simp at h
    . next hsupported =>
      rw [comment_eq_drop] at h
      obtain rfl := Option.some.inj h
      obtain ⟨blanks, rfl, hne, hblanks, hspace, hnext⟩ := Bytes.extract_eq_some htype
      obtain ⟨blanks', rfl, hne', hblanks', hspace', -⟩ := Bytes.extract_eq_some hdata
      refine ⟨blanks, blanks', rest, rfl, hblanks, ?_, hblanks', rfl, ⟨hne, hspace⟩, ⟨hne', hspace'⟩,
        by simpa using hsupported, ?_⟩
      . rintro rfl
        cases keyData with
        | nil => exact hne' rfl
        | cons c keyData =>
          have hc := hspace' c (by simp)
          have := hnext c (by simp)
          simp_all
      . intro hmem
        have := List.mem_takeWhile_imp (List.mem_of_mem_drop hmem)
        simp at this

theorem parse_word_word {w w' r : Bytes} (hw : IsWord w) (hw' : IsWord w')
    (hr : ∀ c ∈ r.head?, Bytes.isspace c = true)
    : parse (w ++ 32 :: (w' ++ r)) =
      if isSupportedKeyType w then
        some { keyType := w, keyData := w', comment := (r.takeWhile (· ≠ newline)).drop 1 }
      else
        none := by
  have hne : (w ++ 32 :: (w' ++ r)).isEmpty = false := by simp
  have htype : Bytes.extract (w ++ 32 :: (w' ++ r)) = some (w, 32 :: (w' ++ r)) := by
    refine Bytes.extract_append hw.ne_nil hw.noSpace ?_
    intro c hc
    obtain rfl : 32 = c := by simpa using hc
    decide
  have hdata : Bytes.extract (32 :: (w' ++ r)) = some (w', r) := by
    rw [Bytes.extract_cons _ _ (by decide), Bytes.extract_append hw'.ne_nil hw'.noSpace hr]
  simp only [parse, hne, Bool.false_eq_true, if_false, htype, hdata, Option.bind_eq_bind, Option.bind_some,
    comment_eq_drop]
  cases isSupportedKeyType w <;> simp

theorem parse_keyText (hk : IsKey k) : parse (keyText k) = some { k with username := [] } := by
  have htext : ∃ r, keyText k = k.keyType ++ 32 :: (k.keyData ++ r) ∧ (∀ c ∈ r.head?, Bytes.isspace c = true)
      ∧ (r.takeWhile (· ≠ newline)).drop 1 = k.comment := by
    unfold keyText
    split
    . next hempty => exact ⟨[], by simp, by simp, by simp_all⟩
    . have hline : newline ∉ 32 :: k.comment := by
        rw [List.mem_cons, not_or]
        exact ⟨by decide, hk.comment⟩
      refine ⟨32 :: k.comment, by simp, ?_, ?_⟩
      . intro c hc
        obtain rfl : 32 = c := by simpa using hc
        decide
      . rw [Bytes.takeWhile_ne_eq_self hline]
        rfl
  obtain ⟨r, htext, hr, hcomment⟩ := htext
  rw [htext, parse_word_word hk.keyType hk.keyData hr, if_pos hk.supported, hcomment]

theorem newline_notMem_keyText (hk : IsKey k) : newline ∉ keyText k := by
  have hword : ∀ {w}, IsWord w → newline ∉ w := by
    intro w hw hmem
    have := hw.noSpace _ hmem
    revert this
    decide
  have hblank : newline ≠ 32 := by decide
  unfold keyText
  split <;> simp [hword hk.keyType, hword hk.keyData, hk.comment, hblank]

/--
With one more word in front, the key type is taken for the key data and the key data becomes a part of
the comment.
-/
theorem parse_word_keyText (hk : IsKey k) {w : Bytes} (hw : IsWord w) {k' : PublicKeyInfo}
    (h : parse (w ++ 32 :: keyText k) = some k')
    : k.comment.length < k'.comment.length := by
  have htext : ∃ tail, keyText k = k.keyType ++ 32 :: (k.keyData ++ tail) ∧ k.comment.length ≤ tail.length := by
    unfold keyText
    split
    . next hempty => exact ⟨[], by simp, by simp_all⟩
    . exact ⟨32 :: k.comment, by simp, by simp⟩
  obtain ⟨tail, htext, htail⟩ := htext
  have hline : newline ∉ 32 :: (k.keyData ++ tail) := by
    have := newline_notMem_keyText hk
    rw [htext] at this
    simp_all
  have hspace : ∀ c ∈ (32 :: (k.keyData ++ tail)).head?, Bytes.isspace c = true := by
    intro c hc
    obtain rfl : 32 = c := by simpa using hc
    decide
  rw [htext, parse_word_word hw hk.keyType hspace, Bytes.takeWhile_ne_eq_self hline] at h
  split at h
  . obtain rfl := Option.some.inj h
    have hdata := List.length_pos_iff.mpr hk.keyData.ne_nil
    simp only [List.drop_succ_cons, List.drop_zero, List.length_append]
    omega
  . simp at h

/--
The text of a key is the shortest that is parsed as it.
-/
theorem length_keyText_le (h : parse s = some k) : (keyText k).length ≤ s.length := by
  obtain ⟨blanks, blanks', rest, rfl, -, hblanks', -, hcomment, -⟩ := parse_eq_some h
  have hpos := List.length_pos_iff.mpr hblanks'
  have htake : (rest.takeWhile (· ≠ newline)).length ≤ rest.length :=
    (List.takeWhile_prefix _).length_le
  have hrest : (if k.comment.isEmpty then [] else 32 :: k.comment).length ≤ rest.length := by
    split
    . simp
    . next hne =>
      have hlength := congrArg List.length hcomment
      have hcommentPos : 0 < k.comment.length := List.length_pos_iff.mpr (by simpa using hne)
      simp only [List.length_drop, List.length_cons] at hlength ⊢
      omega
  simp only [keyText, List.length_append, List.length_cons] at hrest ⊢
  omega

theorem isWord_of_mem_getSupportedKeyTypes {keyType : Bytes} (h : keyType ∈ getSupportedKeyTypes)
    : IsWord keyType := by
  have hall : ∀ keyType ∈ getSupportedKeyTypes, keyType ≠ [] ∧ ∀ c ∈ keyType, Bytes.isspace c = false := by
    decide +kernel
  exact ⟨(hall keyType h).1, (hall keyType h).2⟩

theorem IsWord.notMem_of_isspace {w : Bytes} (hw : IsWord w) {c : UInt8} (hc : Bytes.isspace c = true) : c ∉ w := by
  intro hmem
  simp [hw.noSpace c hmem] at hc

/--
A word that occurs in the text of a key occurs in one of its parts.
-/
theorem infix_of_infix_keyText {w : Bytes} (hw : IsWord w) (h : w <:+: keyText k)
    : w <:+: k.keyType ∨ w <:+: k.keyData ∨ w <:+: k.comment := by
  have hblank := hw.notMem_of_isspace (c := 32) (by decide)
  unfold keyText at h
  rw [List.append_assoc, List.cons_append] at h
  rcases Bytes.infix_or_infix_of_infix_append_cons hblank h with h | h
  . exact .inl h
  . split at h
    . exact .inr (.inl (by simpa using h))
    . exact .inr (Bytes.infix_or_infix_of_infix_append_cons hblank h)

/--
The text of a key found at the start of a line has no other key in it.
-/
theorem extractKeyLine_keyText (h : parse s = some k) (hs : extractKeyLine s = s)
    : extractKeyLine (keyText k) = keyText k := by
  obtain ⟨blanks, blanks', rest, rfl, hblanks, hne, hblanks', hcomment, hk⟩ := parse_eq_some h
  refine lineFrom_eq_self_of hs ?_ ?_
  . intro keyType hmem hoccurs
    rcases infix_of_infix_keyText (isWord_of_mem_getSupportedKeyTypes hmem) hoccurs with hpart | hpart | hpart
    . exact hpart.trans ⟨blanks, blanks' ++ k.keyData ++ rest, by simp⟩
    . exact hpart.trans ⟨blanks ++ k.keyType ++ blanks', rest, by simp⟩
    . have hrest : k.comment <:+: rest := by
        rw [hcomment]
        exact (List.drop_suffix ..).isInfix.trans (List.takeWhile_prefix _).isInfix
      exact (hpart.trans hrest).trans ⟨blanks ++ k.keyType ++ (blanks' ++ k.keyData), [], by simp⟩
  . intro keyType hmem hbegins
    have hword := isWord_of_mem_getSupportedKeyTypes hmem
    -- a key type has no blank in it, so the text starts with one only if nothing is in front
    have hnone : blanks = [] := by
      cases blanks with
      | nil => rfl
      | cons c blanks =>
        cases keyType with
        | nil => exact absurd rfl hword.ne_nil
        | cons d keyType =>
          obtain ⟨rfl, -⟩ := List.cons_prefix_cons.mp hbegins
          exact absurd (by simp) (hword.notMem_of_isspace (hblanks d (by simp)))
    subst hnone
    cases blanks' with
    | nil => exact absurd rfl hne
    | cons c blanks' =>
      have hnot := hword.notMem_of_isspace (hblanks' c (by simp))
      have hstart : keyType <+: k.keyType := Bytes.prefix_of_prefix_append_cons hnot hbegins
      refine hstart.trans ?_
      rw [keyText, List.append_assoc]
      exact List.prefix_append ..

end parse

end PublicKey
end SimpleRsyncd
