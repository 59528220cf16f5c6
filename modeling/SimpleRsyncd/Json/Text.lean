import Mathlib.Data.List.Forall2
import SimpleRsyncd.Json.Cost

/-!
This module contains texts that are put together from strings as they are, without any escapes, and what
is read from them: the strings if they have only bytes that may stand for themselves.
-/

namespace SimpleRsyncd
namespace Json

def quoted (s : Bytes) : Bytes :=
  bytes "\"" ++ s ++ bytes "\""

def memberText (key text : Bytes) : Bytes :=
  quoted key ++ bytes ":" ++ text

def itemsText (texts : List Bytes) : Bytes :=
  (bytes ",").intercalate texts

def objectText (members : List Bytes) : Bytes :=
  bytes "\x7b" ++ itemsText members ++ bytes "\x7d"

def Plain (s : Bytes) : Prop :=
  ∀ c ∈ s, isPlain c = true

/--
What may come after a value.
-/
def Ends (rest : Bytes) : Prop :=
  ∀ c ∈ rest.head?, c = comma ∨ c = 93 ∨ c = 125

/--
A text is read as `x` wherever it stands.
-/
def Reads {α : Type} (read : Bytes → Option (α × Bytes)) (text : Bytes) (x : α) : Prop :=
  ∀ rest, Ends rest → read (text ++ rest) = some (x, rest)

instance (s : Bytes) : Decidable (Plain s) :=
  inferInstanceAs (Decidable (∀ c ∈ s, isPlain c = true))

theorem skipSpace_cons {c : UInt8} {s : Bytes} (h : isSpace c = false) : skipSpace (c :: s) = c :: s := by
  simp [skipSpace, h]

section strings

variable {s : Bytes}

theorem plain_iff_charCost : Plain s ↔ charCost s = s.length := by
  rw [charCost, Nat.add_eq_left, List.countP_eq_zero]
  simp [Plain]

theorem length_le_charCost (s : Bytes) : s.length ≤ charCost s :=
  Nat.le_add_right _ _

theorem length_quoted (s : Bytes) : (quoted s).length = s.length + 2 := by
  simp [quoted, bytes]

theorem length_memberText (key text : Bytes) : (memberText key text).length = key.length + text.length + 3 := by
  simp only [memberText, List.length_append, length_quoted, bytes, List.length_map]
  simp
  omega

theorem readChar_plain {c : UInt8} (h : isPlain c = true) (s : Bytes) : readChar (c :: s) = some ([c], s) := by
  have hne : c ≠ 92 := by
    rintro rfl
    contradiction
  rw [readChar, if_neg hne, if_pos h]

theorem readChars_plain (h : Plain s) {n : Nat} (hn : s.length < n) (rest : Bytes)
    : readChars n (s ++ 34 :: rest) = some (s, rest) := by
  induction s generalizing n with
  | nil =>
    obtain ⟨n, rfl⟩ := Nat.exists_eq_add_of_lt hn
    rfl
  | cons c s ih =>
    obtain ⟨n, rfl⟩ : ∃ k, n = k + 1 := Nat.exists_eq_add_one.mpr (Nat.zero_lt_of_lt hn)
    have hc : isPlain c = true := h c (by simp)
    have hne : c ≠ 34 := by
      rintro rfl
      contradiction
    have htail := ih (fun d hd => h d (by simp [hd])) (by simpa using hn)
    rw [List.cons_append, readChars, if_neg (by simpa using hne), readChar_plain hc]
    simp [htail]

theorem readString_quoted (h : Plain s) (rest : Bytes) : readString (quoted s ++ rest) = some (s, rest) := by
  have hshape : quoted s ++ rest = 34 :: (s ++ 34 :: rest) := by simp [quoted, bytes]
  rw [hshape, readString, if_pos List.head?_cons, List.tail_cons]
  have hlength : s.length < (34 :: (s ++ 34 :: rest)).length := by
    simp only [List.length_cons, List.length_append]
    omega
  exact readChars_plain h hlength rest

theorem skipSpace_quoted (s rest : Bytes) : skipSpace (quoted s ++ rest) = quoted s ++ rest :=
  skipSpace_cons (by decide)

theorem head?_quoted (s rest : Bytes) : (quoted s ++ rest).head? = some 34 :=
  rfl

theorem reads_quoted (h : Plain s) (n : Nat) : Reads (readValue (n + 1)) (quoted s) (.string s) := by
  intro rest _
  rw [readValue]
  simp only [skipSpace_quoted, head?_quoted, if_true, readString_quoted h]
  rfl

theorem Plain.notMem {c : UInt8} (h : Plain s) (hc : isPlain c = false) : c ∉ s := by
  intro hmem
  rw [h c hmem] at hc
  contradiction

theorem notMem_quoted {c : UInt8} (hquote : c ≠ 34) (h : c ∉ s) : c ∉ quoted s := by
  simp [quoted, bytes, hquote, h]

theorem notMem_memberText {c : UInt8} {key text : Bytes} (hquote : c ≠ 34) (hcolon : c ≠ 58) (hkey : c ∉ key)
    (htext : c ∉ text)
    : c ∉ memberText key text := by
  simp [memberText, notMem_quoted hquote hkey, bytes, hcolon, htext]

end strings

section numbers

theorem ne_of_isNumberByte {c : UInt8} (h : isNumberByte c = true)
    : isSpace c = false ∧ c ≠ 34 ∧ c ≠ 123 ∧ c ≠ 91 ∧ c ≠ 110 ∧ c ≠ 116 ∧ c ≠ 102 := by
  refine ⟨?_, ?_, ?_, ?_, ?_, ?_, ?_⟩
  . rw [Bool.eq_false_iff]
    intro hspace
    have hcases : ((c = 32 ∨ c = 9) ∨ c = 10) ∨ c = 13 := by simpa [isSpace] using hspace
    rcases hcases with ((rfl | rfl) | rfl) | rfl <;> contradiction
  all_goals
    rintro rfl
    contradiction

theorem reads_number {text : Bytes} (hnumber : isNumber text = true) (h : ∀ c ∈ text, isNumberByte c = true)
    (n : Nat)
    : Reads (readValue (n + 1)) text (.number text) := by
  intro rest hrest
  have hstop : rest.takeWhile isNumberByte = [] ∧ rest.dropWhile isNumberByte = rest := by
    cases rest with
    | nil => simp
    | cons c rest => rcases hrest c (by simp) with rfl | rfl | rfl <;> exact ⟨rfl, rfl⟩
  have hread : readNumber (text ++ rest) = some (.number text, rest) := by
    unfold readNumber
    rw [List.takeWhile_append_of_pos h, List.dropWhile_append_of_pos h, hstop.1, hstop.2]
    simp [hnumber]
  cases text with
  | nil => contradiction
  | cons c text =>
    obtain ⟨hspace, hquote, hbrace, hbracket, hn, ht, hf⟩ := ne_of_isNumberByte (h c (by simp))
    have hliteral : readLiteral (c :: text ++ rest) = none := by
      simp [readLiteral, literals, bytes, Ne.symm hn, Ne.symm ht, Ne.symm hf]
    rw [readValue]
    simp only [List.cons_append, skipSpace_cons hspace, List.head?_cons, Option.some.injEq, hquote, hbrace,
      hbracket, if_false]
    rw [← List.cons_append, hliteral, hread]
    rfl

end numbers

section lists

theorem itemsText_cons (text : Bytes) {texts : List Bytes} (hne : texts ≠ [])
    : itemsText (text :: texts) = text ++ comma :: itemsText texts := by
  cases texts with
  | nil => contradiction
  | cons text' texts => simp [itemsText, List.intercalate, bytes, comma]

theorem itemsText_append (first : List Bytes) {texts : List Bytes} (hne : texts ≠ [])
    : itemsText (first ++ texts) = first.flatMap (· ++ [comma]) ++ itemsText texts := by
  induction first with
  | nil => rfl
  | cons text first ih =>
    rw [List.cons_append, itemsText_cons text (by simp [hne]), ih]
    simp

theorem length_itemsText {texts : List Bytes} (hne : texts ≠ [])
    : (itemsText texts).length + 1 = (texts.map (·.length + 1)).sum := by
  induction texts with
  | nil => contradiction
  | cons text texts ih =>
    cases texts with
    | nil => simp [itemsText, List.intercalate]
    | cons text' texts =>
      rw [itemsText_cons text (by simp), List.map_cons, List.sum_cons, ← ih (by simp)]
      simp only [List.length_append, List.length_cons]
      omega

theorem length_objectText {texts : List Bytes} (hne : texts ≠ [])
    : (objectText texts).length = (texts.map (·.length + 1)).sum + 1 := by
  rw [← length_itemsText hne]
  simp [objectText, bytes]

theorem length_le_length_itemsText {texts : List Bytes} (hne : texts ≠ [])
    : texts.length ≤ (itemsText texts).length + 1 := by
  rw [length_itemsText hne]
  simp

variable {α : Type} {close : UInt8} {item : Bytes → Option (α × Bytes)}

theorem Reads.alone {text : Bytes} {x : α} (h : Reads item text x) : item text = some (x, []) := by
  simpa using h [] (by simp [Ends])

theorem readItems_comma {text : Bytes} {x : α} (h : Reads item text x) (hclose : close ≠ comma) (n : Nat) (s : Bytes)
    : readItems close item (n + 1) (text ++ comma :: s)
      = (readItems close item n s).map fun (xs, rest) => (x :: xs, rest) := by
  have hends : Ends (comma :: s) := by simp [Ends]
  rw [readItems, h _ hends]
  simp [skipSpace_cons (show isSpace comma = false by decide), Ne.symm hclose]

theorem readItems_close {text : Bytes} {x : α} (h : Reads item text x) (hclose : close = 93 ∨ close = 125) (n : Nat)
    (rest : Bytes)
    : readItems close item (n + 1) (text ++ close :: rest) = some ([x], rest) := by
  have hends : Ends (close :: rest) := by simp [Ends, hclose]
  have hspace : isSpace close = false := by
    rcases hclose with rfl | rfl <;> rfl
  rw [readItems, h _ hends]
  simp [skipSpace_cons hspace]

/--
Items that are read wherever they stand are read in front of others.
-/
theorem readItems_append {texts : List Bytes} {xs : List α} (h : List.Forall₂ (Reads item) texts xs)
    (hclose : close ≠ comma) (n : Nat) (s : Bytes)
    : readItems close item (texts.length + n) (texts.flatMap (· ++ [comma]) ++ s)
      = (readItems close item n s).map fun (ys, rest) => (xs ++ ys, rest) := by
  induction h with
  | nil => simp
  | @cons text x texts xs hx _ ih =>
    have hcomma := readItems_comma hx hclose (texts.length + n) (texts.flatMap (· ++ [comma]) ++ s)
    rw [ih] at hcomma
    simpa [Nat.add_right_comm, Option.map_map, Function.comp_def] using hcomma

theorem readItems_itemsText {texts : List Bytes} {xs : List α} (h : List.Forall₂ (Reads item) texts xs)
    (hne : texts ≠ []) (hclose : close = 93 ∨ close = 125) {n : Nat} (hn : texts.length ≤ n) (rest : Bytes)
    : readItems close item n (itemsText texts ++ close :: rest) = some (xs, rest) := by
  have hcomma : close ≠ comma := by
    rcases hclose with rfl | rfl <;> decide
  induction h generalizing n with
  | nil => contradiction
  | @cons text x texts xs hx htexts ih =>
    obtain ⟨n, rfl⟩ : ∃ k, n = k + 1 := Nat.exists_eq_add_one.mpr (Nat.lt_of_lt_of_le (Nat.succ_pos _) hn)
    cases htexts with
    | nil =>
      have hlast := readItems_close hx hclose n rest
      simpa [itemsText, List.intercalate] using hlast
    | cons =>
      rw [itemsText_cons text (by simp), List.append_assoc, List.cons_append, readItems_comma hx hcomma]
      rw [ih (by simp) (by simpa using hn)]
      rfl

end lists

section objects

variable {value : Bytes → Option (Json × Bytes)}

theorem reads_member {key text : Bytes} {v : Json} (hkey : Plain key) (h : Reads value text v)
    : Reads (readMember value) (memberText key text) (key, v) := by
  intro rest hrest
  have hshape : memberText key text ++ rest = quoted key ++ (colon :: (text ++ rest)) := by
    simp [memberText, bytes, colon]
  have hspace : isSpace colon = false := by decide
  rw [hshape, readMember, skipSpace_quoted, readString_quoted hkey]
  simp [skipSpace_cons hspace, h rest hrest]

theorem head?_of_readMember {s : Bytes} (h : readMember value s ≠ none) : (skipSpace s).head? = some 34 := by
  by_contra hne
  exact h (by rw [readMember, readString, if_neg hne])

/--
A text that begins with a member is no empty list of members.
-/
theorem readList_of_readMember {s : Bytes} (h : readMember value s ≠ none)
    : readList 125 (readMember value) s = readItems 125 (readMember value) s.length s := by
  rw [readList]
  simp [head?_of_readMember h]

theorem readValue_objectText (n : Nat) (texts : List Bytes) (rest : Bytes)
    : readValue (n + 1) (objectText texts ++ rest)
      = (readList 125 (readMember (readValue n)) (itemsText texts ++ 125 :: rest)).map
          fun (members, rest) => (.object members, rest) := by
  have hshape : objectText texts ++ rest = 123 :: (itemsText texts ++ 125 :: rest) := by
    simp [objectText, itemsText, bytes]
  have hspace : isSpace 123 = false := by decide
  rw [hshape, readValue]
  simp [skipSpace_cons hspace]

theorem readMember_ne_none {text : Bytes} {m : Bytes × Json} (h : Reads (readMember value) text m)
    (texts : List Bytes) {rest : Bytes} (hrest : Ends rest)
    : readMember value (itemsText (text :: texts) ++ rest) ≠ none := by
  cases texts with
  | nil => simp [itemsText, List.intercalate, h rest hrest]
  | cons text' texts =>
    have hends : Ends (comma :: (itemsText (text' :: texts) ++ rest)) := by simp [Ends]
    rw [itemsText_cons text (by simp), List.append_assoc, List.cons_append, h _ hends]
    simp

theorem reads_object {n : Nat} {texts : List Bytes} {members : List (Bytes × Json)}
    (h : List.Forall₂ (Reads (readMember (readValue n))) texts members) (hne : texts ≠ [])
    : Reads (readValue (n + 1)) (objectText texts) (.object members) := by
  intro rest _
  have hends : Ends (125 :: rest) := by simp [Ends]
  have hsome : readMember (readValue n) (itemsText texts ++ 125 :: rest) ≠ none := by
    cases h with
    | nil => contradiction
    | cons hm _ => exact readMember_ne_none hm _ hends
  have hlength : texts.length ≤ (itemsText texts ++ 125 :: rest).length := by
    have hle := length_le_length_itemsText hne
    simp only [List.length_append, List.length_cons]
    omega
  rw [readValue_objectText, readList_of_readMember hsome, readItems_itemsText h hne (.inr rfl) hlength]
  rfl

/--
What is read from an object whose first members are read wherever they stand: these members, and others that
cost no more than what comes after them.
-/
theorem readValue_objectText_append {n : Nat} {first texts : List Bytes} {members : List (Bytes × Json)}
    (hfirst : List.Forall₂ (Reads (readMember (readValue n))) first members) (hne : first ≠ [])
    (htexts : texts ≠ []) {v : Json} {rest : Bytes}
    (h : readValue (n + 1) (objectText (first ++ texts)) = some (v, rest))
    : ∃ others, v = .object (members ++ others)
      ∧ (others.map (memberCost · + 1)).sum ≤ (texts.map (·.length + 1)).sum := by
  have hends : Ends [125] := by simp [Ends]
  have hsome : readMember (readValue n) (itemsText (first ++ texts) ++ [125]) ≠ none := by
    cases hfirst with
    | nil => contradiction
    | cons hm _ => exact readMember_ne_none hm _ hends
  have hshape : itemsText (first ++ texts) ++ [125]
      = first.flatMap (· ++ [comma]) ++ (itemsText texts ++ [125]) := by
    rw [itemsText_append first htexts, List.append_assoc]
  have hlength : first.length ≤ (itemsText (first ++ texts) ++ [125]).length := by
    have hle := length_le_length_itemsText (show first ++ texts ≠ [] by simp [hne])
    simp only [List.length_append, List.length_cons, List.length_nil] at hle ⊢
    omega
  obtain ⟨k, hk⟩ := Nat.exists_eq_add_of_le hlength
  have hread := readValue_objectText n (first ++ texts) []
  rw [List.append_nil, h, readList_of_readMember hsome, hk, hshape,
    readItems_append hfirst (by decide)] at hread
  obtain ⟨⟨found, rest'⟩, hfound, heq⟩ := Option.map_eq_some_iff.mp hread.symm
  obtain ⟨⟨others, rest''⟩, hothers, rfl, rfl⟩ :
      ∃ p, readItems 125 (readMember (readValue n)) k (itemsText texts ++ [125]) = some p
        ∧ members ++ p.1 = found ∧ p.2 = rest' := by
    simpa using hfound
  obtain ⟨rfl, rfl⟩ : _ = v ∧ _ = rest := by simpa using heq
  have hcost := (costs_readValue n).readMember.readItems 125 k _ others _ hothers
  rw [List.length_append, List.length_singleton, length_itemsText htexts] at hcost
  exact ⟨others, rfl, Nat.le_of_add_right_le hcost⟩

theorem decode_objectText_append {first texts : List Bytes} {members : List (Bytes × Json)} {v : Json}
    (hfirst : ∀ n, List.Forall₂ (Reads (readMember (readValue (n + 1)))) first members) (hne : first ≠ [])
    (htexts : texts ≠ []) (h : decode (objectText (first ++ texts)) = some v)
    : ∃ others, v = .object (members ++ others)
      ∧ (others.map (memberCost · + 1)).sum ≤ (texts.map (·.length + 1)).sum := by
  obtain ⟨k, hk⟩ : ∃ k, (objectText (first ++ texts)).length = k + 1 :=
    ⟨_, by simp [objectText, bytes]; rfl⟩
  rw [decode, hk] at h
  split at h
  . contradiction
  . next w rest hread =>
    split at h
    . obtain rfl : w = v := by simpa using h
      exact readValue_objectText_append (hfirst k) hne htexts hread
    . contradiction

theorem decode_of_reads {text : Bytes} {v : Json} (h : Reads (readValue (text.length + 1)) text v)
    : decode text = some v := by
  rw [decode, h.alone]
  rfl

theorem notMem_objectText {c : UInt8} {texts : List Bytes} (hopen : c ≠ 123) (hclose : c ≠ 125)
    (hcomma : c ≠ comma) (h : ∀ text ∈ texts, c ∉ text)
    : c ∉ objectText texts := by
  intro hmem
  have hcases : c = 123 ∨ c ∈ itemsText texts ∨ c = 125 := by simpa [objectText, bytes] using hmem
  rcases hcases with rfl | hitems | rfl
  . contradiction
  . rcases Bytes.mem_of_mem_intercalate hitems with rfl | ⟨text, htext, hc⟩
    . contradiction
    . exact h text htext hc
  . contradiction

end objects

end Json
end SimpleRsyncd
