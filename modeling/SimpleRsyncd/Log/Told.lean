import SimpleRsyncd.Json.Members
import SimpleRsyncd.Json.Text
import SimpleRsyncd.Container.OrderedMap
import SimpleRsyncd.Bytes.Order

/-!
This module contains what a JSON parser makes of a record that is put together from a message, a context and
fields without any escapes.
-/

namespace SimpleRsyncd

open Json (Plain Reads get? decode quoted memberText objectText memberCost charCost readMember readValue)

/--
What is put into a record: a message, a text under a name of its own that is left out if it is empty, and
fields.
-/
structure Told where
  message : Bytes
  label : Bytes
  context : Bytes
  fields : OrderedMap Bytes Bytes
  plain_label : Plain label
  label_ne_message : label ≠ bytes "message"
  label_ne_fields : label ≠ bytes "fields"

namespace Told

variable (told : Told)

/--
No text has a quotation mark, a backslash or a control character in it.
-/
structure IsPlain : Prop where
  message : Plain told.message
  context : Plain told.context
  fields : ∀ e ∈ told.fields.entries, Plain e.1 ∧ Plain e.2

/--
A record is one line, and what was put into it is found in the object that it is decoded to.
-/
def Recovered (record : Bytes) : Prop :=
  newline ∉ record ∧ ∃ members fields,
    decode record = some (.object members)
      ∧ get? members (bytes "message") = some (.string told.message)
      ∧ get? members told.label = (if told.context.isEmpty then none else some (.string told.context))
      ∧ get? members (bytes "fields") = (if told.fields.entries.isEmpty then none else some (.object fields))
      ∧ ∀ key, get? fields key = (told.fields.lookup key).map .string

def fieldMembers : List (Bytes × Json) :=
  told.fields.entries.map fun e => (e.1, .string e.2)

def fieldTexts : List Bytes :=
  told.fields.entries.map fun e => memberText e.1 (quoted e.2)

/--
The members of the record with these as its fields.
-/
def members (fields : List (Bytes × Json)) : List (Bytes × Json) :=
  (bytes "message", .string told.message)
    :: ((if told.context.isEmpty then [] else [(told.label, .string told.context)])
      ++ (if told.fields.entries.isEmpty then [] else [(bytes "fields", .object fields)]))

def texts : List Bytes :=
  memberText (bytes "message") (quoted told.message)
    :: ((if told.context.isEmpty then [] else [memberText told.label (quoted told.context)])
      ++ (if told.fields.entries.isEmpty then [] else [memberText (bytes "fields") (objectText told.fieldTexts)]))

variable {told}

theorem itemsText_texts
    : Json.itemsText told.texts
      = memberText (bytes "message") (quoted told.message)
        ++ (if told.context.isEmpty then [] else bytes "," ++ memberText told.label (quoted told.context))
        ++ (
          if told.fields.entries.isEmpty then
            []
          else
            bytes "," ++ memberText (bytes "fields") (objectText told.fieldTexts)
        ) := by
  unfold texts
  split <;> split <;> simp [Json.itemsText, List.intercalate]

theorem nodup_members (told : Told) (fields : List (Bytes × Json)) : ((told.members fields).map (·.1)).Nodup := by
  have hfields : bytes "message" ≠ bytes "fields" := by decide
  unfold members
  split <;> split <;> simp [told.label_ne_message.symm, told.label_ne_fields, hfields]

theorem mem_members_iff {fields : List (Bytes × Json)} {m : Bytes × Json}
    : m ∈ told.members fields ↔ m = (bytes "message", .string told.message)
      ∨ (¬told.context.isEmpty = true ∧ m = (told.label, .string told.context))
      ∨ (¬told.fields.entries.isEmpty = true ∧ m = (bytes "fields", .object fields)) := by
  unfold members
  split <;> split <;> simp [*]

theorem mem_texts_iff {text : Bytes}
    : text ∈ told.texts ↔ text = memberText (bytes "message") (quoted told.message)
      ∨ (¬told.context.isEmpty = true ∧ text = memberText told.label (quoted told.context))
      ∨ (¬told.fields.entries.isEmpty = true
        ∧ text = memberText (bytes "fields") (objectText told.fieldTexts)) := by
  unfold texts
  split <;> split <;> simp [*]

theorem get?_members (told : Told) (fields : List (Bytes × Json))
    : get? (told.members fields) (bytes "message") = some (.string told.message)
      ∧ get? (told.members fields) told.label
        = (if told.context.isEmpty then none else some (.string told.context))
      ∧ get? (told.members fields) (bytes "fields")
        = (if told.fields.entries.isEmpty then none else some (.object fields)) := by
  have hnodup := nodup_members told fields
  have hfields : bytes "fields" ≠ bytes "message" := by decide
  refine ⟨Json.get?_eq_some hnodup (by simp [members]), ?_, ?_⟩
  . split
    . next hempty =>
      apply Json.get?_eq_none
      rw [members, if_pos hempty]
      split <;> simp [told.label_ne_message, told.label_ne_fields]
    . next hne => exact Json.get?_eq_some hnodup (by simp [members, hne])
  . split
    . next hempty =>
      apply Json.get?_eq_none
      rw [members, if_pos hempty]
      split <;> simp [told.label_ne_fields.symm, hfields]
    . next hne => exact Json.get?_eq_some hnodup (by simp [members, hne])

theorem keys_fieldMembers : told.fieldMembers.map (·.1) = told.fields.entries.map Prod.fst := by
  simp [fieldMembers]

theorem nodup_fieldMembers : (told.fieldMembers.map (·.1)).Nodup := by
  rw [keys_fieldMembers]
  exact told.fields.nodup_keys

theorem get?_fieldMembers (key : Bytes) : get? told.fieldMembers key = (told.fields.lookup key).map .string := by
  cases hlookup : told.fields.lookup key with
  | none =>
    apply Json.get?_eq_none
    rw [keys_fieldMembers, OrderedMap.mem_keys_iff]
    simp [hlookup]
  | some value =>
    apply Json.get?_eq_some nodup_fieldMembers
    exact List.mem_map.mpr ⟨(key, value), told.fields.mem_entries_iff.mpr hlookup, rfl⟩

theorem length_fieldText_le (e : Bytes × Bytes)
    : (memberText e.1 (quoted e.2)).length ≤ memberCost (e.1, .string e.2) := by
  have hkey := Json.length_le_charCost e.1
  have hvalue := Json.length_le_charCost e.2
  rw [Json.length_memberText, Json.length_quoted, Json.memberCost_string]
  omega

theorem sum_members (fields : List (Bytes × Json))
    : ((told.members fields).map (memberCost · + 1)).sum
      = charCost told.message + 13
        + (if told.context.isEmpty then 0 else told.label.length + charCost told.context + 6)
        + (if told.fields.entries.isEmpty then 0 else (fields.map (memberCost · + 1)).sum + 11) := by
  have hlabel := Json.plain_iff_charCost.mp told.plain_label
  have hmessage : charCost (bytes "message") = 7 := rfl
  have hfields : charCost (bytes "fields") = 6 := rfl
  unfold members
  split <;> split <;> simp [Json.memberCost_string, Json.memberCost_object, hlabel, hmessage, hfields] <;> omega

theorem sum_texts
    : (told.texts.map (·.length + 1)).sum
      = told.message.length + 13
        + (if told.context.isEmpty then 0 else told.label.length + told.context.length + 6)
        + (if told.fields.entries.isEmpty then 0 else (told.fieldTexts.map (·.length + 1)).sum + 11) := by
  have hmessage : (bytes "message").length = 7 := rfl
  have hfields : (bytes "fields").length = 6 := rfl
  have hobject (hne : ¬told.fields.entries.isEmpty = true)
      : (objectText told.fieldTexts).length = (told.fieldTexts.map (·.length + 1)).sum + 1 :=
    Json.length_objectText (by simpa [fieldTexts] using hne)
  unfold texts
  split <;> split <;> simp [Json.length_memberText, Json.length_quoted, *] <;> omega

/--
The members of a record are as long as the texts that it is made of only if nothing had to be escaped.
-/
theorem isPlain_of_sum_le {fields : List (Bytes × Json)}
    (hfields : (told.fieldMembers.map (memberCost · + 1)).sum ≤ (fields.map (memberCost · + 1)).sum)
    (h : ((told.members fields).map (memberCost · + 1)).sum ≤ (told.texts.map (·.length + 1)).sum)
    : told.IsPlain := by
  have hmessage := Json.length_le_charCost told.message
  have hcontext := Json.length_le_charCost told.context
  have hlabel := Json.plain_iff_charCost.mp told.plain_label
  have hterms : ∀ e ∈ told.fields.entries,
      (memberText e.1 (quoted e.2)).length + 1 ≤ memberCost (e.1, .string e.2) + 1 := by
    intro e _
    exact Nat.succ_le_succ (length_fieldText_le e)
  have hle := List.sum_le_sum hterms
  -- every part costs at least its length, so the sums can only be equal part by part
  have hparts : charCost told.message ≤ told.message.length ∧ charCost told.context ≤ told.context.length
      ∧ (told.fields.entries.map fun e => memberCost (e.1, .string e.2) + 1).sum
        ≤ (told.fields.entries.map fun e => (memberText e.1 (quoted e.2)).length + 1).sum := by
    rw [sum_members, sum_texts] at h
    simp only [fieldMembers, fieldTexts, List.map_map, Function.comp_def] at h hfields
    refine ⟨?_, ?_, ?_⟩
    . split at h <;> split at h <;> omega
    . by_cases hempty : told.context.isEmpty = true
      . simp [List.isEmpty_iff.mp hempty, charCost]
      . rw [if_neg hempty, if_neg hempty] at h
        split at h <;> omega
    . by_cases hempty : told.fields.entries.isEmpty = true
      . simp [List.isEmpty_iff.mp hempty]
      . rw [if_neg hempty, if_neg hempty] at h
        split at h <;> omega
  have hentries := Json.eq_of_sum_map_le hterms hparts.2.2
  refine ⟨?_, ?_, ?_⟩
  . exact Json.plain_iff_charCost.mpr (Nat.le_antisymm hparts.1 hmessage)
  . exact Json.plain_iff_charCost.mpr (Nat.le_antisymm hparts.2.1 hcontext)
  . intro e he
    have hkey := Json.length_le_charCost e.1
    have hvalue := Json.length_le_charCost e.2
    have heq := hentries e he
    rw [Json.length_memberText, Json.length_quoted, Json.memberCost_string] at heq
    exact ⟨Json.plain_iff_charCost.mpr (by omega), Json.plain_iff_charCost.mpr (by omega)⟩

theorem IsPlain.reads_fields (h : told.IsPlain) (n : Nat)
    : List.Forall₂ (Reads (readMember (readValue (n + 1)))) told.fieldTexts told.fieldMembers := by
  rw [fieldTexts, fieldMembers, List.forall₂_map_left_iff, List.forall₂_map_right_iff, List.forall₂_same]
  intro e he
  exact Json.reads_member (h.fields e he).1 (Json.reads_quoted (h.fields e he).2 n)

theorem IsPlain.reads (h : told.IsPlain) (n : Nat)
    : List.Forall₂ (Reads (readMember (readValue (n + 2)))) told.texts (told.members told.fieldMembers) := by
  have hmessage : Plain (bytes "message") := by decide
  have hfields : Plain (bytes "fields") := by decide
  refine .cons (Json.reads_member hmessage (Json.reads_quoted h.message _)) ?_
  have hcontext := Json.reads_member told.plain_label (Json.reads_quoted h.context (n + 1))
  have hobject (hne : ¬told.fields.entries.isEmpty = true)
      : Reads (readMember (readValue (n + 2))) (memberText (bytes "fields") (objectText told.fieldTexts))
        (bytes "fields", .object told.fieldMembers) :=
    Json.reads_member hfields (Json.reads_object (h.reads_fields n) (by simpa [fieldTexts] using hne))
  split <;> split <;> simp [*]

theorem newline_notMem_memberText {key s : Bytes} (hkey : Plain key) (hs : Plain s)
    : newline ∉ memberText key (quoted s) :=
  Json.notMem_memberText (by decide) (by decide) (hkey.notMem rfl)
    (Json.notMem_quoted (by decide) (hs.notMem rfl))

theorem IsPlain.newline_notMem (h : told.IsPlain) : ∀ text ∈ told.texts, newline ∉ text := by
  have hmessage : Plain (bytes "message") := by decide
  have hfields : newline ∉ memberText (bytes "fields") (objectText told.fieldTexts) := by
    apply Json.notMem_memberText (by decide) (by decide) (by decide)
    apply Json.notMem_objectText (by decide) (by decide) (by decide)
    simp only [fieldTexts, List.forall_mem_map]
    intro e he
    exact newline_notMem_memberText (h.fields e he).1 (h.fields e he).2
  intro text htext
  rcases mem_texts_iff.mp htext with rfl | ⟨-, rfl⟩ | ⟨-, rfl⟩
  . exact newline_notMem_memberText hmessage h.message
  . exact newline_notMem_memberText told.plain_label h.context
  . exact hfields

/--
The members in front of what is told: they are read wherever they stand, are on one line and have other
names.
-/
structure Front (told : Told) where
  texts : List Bytes
  members : List (Bytes × Json)
  ne_nil : texts ≠ []
  reads : ∀ n, List.Forall₂ (Reads (readMember (readValue (n + 1)))) texts members
  newline_notMem : ∀ text ∈ texts, newline ∉ text
  names : ∀ key ∈ members.map (·.1), key ≠ bytes "message" ∧ key ≠ told.label ∧ key ≠ bytes "fields"

namespace Front

variable (front : told.Front)

def record : Bytes :=
  objectText (front.texts ++ told.texts)

/--
What a record tells is found behind the members in front of it.
-/
theorem get?_append (others : List (Bytes × Json))
    : get? (front.members ++ others) (bytes "message") = get? others (bytes "message")
      ∧ get? (front.members ++ others) told.label = get? others told.label
      ∧ get? (front.members ++ others) (bytes "fields") = get? others (bytes "fields") := by
  refine ⟨?_, ?_, ?_⟩
  . exact Json.get?_append_of_notMem others fun hmem => (front.names _ hmem).1 rfl
  . exact Json.get?_append_of_notMem others fun hmem => (front.names _ hmem).2.1 rfl
  . exact Json.get?_append_of_notMem others fun hmem => (front.names _ hmem).2.2 rfl

theorem newline_notMem_record (h : told.IsPlain) : newline ∉ front.record := by
  apply Json.notMem_objectText (by decide) (by decide) (by decide)
  intro text htext
  rcases List.mem_append.mp htext with htext | htext
  . exact front.newline_notMem text htext
  . exact h.newline_notMem text htext

theorem decode_record (h : told.IsPlain)
    : decode front.record = some (.object (front.members ++ told.members told.fieldMembers)) := by
  have hlength : front.record.length = (Json.itemsText (front.texts ++ told.texts)).length + 2 := by
    simp [record, objectText, bytes]
  apply Json.decode_of_reads
  rw [hlength]
  exact Json.reads_object (List.rel_append (front.reads _) (h.reads _)) (by simp [Told.texts])

theorem recovered_of_isPlain (h : told.IsPlain) : told.Recovered front.record := by
  have hmembers := get?_members told told.fieldMembers
  have hfront := front.get?_append (told.members told.fieldMembers)
  rw [hmembers.1, hmembers.2.1, hmembers.2.2] at hfront
  exact ⟨front.newline_notMem_record h, _, told.fieldMembers, front.decode_record h, hfront.1, hfront.2.1,
    hfront.2.2, get?_fieldMembers⟩

/--
The members that are found are as long as the text behind the first ones, so there is no room for an escape.
-/
theorem isPlain_of_recovered (h : told.Recovered front.record) : told.IsPlain := by
  obtain ⟨-, members, fields, hdecode, hmessage, hcontext, hfields, hlookup⟩ := h
  obtain ⟨others, heq, hsum⟩ :=
    Json.decode_objectText_append front.reads front.ne_nil (by simp [Told.texts]) hdecode
  obtain rfl : members = front.members ++ others := by simpa using heq
  have hfront := front.get?_append others
  rw [hfront.1] at hmessage
  rw [hfront.2.1] at hcontext
  rw [hfront.2.2] at hfields
  have hfound : ∀ m ∈ told.members fields, get? others m.1 = some m.2 := by
    intro m hm
    rcases mem_members_iff.mp hm with rfl | ⟨hne, rfl⟩ | ⟨hne, rfl⟩
    . exact hmessage
    . rwa [if_neg hne] at hcontext
    . rwa [if_neg hne] at hfields
  have hfieldMembers : ∀ m ∈ told.fieldMembers, get? fields m.1 = some m.2 := by
    simp only [fieldMembers, List.forall_mem_map]
    intro e he
    rw [hlookup, told.fields.mem_entries_iff.mp he]
    rfl
  exact isPlain_of_sum_le (Json.sum_memberCost_le nodup_fieldMembers hfieldMembers)
    ((Json.sum_memberCost_le (told.nodup_members fields) hfound).trans hsum)

theorem recovered_iff : told.Recovered front.record ↔ told.IsPlain :=
  ⟨front.isPlain_of_recovered, front.recovered_of_isPlain⟩

end Front
end Told
end SimpleRsyncd
