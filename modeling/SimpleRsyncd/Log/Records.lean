import SimpleRsyncd.Log.RSyncError
import SimpleRsyncd.Log.Told

/-!
This module contains what a JSON parser makes of the records of the logger and of the errors. Both are put
together by hand, and neither escapes anything.
-/

namespace SimpleRsyncd

open Json (Plain Reads quoted memberText objectText readMember readValue)

/--
The bytes that `std::put_time` makes a date and a time of day of.
-/
def IsClock (s : Bytes) : Prop :=
  ∀ c ∈ s, Bytes.isDigit c = true ∨ c ∈ bytes "-: "

instance (s : Bytes) : Decidable (IsClock s) :=
  inferInstanceAs (Decidable (∀ c ∈ s, Bytes.isDigit c = true ∨ c ∈ bytes "-: "))

theorem IsClock.plain {s : Bytes} (h : IsClock s) : Plain s := by
  intro c hc
  rcases h c hc with hdigit | hmem
  . have hrange := Bytes.isDigit_iff.mp hdigit
    have hle : 32 ≤ c := UInt8.le_trans (by decide) hrange.1
    have hquote : c ≠ 34 := by
      rintro rfl
      exact absurd hrange.1 (by decide)
    have hbackslash : c ≠ 92 := by
      rintro rfl
      exact absurd hrange.2 (by decide)
    simp [Json.isPlain, hle, hquote, hbackslash]
  . have hcases : c = 45 ∨ c = 58 ∨ c = 32 := by simpa [bytes] using hmem
    rcases hcases with rfl | rfl | rfl <;> rfl

/--
A member that is written with texts that need no escapes.
-/
theorem reads_plain {key s : Bytes} (hkey : Plain key) (hs : Plain s) (n : Nat)
    : Reads (readMember (readValue (n + 1))) (memberText key (quoted s)) (key, .string s) :=
  Json.reads_member hkey (Json.reads_quoted hs n)

theorem LogLevel.plain_text (level : LogLevel) : Plain level.text := by
  cases level <;> decide

theorem ErrorCode.plain_getErrorCodeString (code : ErrorCode) : Plain code.getErrorCodeString := by
  cases code <;> decide +kernel

theorem ErrorCategory.plain_getCategoryString (category : ErrorCategory) : Plain category.getCategoryString := by
  cases category <;> decide

theorem ErrorCode.isNumber_toNat (code : ErrorCode)
    : Json.isNumber (Bytes.ofNat code.toNat) = true := by
  cases code <;> decide

namespace LogEntry

variable (entry : LogEntry)

def told : Told where
  message := entry.message
  label := bytes "component"
  context := entry.component
  fields := entry.fields
  plain_label := by decide
  label_ne_message := by decide
  label_ne_fields := by decide

variable {entry}

def front (h : IsClock entry.timestamp) : entry.told.Front where
  texts :=
    [
      memberText (bytes "timestamp") (quoted entry.timestamp),
      memberText (bytes "level") (quoted entry.level.text)
    ]
  members := [(bytes "timestamp", .string entry.timestamp), (bytes "level", .string entry.level.text)]
  ne_nil := by simp
  reads n := .cons (reads_plain (by decide) h.plain n) (.cons (reads_plain (by decide) entry.level.plain_text n) .nil)
  newline_notMem := by
    simp only [List.forall_mem_cons, List.not_mem_nil, false_imp_iff, implies_true, and_true]
    exact ⟨Told.newline_notMem_memberText (by decide) h.plain,
      Told.newline_notMem_memberText (by decide) entry.level.plain_text⟩
  names := by
    show ∀ key ∈ [bytes "timestamp", bytes "level"],
      key ≠ bytes "message" ∧ key ≠ bytes "component" ∧ key ≠ bytes "fields"
    decide

theorem toJSON_eq_record (h : IsClock entry.timestamp) : entry.toJSON = (front h).record := by
  rw [Told.Front.record, objectText, Json.itemsText_append _ (by simp [Told.texts]), Told.itemsText_texts]
  simp [toJSON, quote, quoted, memberText, front, told, Told.fieldTexts, objectText, Json.itemsText, bytes, comma]

end LogEntry

namespace RSyncError

variable (error : RSyncError)

def told : Told where
  message := error.message
  label := bytes "context"
  context := error.context
  fields := error.fields
  plain_label := by decide
  label_ne_message := by decide
  label_ne_fields := by decide

variable {error}

theorem reads_code (code : ErrorCode) (n : Nat)
    : Reads (readMember (readValue (n + 1))) (memberText (bytes "code") (Bytes.ofNat code.toNat))
      (bytes "code", .number (Bytes.ofNat code.toNat)) := by
  apply Json.reads_member (by decide)
  apply Json.reads_number code.isNumber_toNat
  intro c hc
  simp [Json.isNumberByte, Bytes.isDigit_of_mem_ofNat hc]

def front (h : IsClock error.timestamp) : error.told.Front where
  texts :=
    [
      memberText (bytes "timestamp") (quoted error.timestamp),
      memberText (bytes "code") (Bytes.ofNat error.code.toNat),
      memberText (bytes "code_string") (quoted error.code.getErrorCodeString),
      memberText (bytes "category") (quoted error.category.getCategoryString)
    ]
  members :=
    [
      (bytes "timestamp", .string error.timestamp),
      (bytes "code", .number (Bytes.ofNat error.code.toNat)),
      (bytes "code_string", .string error.code.getErrorCodeString),
      (bytes "category", .string error.category.getCategoryString)
    ]
  ne_nil := by simp
  reads n :=
    .cons (reads_plain (by decide) h.plain n)
      (.cons (reads_code error.code n)
        (.cons (reads_plain (by decide) error.code.plain_getErrorCodeString n)
          (.cons (reads_plain (by decide) error.category.plain_getCategoryString n) .nil)))
  newline_notMem := by
    have hcode : newline ∉ Bytes.ofNat error.code.toNat := by
      intro hmem
      exact absurd (Bytes.isDigit_of_mem_ofNat hmem) (by decide)
    simp only [List.forall_mem_cons, List.not_mem_nil, false_imp_iff, implies_true, and_true]
    exact ⟨Told.newline_notMem_memberText (by decide) h.plain,
      Json.notMem_memberText (by decide) (by decide) (by decide) hcode,
      Told.newline_notMem_memberText (by decide) error.code.plain_getErrorCodeString,
      Told.newline_notMem_memberText (by decide) error.category.plain_getCategoryString⟩
  names := by
    show ∀ key ∈ [bytes "timestamp", bytes "code", bytes "code_string", bytes "category"],
      key ≠ bytes "message" ∧ key ≠ bytes "context" ∧ key ≠ bytes "fields"
    decide

theorem toJSON_eq_record (h : IsClock error.timestamp) : error.toJSON = (front h).record := by
  rw [Told.Front.record, objectText, Json.itemsText_append _ (by simp [Told.texts]), Told.itemsText_texts]
  -- not by its equation, which takes seconds to be proved
  delta toJSON
  simp [LogEntry.quote, quoted, memberText, front, told, Told.fieldTexts, objectText, Json.itemsText, bytes, comma]

end RSyncError

/--
A record of the logger or of an error gives back what was put into it just if nothing in it has to be escaped.
-/
theorem toJSON_recovered_iff (entry : LogEntry) (error : RSyncError) (hentry : IsClock entry.timestamp)
    (herror : IsClock error.timestamp)
    : (entry.told.Recovered entry.toJSON ↔ entry.told.IsPlain)
      ∧ (error.told.Recovered error.toJSON ↔ error.told.IsPlain) := by
  rw [LogEntry.toJSON_eq_record hentry, RSyncError.toJSON_eq_record herror]
  exact ⟨(LogEntry.front hentry).recovered_iff, (RSyncError.front herror).recovered_iff⟩

theorem toJSON_recovered_timeout
    : let entry : LogEntry :=
      {
        timestamp := bytes "2024-05-01 12:00:00"
        level := .warn
        message := bytes "client timed out"
        component := bytes "network"
        fields := OrderedMap.empty.insert (bytes "client") (bytes "10.0.0.7")
      }
    let error : RSyncError :=
      {
        code := .networkTimeout
        category := .network
        message := bytes "client timed out"
        timestamp := bytes "2024-05-01 12:00:00"
      }
    entry.told.Recovered entry.toJSON ∧ error.told.Recovered error.toJSON := by
  intro entry error
  have hiff := toJSON_recovered_iff entry error (by decide) (by decide)
  exact ⟨hiff.1.mpr ⟨by decide, by decide, by decide⟩, hiff.2.mpr ⟨by decide, by decide, by decide⟩⟩

/--
A quotation mark ends the message, and what comes after it is read as members of the record. A line break ends
the record.
-/
theorem toJSON_forged
    : let entry : LogEntry :=
      {
        timestamp := bytes "2024-05-01 12:00:00"
        level := .warn
        message := bytes "denied\",\"message\":\"granted"
      }
    let error : RSyncError :=
      {
        code := .authFailed
        message := bytes "denied\ngranted"
        timestamp := bytes "2024-05-01 12:00:00"
      }
    ¬entry.told.Recovered entry.toJSON ∧ ¬error.told.Recovered error.toJSON := by
  intro entry error
  refine ⟨?_, ?_⟩
  . have hclock : IsClock entry.timestamp := by decide
    rw [LogEntry.toJSON_eq_record hclock, Told.Front.recovered_iff]
    intro hplain
    exact absurd hplain.message (by decide)
  . have hclock : IsClock error.timestamp := by decide
    rw [RSyncError.toJSON_eq_record hclock, Told.Front.recovered_iff]
    intro hplain
    exact absurd hplain.message (by decide)

end SimpleRsyncd
