import SimpleRsyncd.Bytes.Text

/-!
This module determines which words are read of a line that has been put together from words.
-/

namespace SimpleRsyncd
namespace Bytes

/--
A text that is read as a single word.
-/
def IsWord (s : Bytes) : Prop :=
  s ≠ [] ∧ ∀ c ∈ s, isspace c = false

/--
The bytes that separate words within a line.
-/
def isGap (c : UInt8) : Bool :=
  c == 32 || c == 9 || c == 13

/--
The line consists of the words, with something between each of them and the next one.
-/
inductive Joined : List Bytes → Bytes → Prop where
  | single (word : Bytes) : Joined [word] word
  | cons (word : Bytes) {gap line : Bytes} {words : List Bytes} (hne : gap ≠ []) (hgap : ∀ c ∈ gap, isGap c = true)
    (h : Joined words line) : Joined (word :: words) (word ++ (gap ++ line))

instance (s : Bytes) : Decidable (IsWord s) :=
  inferInstanceAs (Decidable (_ ∧ _))

theorem isspace_of_isGap {c : UInt8} (h : isGap c = true) : isspace c = true := by
  simp only [isGap, Bool.or_eq_true, beq_iff_eq] at h
  rcases h with (rfl | rfl) | rfl <;> decide

theorem ne_newline_of_isGap {c : UInt8} (h : isGap c = true) : c ≠ newline := by
  rintro rfl
  exact absurd h (by decide)

theorem words_of_isWord {w : Bytes} (h : IsWord w) : words w = [w] := by
  rw [words, List.splitOnP_eq_singleton h.2]
  simp [h.1]

theorem words_append_cons {w : Bytes} (h : IsWord w) {c : UInt8} (hc : isspace c = true) (s : Bytes)
    : words (w ++ c :: s) = w :: words s := by
  rw [words, List.splitOnP_append_cons_of_forall_mem h.2 c hc, List.filter_cons_of_pos (by simpa using h.1)]
  rfl

theorem words_gap {gap : Bytes} (hgap : ∀ c ∈ gap, isspace c = true) (s : Bytes) : words (gap ++ s) = words s := by
  induction gap with
  | nil => rfl
  | cons c gap ih =>
    have hnone : ∀ c ∈ ([] : Bytes), isspace c = false := by simp
    have hsplit : (c :: (gap ++ s)).splitOnP isspace = [] :: (gap ++ s).splitOnP isspace :=
      List.splitOnP_append_cons_of_forall_mem hnone c (hgap c List.mem_cons_self) (gap ++ s)
    rw [List.cons_append, words, hsplit, ← ih fun c hc => hgap c (List.mem_cons_of_mem _ hc)]
    rfl

namespace Joined

variable {ws : List Bytes} {line : Bytes}

theorem words_eq (h : Joined ws line) (hwords : ∀ w ∈ ws, IsWord w) : words line = ws := by
  induction h with
  | single word => exact words_of_isWord (hwords word List.mem_cons_self)
  | @cons word gap line ws hne hgap h ih =>
    have hspace := fun c hc => isspace_of_isGap (hgap c hc)
    obtain ⟨c, gap, rfl⟩ := List.exists_cons_of_ne_nil hne
    rw [List.cons_append, words_append_cons (hwords word List.mem_cons_self) (hspace c List.mem_cons_self),
      words_gap fun c hc => hspace c (List.mem_cons_of_mem _ hc), ih fun w hw => hwords w (List.mem_cons_of_mem _ hw)]

theorem newline_notMem (h : Joined ws line) (hwords : ∀ w ∈ ws, IsWord w) : newline ∉ line := by
  have hword : ∀ w, IsWord w → newline ∉ w := fun w hw hmem => absurd (hw.2 newline hmem) (by decide)
  induction h with
  | single word => exact hword word (hwords word List.mem_cons_self)
  | cons word hne hgap h ih =>
    simp only [List.mem_append, not_or]
    exact ⟨hword word (hwords word List.mem_cons_self), fun hmem => ne_newline_of_isGap (hgap _ hmem) rfl,
      ih fun w hw => hwords w (List.mem_cons_of_mem _ hw)⟩

theorem head?_eq {w : Bytes} (h : Joined (w :: ws) line) (hw : w ≠ []) : line.head? = w.head? := by
  cases h with
  | single => rfl
  | cons => exact List.head?_append_of_ne_nil _ hw

end Joined

/--
The first line of a text, if it is not empty.
-/
theorem getline_append {line after : Bytes} (hne : line ≠ []) (hline : newline ∉ line)
    (hafter : ∀ c ∈ after.head?, c = newline)
    : getline (line ++ after) = some (line, after.tail) := by
  have hall : ∀ c ∈ line, decide (c ≠ 10) = true := by
    intro c hc
    rw [decide_eq_true_eq]
    rintro rfl
    exact hline hc
  have hstop : after.takeWhile (· ≠ 10) = [] ∧ after.dropWhile (· ≠ 10) = after := by
    cases after with
    | nil => exact ⟨rfl, rfl⟩
    | cons c after =>
      obtain rfl : c = newline := hafter c rfl
      exact ⟨rfl, rfl⟩
  rw [getline, if_neg (by simp [hne]), List.takeWhile_append_of_pos hall, List.dropWhile_append_of_pos hall, hstop.1,
    hstop.2, List.append_nil]

end Bytes
end SimpleRsyncd
