import SimpleRsyncd.Config.Environment

/-!
This module determines what `substituteEnvironmentVariables` makes of a value. Its second loop also finds what the
first loop has put in, so this is not always what the references in the value stand for.
-/

namespace SimpleRsyncd
namespace Configuration

/--
What a value consists of: bytes that stand for themselves, `${reference}` and `$name`.
-/
inductive Piece where
  | byte (c : UInt8)
  | braced (reference : Bytes)
  | plain (name : Bytes)

/--
The pieces from left to right. Without `braces` only `$name` is a reference.
-/
def pieces (braces : Bool) (s : Bytes) : List Piece :=
  match s with
  | [] => []
  | 36 :: 123 :: s =>
    match _hcut : if braces then Bytes.cut 125 s else none with
    | some (reference, after) => .braced reference :: pieces braces after
    | none => .byte 36 :: .byte 123 :: pieces braces s
  | 36 :: s =>
    if s.takeWhile isNameChar = [] then
      .byte 36 :: pieces braces s
    else
      .plain (s.takeWhile isNameChar) :: pieces braces (s.dropWhile isNameChar)
  | c :: s => .byte c :: pieces braces s
termination_by s.length
decreasing_by
  . cases braces with
    | false => contradiction
    | true =>
      obtain ⟨-, rfl⟩ := Bytes.cut_eq_some_iff.mp _hcut
      simp only [List.length_append, List.length_cons]
      omega
  . simp only [List.length_cons]
    omega
  . simp
  . simp
    have := List.length_dropWhile_le isNameChar s
    omega
  . simp

section pieces

variable {braces : Bool} {s : Bytes}

theorem pieces_nil : pieces braces [] = [] := by
  rw [pieces]

theorem pieces_braced {reference after : Bytes} (h : 125 ∉ reference)
    : pieces true (36 :: 123 :: (reference ++ 125 :: after)) = .braced reference :: pieces true after := by
  rw [pieces]
  have hcut := Bytes.cut_append (b := after) h
  split
  . next heq =>
    rw [if_pos rfl, hcut] at heq
    obtain ⟨rfl, rfl⟩ := Prod.mk.inj (Option.some.inj heq)
    rfl
  . next heq =>
    rw [if_pos rfl, hcut] at heq
    contradiction

theorem pieces_open (h : braces = true → 125 ∉ s)
    : pieces braces (36 :: 123 :: s) = .byte 36 :: .byte 123 :: pieces braces s := by
  rw [pieces]
  split
  . next heq =>
    cases braces with
    | false => contradiction
    | true => simp [Bytes.cut_eq_none (h rfl)] at heq
  . rfl

theorem pieces_dollar (h : ∀ c ∈ s.head?, c ≠ 123 ∧ isNameChar c = false)
    : pieces braces (36 :: s) = .byte 36 :: pieces braces s := by
  have htake : s.takeWhile isNameChar = [] := by
    cases s with
    | nil => rfl
    | cons c s => simp [(h c rfl).2]
  rw [pieces, if_pos htake]
  rintro s' rfl
  exact absurd rfl (h 123 rfl).1

theorem pieces_plain {name : Bytes} (hne : name ≠ []) (hname : ∀ c ∈ name, isNameChar c = true)
    (hs : ∀ c ∈ s.head?, isNameChar c = false)
    : pieces braces (36 :: (name ++ s)) = .plain name :: pieces braces s := by
  have hstop : s.takeWhile isNameChar = [] ∧ s.dropWhile isNameChar = s := by
    cases s with
    | nil => exact ⟨rfl, rfl⟩
    | cons c s => simp [hs c rfl]
  have htake : (name ++ s).takeWhile isNameChar = name := by
    rw [List.takeWhile_append_of_pos hname, hstop.1, List.append_nil]
  have hdrop : (name ++ s).dropWhile isNameChar = s := by
    rw [List.dropWhile_append_of_pos hname, hstop.2]
  rw [pieces, htake, hdrop, if_neg hne]
  intro s' heq
  cases name with
  | nil => contradiction
  | cons c name =>
    obtain rfl := (List.cons.inj heq).1
    exact absurd (hname 123 List.mem_cons_self) (by decide)

theorem pieces_byte {c : UInt8} (h : c ≠ 36) : pieces braces (c :: s) = .byte c :: pieces braces s := by
  rw [pieces]
  . rintro s' rfl
    contradiction
  . exact h

/--
An induction along the pieces of a text.
-/
theorem pieces_induction (braces : Bool) {motive : Bytes → Prop} (nil : motive [])
    (braced : ∀ reference after, braces = true → 125 ∉ reference → motive after →
      motive (36 :: 123 :: (reference ++ 125 :: after)))
    («open» : ∀ s, (braces = true → 125 ∉ s) → motive s → motive (36 :: 123 :: s))
    (dollar : ∀ s, (∀ c ∈ s.head?, c ≠ 123 ∧ isNameChar c = false) → motive s → motive (36 :: s))
    (plain : ∀ name s, name ≠ [] → (∀ c ∈ name, isNameChar c = true) → (∀ c ∈ s.head?, isNameChar c = false) →
      motive s → motive (36 :: (name ++ s)))
    (byte : ∀ c s, c ≠ 36 → motive s → motive (c :: s)) (s : Bytes)
    : motive s := by
  induction hlength : s.length using Nat.strong_induction_on generalizing s with
  | _ n ih =>
    subst hlength
    have hshorter : ∀ t : Bytes, t.length < s.length → motive t := fun t ht => ih t.length ht t rfl
    cases s with
    | nil => exact nil
    | cons c s =>
      by_cases hc : c = 36
      . subst hc
        by_cases hstop : ∀ c ∈ s.head?, c ≠ 123 ∧ isNameChar c = false
        . exact dollar s hstop (hshorter s (by simp))
        . obtain ⟨d, t, rfl⟩ : ∃ d t, s = d :: t := by
            cases s with
            | nil => simp at hstop
            | cons d t => exact ⟨d, t, rfl⟩
          by_cases hopen : d = 123
          . subst hopen
            by_cases hend : braces = true ∧ 125 ∈ t
            . obtain ⟨reference, after, rfl, hreference⟩ := List.eq_append_cons_of_mem hend.2
              exact braced reference after hend.1 hreference (hshorter after (by simp; omega))
            . exact «open» t (fun hbraces hmem => hend ⟨hbraces, hmem⟩) (hshorter t (by simp only [List.length_cons]; omega))
          . have hname : isNameChar d = true := by simpa [hopen] using hstop
            have hparts : (d :: t).takeWhile isNameChar ++ (d :: t).dropWhile isNameChar = d :: t :=
              List.takeWhile_append_dropWhile
            rw [← hparts]
            have hle := List.length_dropWhile_le isNameChar (d :: t)
            exact plain _ _ (by simp [hname]) (fun c => List.mem_takeWhile_imp) Bytes.head?_dropWhile
              (hshorter _ (by simp at hle ⊢; omega))
      . exact byte c s hc (hshorter s (by simp))

end pieces

variable (getenv : Bytes → Option Bytes)

/--
What `${reference}` stands for, `none` if there is neither a variable nor a default.
-/
def bracedValue (reference : Bytes) : Option Bytes :=
  let (varName, defaultValue) := (Bytes.cut colon reference).getD (reference, [])
  match getVariable getenv varName with
  | some envValue => some envValue
  | none => if defaultValue.isEmpty then none else some defaultValue

namespace Piece

def text : Piece → Bytes
  | byte c => [c]
  | braced reference => 36 :: 123 :: (reference ++ [125])
  | plain name => 36 :: name

/--
What a piece stands for, a reference to nothing stands for itself.
-/
def value : Piece → Bytes
  | byte c => [c]
  | braced reference => (bracedValue getenv reference).getD (braced reference).text
  | plain name => (getVariable getenv name).getD (plain name).text

/--
What the first loop makes of a piece.
-/
def opened : Piece → Bytes
  | braced reference => (braced reference).value getenv
  | piece => piece.text

end Piece

/--
Nothing of a text is lost.
-/
theorem text_pieces (braces : Bool) (s : Bytes) : (pieces braces s).flatMap Piece.text = s := by
  induction s using pieces_induction braces with
  | nil => simp [pieces_nil]
  | braced reference after hbraces hreference ih =>
    subst hbraces
    rw [pieces_braced hreference, List.flatMap_cons, ih]
    simp [Piece.text]
  | «open» s hopen ih =>
    rw [pieces_open hopen, List.flatMap_cons, List.flatMap_cons, ih]
    rfl
  | dollar s hs ih =>
    rw [pieces_dollar hs, List.flatMap_cons, ih]
    rfl
  | plain name s hne hname hs ih =>
    rw [pieces_plain hne hname hs, List.flatMap_cons, ih]
    rfl
  | byte c s hc ih =>
    rw [pieces_byte hc, List.flatMap_cons, ih]
    rfl

/--
Every reference in a value replaced by what it stands for.
-/
def simultaneous (s : Bytes) : Bytes :=
  (pieces true s).flatMap (Piece.value getenv)

section loops

variable {getenv} {needle done s u : Bytes}

theorem findFrom_append : Bytes.findFrom needle (done ++ s) done.length = (Bytes.find needle s).map (done.length + ·) := by
  rw [Bytes.findFrom, List.drop_left]

theorem find_skip (h : ∀ i < u.length, ¬needle <+: u.drop i ++ s)
    : Bytes.findFrom needle (done ++ (u ++ s)) done.length
      = Bytes.findFrom needle ((done ++ u) ++ s) (done ++ u).length := by
  rw [findFrom_append, findFrom_append, Bytes.find_append_of_notInfix h, Option.map_map, List.length_append]
  congr 1
  funext n
  exact (Nat.add_assoc _ _ _).symm

theorem substituteBraced_skip (h : ∀ i < u.length, ¬bytes "$\x7b" <+: u.drop i ++ s) (left : Nat)
    : substituteBraced getenv left (done ++ (u ++ s)) done.length
      = substituteBraced getenv left ((done ++ u) ++ s) (done ++ u).length := by
  cases left with
  | zero => simp [substituteBraced]
  | succ left => rw [substituteBraced, substituteBraced, find_skip h, List.append_assoc]

/--
Without a closing brace there are no references with braces.
-/
theorem opened_of_notMem (h : 125 ∉ s) : (pieces true s).flatMap (Piece.opened getenv) = s := by
  have hopened : ∀ piece ∈ pieces true s, Piece.opened getenv piece = piece.text := by
    rintro (c | reference | name) hmem
    . rfl
    . refine absurd ?_ h
      rw [← text_pieces true s]
      exact List.mem_flatMap_of_mem hmem (by simp [Piece.text])
    . rfl
  rw [List.flatMap_congr hopened, text_pieces]

theorem not_open_prefix {c : UInt8} (h : c = 36 → ∀ d ∈ s.head?, d ≠ 123) : ¬bytes "$\x7b" <+: c :: s := by
  have hopen : bytes "$\x7b" = [36, 123] := rfl
  rw [hopen, List.cons_prefix_cons]
  rintro ⟨rfl, rest, rfl⟩
  exact h rfl 123 rfl rfl

theorem findFrom_done (hne : needle ≠ []) : Bytes.findFrom needle done done.length = none := by
  rw [Bytes.findFrom, List.drop_length, Option.map_eq_none_iff, Bytes.find_eq_none_iff, List.infix_nil]
  exact hne

theorem findFrom_open : Bytes.findFrom (bytes "$\x7b") (done ++ 36 :: 123 :: s) done.length = some done.length := by
  have hopen : bytes "$\x7b" <+: 36 :: 123 :: s := List.prefix_append [36, 123] s
  rw [findFrom_append, Bytes.find_eq_zero hopen]
  rfl

theorem findFrom_close
    : Bytes.findFrom (bytes "\x7d") (done ++ 36 :: 123 :: s) (done.length + 2)
      = (Bytes.find [125] s).map ((done.length + 2) + ·) := by
  have hdrop : (done ++ 36 :: 123 :: s).drop (done.length + 2) = s := by
    rw [← List.drop_drop, List.drop_left]
    rfl
  rw [Bytes.findFrom, hdrop]
  rfl

theorem substituteBraced_succ (left : Nat) (result : Bytes) (startPos : Nat)
    : substituteBraced getenv (left + 1) result startPos
      = match Bytes.findFrom (bytes "$\x7b") result startPos with
        | none => result
        | some startPos =>
          match Bytes.findFrom (bytes "\x7d") result (startPos + 2) with
          | none => result
          | some endPos =>
            match bracedValue getenv (Bytes.slice result (startPos + 2) endPos) with
            | some varValue =>
              substituteBraced getenv left (Bytes.replace result startPos (endPos + 1) varValue)
                (startPos + varValue.length)
            | none => substituteBraced getenv left result (endPos + 1) := rfl

theorem substituteBraced_done (left : Nat) : substituteBraced getenv left done done.length = done := by
  cases left with
  | zero => rfl
  | succ left => rw [substituteBraced_succ, findFrom_done (by decide)]

theorem substituteBraced_open (h : 125 ∉ s) (left : Nat)
    : substituteBraced getenv left (done ++ 36 :: 123 :: s) done.length = done ++ 36 :: 123 :: s := by
  cases left with
  | zero => rfl
  | succ left =>
    have hclose : Bytes.find [125] s = none := Bytes.find_singleton_eq_none_iff.mpr h
    rw [substituteBraced_succ, findFrom_open]
    simp only
    rw [findFrom_close, hclose]
    rfl

theorem substituteBraced_reference {reference after : Bytes} (h : 125 ∉ reference) (left : Nat)
    : substituteBraced getenv (left + 1) (done ++ 36 :: 123 :: (reference ++ 125 :: after)) done.length
      = substituteBraced getenv left ((done ++ (Piece.braced reference).value getenv) ++ after)
        (done ++ (Piece.braced reference).value getenv).length := by
  have hclose : Bytes.find [125] (reference ++ 125 :: after) = some reference.length :=
    Bytes.find_singleton_append after h
  have hafter : (done ++ 36 :: 123 :: (reference ++ 125 :: after)).drop (done.length + 2) = reference ++ 125 :: after := by
    rw [← List.drop_drop, List.drop_left]
    rfl
  have hslice : Bytes.slice (done ++ 36 :: 123 :: (reference ++ 125 :: after)) (done.length + 2)
      (done.length + 2 + reference.length) = reference := by
    rw [Bytes.slice, hafter, Nat.add_sub_cancel_left, List.take_left]
  rw [substituteBraced_succ, findFrom_open]
  simp only
  rw [findFrom_close, hclose]
  simp only [Option.map_some]
  rw [hslice, Piece.value]
  cases bracedValue getenv reference with
  | none => simp [Piece.text, Nat.add_comm, Nat.add_left_comm]
  | some varValue =>
    have hreplace : Bytes.replace (done ++ 36 :: 123 :: (reference ++ 125 :: after)) done.length
        (done.length + 2 + reference.length + 1) varValue = done ++ varValue ++ after := by
      rw [Bytes.replace, List.take_left, show done.length + 2 + reference.length + 1
        = done.length + 2 + (reference.length + 1) from rfl, ← List.drop_drop, hafter, ← List.drop_drop, List.drop_left]
      rfl
    simp only
    rw [hreplace, List.length_append]
    rfl

/--
The first loop replaces the references with braces.
-/
theorem substituteBraced_eq (getenv : Bytes → Option Bytes) (s : Bytes)
    : ∀ left done, s.length ≤ left →
        substituteBraced getenv left (done ++ s) done.length
          = done ++ (pieces true s).flatMap (Piece.opened getenv) := by
  induction s using pieces_induction true with
  | nil =>
    intro left done _
    rw [List.append_nil, substituteBraced_done, pieces_nil, List.flatMap_nil, List.append_nil]
  | braced reference after _ hreference ih =>
    intro left done hleft
    obtain ⟨left, rfl⟩ : ∃ l, left = l + 1 := ⟨left - 1, by simp at hleft; omega⟩
    rw [substituteBraced_reference hreference, ih _ _ (by simp at hleft; omega), pieces_braced hreference,
      List.flatMap_cons, List.append_assoc]
    rfl
  | «open» s hopen ih =>
    intro left done _
    rw [substituteBraced_open (hopen rfl), opened_of_notMem (by simpa using hopen rfl)]
  | dollar s hs ih =>
    intro left done hleft
    have hskip : ∀ i < [36].length, ¬bytes "$\x7b" <+: [36].drop i ++ s := by
      intro i hi
      obtain rfl : i = 0 := by simpa using hi
      exact not_open_prefix fun _ d hd => (hs d hd).1
    rw [← List.singleton_append, substituteBraced_skip hskip, ih _ _ (by simp at hleft; omega), List.singleton_append,
      pieces_dollar hs, List.flatMap_cons, List.append_assoc]
    rfl
  | plain name s hne hname hs ih =>
    intro left done hleft
    have hskip : ∀ i < (36 :: name).length, ¬bytes "$\x7b" <+: (36 :: name).drop i ++ s := by
      intro i hi
      cases i with
      | zero =>
        refine not_open_prefix fun _ d hd => ?_
        rintro rfl
        cases name with
        | nil => contradiction
        | cons c name =>
          obtain rfl := Option.some.inj hd
          exact absurd (hname 123 List.mem_cons_self) (by decide)
      | succ i =>
        exact Bytes.not_prefix_drop_append _ _ (fun hmem => absurd (hname 36 hmem) (by decide)) i (by simpa using hi)
    rw [← List.cons_append, substituteBraced_skip hskip, ih _ _ (by simp at hleft; omega), List.cons_append,
      pieces_plain hne hname hs, List.flatMap_cons, List.append_assoc]
    rfl
  | byte c s hc ih =>
    intro left done hleft
    have hskip : ∀ i < [c].length, ¬bytes "$\x7b" <+: [c].drop i ++ s := by
      intro i hi
      obtain rfl : i = 0 := by simpa using hi
      exact not_open_prefix fun h => absurd h hc
    rw [← List.singleton_append, substituteBraced_skip hskip, ih _ _ (by simp at hleft; omega), List.singleton_append,
      pieces_byte hc, List.flatMap_cons, List.append_assoc]
    rfl

theorem findFrom_dollar : Bytes.findFrom (bytes "$") (done ++ 36 :: s) done.length = some done.length := by
  have hdollar : bytes "$" <+: 36 :: s := List.prefix_append [36] s
  rw [findFrom_append, Bytes.find_eq_zero hdollar]
  rfl

theorem substitutePlain_done (left : Nat) : substitutePlain getenv left done done.length = done := by
  cases left with
  | zero => rfl
  | succ left => rw [substitutePlain, findFrom_done (by decide)]

theorem substitutePlain_skip (h : 36 ∉ u) (left : Nat)
    : substitutePlain getenv left (done ++ (u ++ s)) done.length
      = substitutePlain getenv left ((done ++ u) ++ s) (done ++ u).length := by
  cases left with
  | zero => simp [substitutePlain]
  | succ left =>
    have hskip : ∀ i < u.length, ¬bytes "$" <+: u.drop i ++ s :=
      Bytes.not_prefix_drop_append [] _ h
    rw [substitutePlain, substitutePlain, find_skip hskip, List.append_assoc]

theorem substitutePlain_open (left : Nat)
    : substitutePlain getenv (left + 1) (done ++ 36 :: 123 :: s) done.length
      = substitutePlain getenv left ((done ++ [36, 123]) ++ s) (done ++ [36, 123]).length := by
  rw [substitutePlain, findFrom_dollar]
  simp

theorem substitutePlain_dollar (h : ∀ c ∈ s.head?, c ≠ 123 ∧ isNameChar c = false) (left : Nat)
    : substitutePlain getenv (left + 1) (done ++ 36 :: s) done.length
      = substitutePlain getenv left ((done ++ [36]) ++ s) (done ++ [36]).length := by
  cases s with
  | nil =>
    rw [List.append_nil, substitutePlain_done, substitutePlain, findFrom_dollar]
    simp
  | cons c s =>
    obtain ⟨hopen, hname⟩ := h c rfl
    rw [substitutePlain, findFrom_dollar]
    simp [hopen, hname]

theorem substitutePlain_name {name : Bytes} (hne : name ≠ []) (hname : ∀ c ∈ name, isNameChar c = true)
    (hs : ∀ c ∈ s.head?, isNameChar c = false) (left : Nat)
    : substitutePlain getenv (left + 1) (done ++ 36 :: (name ++ s)) done.length
      = substitutePlain getenv left ((done ++ (Piece.plain name).value getenv) ++ s)
        (done ++ (Piece.plain name).value getenv).length := by
  have hstop : s.takeWhile isNameChar = [] := by
    cases s with
    | nil => rfl
    | cons c s => simp [hs c rfl]
  have hafter : (done ++ 36 :: (name ++ s)).drop (done.length + 1) = name ++ s := by
    rw [← List.drop_drop, List.drop_left]
    rfl
  have htake : (name ++ s).takeWhile isNameChar = name := by
    rw [List.takeWhile_append_of_pos hname, hstop, List.append_nil]
  have hlength : ¬done.length + 1 ≥ (done ++ 36 :: (name ++ s)).length := by
    have := List.length_pos_of_ne_nil hne
    rw [List.length_append, List.length_cons, List.length_append]
    omega
  have hopen : (done ++ 36 :: (name ++ s))[done.length + 1]? ≠ some 123 := by
    cases name with
    | nil => contradiction
    | cons c name =>
      have hc : c ≠ 123 := by
        rintro rfl
        exact absurd (hname 123 List.mem_cons_self) (by decide)
      simp [hc]
  have hgt : done.length + 1 + name.length > done.length + 1 := by
    have := List.length_pos_of_ne_nil hne
    omega
  rw [substitutePlain, findFrom_dollar]
  simp only
  rw [if_neg hlength, if_neg hopen, hafter, htake, if_pos hgt, Piece.value]
  cases getVariable getenv name with
  | none => simp [Piece.text, Nat.add_comm, Nat.add_left_comm]
  | some envValue =>
    have hreplace : Bytes.replace (done ++ 36 :: (name ++ s)) done.length (done.length + 1 + name.length) envValue
        = done ++ envValue ++ s := by
      rw [Bytes.replace, List.take_left, ← List.drop_drop, hafter, List.drop_left]
    simp only
    rw [hreplace, List.length_append]
    rfl

/--
The second loop replaces the references without braces, in whatever the first loop leaves.
-/
theorem substitutePlain_eq (getenv : Bytes → Option Bytes) (s : Bytes)
    : ∀ left done, s.length ≤ left →
        substitutePlain getenv left (done ++ s) done.length
          = done ++ (pieces false s).flatMap (Piece.value getenv) := by
  induction s using pieces_induction false with
  | nil =>
    intro left done _
    rw [List.append_nil, substitutePlain_done, pieces_nil, List.flatMap_nil, List.append_nil]
  | braced _ _ hbraces => contradiction
  | «open» s hopen ih =>
    intro left done hleft
    obtain ⟨left, rfl⟩ : ∃ l, left = l + 1 := ⟨left - 1, by simp at hleft; omega⟩
    rw [substitutePlain_open, ih _ _ (by simp at hleft; omega), pieces_open hopen, List.append_assoc]
    rfl
  | dollar s hs ih =>
    intro left done hleft
    obtain ⟨left, rfl⟩ : ∃ l, left = l + 1 := ⟨left - 1, by simp at hleft; omega⟩
    rw [substitutePlain_dollar hs, ih _ _ (by simpa using hleft), pieces_dollar hs, List.append_assoc]
    rfl
  | plain name s hne hname hs ih =>
    intro left done hleft
    obtain ⟨left, rfl⟩ : ∃ l, left = l + 1 := ⟨left - 1, by simp at hleft; omega⟩
    rw [substitutePlain_name hne hname hs, ih _ _ (by simp at hleft; omega), pieces_plain hne hname hs,
      List.flatMap_cons, List.append_assoc]
  | byte c s hc ih =>
    intro left done hleft
    rw [← List.singleton_append, substitutePlain_skip (by simpa using Ne.symm hc), ih _ _ (by simp at hleft; omega),
      List.singleton_append, pieces_byte hc, List.flatMap_cons, List.append_assoc]
    rfl

/--
What the references without braces in a text stand for.
-/
def closed (getenv : Bytes → Option Bytes) (s : Bytes) : Bytes :=
  (pieces false s).flatMap (Piece.value getenv)

theorem substituteEnvironmentVariables_eq (s : Bytes)
    : substituteEnvironmentVariables getenv s = closed getenv ((pieces true s).flatMap (Piece.opened getenv)) := by
  have hbraced := substituteBraced_eq getenv s s.length [] (Nat.le_refl _)
  have hplain := substitutePlain_eq getenv (substituteBraced getenv s.length s 0) _ [] (Nat.le_refl _)
  rw [substituteEnvironmentVariables]
  simp only [List.nil_append, List.length_nil] at hbraced hplain ⊢
  rw [hplain, hbraced, closed]

end loops

end Configuration
end SimpleRsyncd
