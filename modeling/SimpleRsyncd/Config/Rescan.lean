import Mathlib.Algebra.Order.BigOperators.Group.List
import Mathlib.Algebra.Order.Group.Nat
import Mathlib.Data.List.Chain
import SimpleRsyncd.Config.Substitution

/-!
This module determines when the second loop of `substituteEnvironmentVariables` leaves alone what the first loop has
put in.
-/

namespace SimpleRsyncd
namespace Configuration

section closed

variable {getenv : Bytes → Option Bytes} {s u : Bytes}

theorem closed_nil : closed getenv [] = [] := by
  rw [closed, pieces_nil, List.flatMap_nil]

theorem closed_open : closed getenv (36 :: 123 :: s) = 36 :: 123 :: closed getenv s := by
  rw [closed, pieces_open (by simp)]
  rfl

theorem closed_dollar (h : ∀ c ∈ s.head?, c ≠ 123 ∧ isNameChar c = false)
    : closed getenv (36 :: s) = 36 :: closed getenv s := by
  rw [closed, pieces_dollar h]
  rfl

theorem closed_plain {name : Bytes} (hne : name ≠ []) (hname : ∀ c ∈ name, isNameChar c = true)
    (hs : ∀ c ∈ s.head?, isNameChar c = false)
    : closed getenv (36 :: (name ++ s)) = (Piece.plain name).value getenv ++ closed getenv s := by
  rw [closed, pieces_plain hne hname hs]
  rfl

theorem closed_append (h : 36 ∉ u) : closed getenv (u ++ s) = u ++ closed getenv s := by
  induction u with
  | nil => rfl
  | cons c u ih =>
    rw [List.mem_cons, not_or] at h
    rw [List.cons_append, closed, pieces_byte (Ne.symm h.1)]
    exact congrArg (c :: ·) (ih h.2)

end closed

/--
Whether what comes right after the piece can be taken as a part of it.
-/
def Piece.isDollar : Piece → Bool
  | .byte c => c = 36
  | .braced _ => false
  | .plain _ => true

section opened

variable {getenv : Bytes → Option Bytes}

theorem head_opened {ok : UInt8 → Prop} {s : Bytes} (hs : ∀ c ∈ s.head?, ok c)
    (hbraced : ∀ reference after, pieces true s = .braced reference :: after →
      ∃ c u, (Piece.braced reference).value getenv = c :: u ∧ ok c)
    : ∀ c ∈ ((pieces true s).flatMap (Piece.opened getenv)).head?, ok c := by
  induction s using pieces_induction true with
  | nil => simp [pieces_nil]
  | braced reference after _ hreference =>
    obtain ⟨c, u, hvalue, hc⟩ := hbraced reference _ (pieces_braced hreference)
    rw [pieces_braced hreference, List.flatMap_cons, Piece.opened, hvalue]
    simpa using hc
  | «open» s hopen => simpa [pieces_open hopen, Piece.opened, Piece.text] using hs
  | dollar s hstop => simpa [pieces_dollar hstop, Piece.opened, Piece.text] using hs
  | plain name s hne hname hstop => simpa [pieces_plain hne hname hstop, Piece.opened, Piece.text] using hs
  | byte c s hc => simpa [pieces_byte hc, Piece.opened, Piece.text] using hs

/--
What follows a dollar sign or a name starts with something that does not continue it.
-/
def StopsPieces (getenv : Bytes → Option Bytes) (piece next : Piece) : Prop :=
  piece.isDollar = true → ∀ reference, next = .braced reference →
    ∃ c u, next.value getenv = c :: u ∧ c ≠ 123 ∧ isNameChar c = false

theorem head_opened_of_stops {s : Bytes} {piece : Piece} (hs : ∀ c ∈ s.head?, c ≠ 123 ∧ isNameChar c = false)
    (hpiece : piece.isDollar = true) (hstops : (piece :: pieces true s).IsChain (StopsPieces getenv))
    : ∀ c ∈ ((pieces true s).flatMap (Piece.opened getenv)).head?, c ≠ 123 ∧ isNameChar c = false := by
  refine head_opened hs fun reference after hpieces => ?_
  rw [hpieces, List.isChain_cons_cons] at hstops
  exact hstops.1 hpiece reference rfl

/--
What both loops make of a piece, if the second loop makes `rescanned` of what is put in for braces.
-/
def Piece.closed (getenv : Bytes → Option Bytes) (rescanned : Bytes → Bytes) : Piece → Bytes
  | .braced reference => rescanned reference
  | piece => piece.value getenv

/--
The second loop goes through the pieces one by one.
-/
theorem closed_opened (rescanned : Bytes → Bytes) (s : Bytes)
    (hput : ∀ reference, .braced reference ∈ pieces true s → ∀ t,
      closed getenv ((Piece.braced reference).value getenv ++ t) = rescanned reference ++ closed getenv t)
    (hstops : (pieces true s).IsChain (StopsPieces getenv))
    : closed getenv ((pieces true s).flatMap (Piece.opened getenv))
      = (pieces true s).flatMap (Piece.closed getenv rescanned) := by
  induction s using pieces_induction true with
  | nil => simp [pieces_nil, closed_nil]
  | braced reference after _ hreference ih =>
    rw [pieces_braced hreference] at hput hstops ⊢
    rw [List.flatMap_cons, Piece.opened, hput reference List.mem_cons_self,
      ih (fun r hr => hput r (List.mem_cons_of_mem _ hr)) hstops.tail]
    rfl
  | «open» s hopen ih =>
    rw [pieces_open hopen] at hput hstops ⊢
    have ih := ih (fun r hr => hput r (List.mem_cons_of_mem _ (List.mem_cons_of_mem _ hr))) hstops.tail.tail
    simp only [List.flatMap_cons, Piece.opened, Piece.text, Piece.closed, Piece.value, List.cons_append,
      List.nil_append, closed_open, ih]
  | dollar s hs ih =>
    rw [pieces_dollar hs] at hput hstops ⊢
    have ih := ih (fun r hr => hput r (List.mem_cons_of_mem _ hr)) hstops.tail
    have hhead := head_opened_of_stops hs rfl hstops
    simp only [List.flatMap_cons, Piece.opened, Piece.text, Piece.closed, Piece.value, List.cons_append,
      List.nil_append, closed_dollar hhead, ih]
  | plain name s hne hname hs ih =>
    rw [pieces_plain hne hname hs] at hput hstops ⊢
    have ih := ih (fun r hr => hput r (List.mem_cons_of_mem _ hr)) hstops.tail
    -- what follows the name may be a value by now, which must not continue it
    have hhead : ∀ c ∈ ((pieces true s).flatMap (Piece.opened getenv)).head?, isNameChar c = false := by
      refine head_opened hs fun reference after hpieces => ?_
      rw [hpieces, List.isChain_cons_cons] at hstops
      obtain ⟨c, u, hvalue, -, hc⟩ := hstops.1 rfl reference rfl
      exact ⟨c, u, hvalue, hc⟩
    simp only [List.flatMap_cons, Piece.opened, Piece.text, List.cons_append, closed_plain hne hname hhead, ih]
    rfl
  | byte c s hc ih =>
    rw [pieces_byte hc] at hput hstops ⊢
    have ih := ih (fun r hr => hput r (List.mem_cons_of_mem _ hr)) hstops.tail
    rw [List.flatMap_cons, Piece.opened, Piece.text, closed_append (by simpa using Ne.symm hc), ih]
    . rfl
    . simp

end opened

/--
Nothing that is put in, or left as it is, has a dollar sign in it, and nothing is put in right behind one.
-/
structure Quiet (getenv : Bytes → Option Bytes) (s : Bytes) : Prop where
  dollar_notMem : ∀ reference, .braced reference ∈ pieces true s →
    36 ∉ (bracedValue getenv reference).getD reference
  apart : (pieces true s).IsChain fun piece next => piece.isDollar = true → ∀ reference, next ≠ .braced reference

theorem closed_value {getenv : Bytes → Option Bytes} {reference : Bytes}
    (h : 36 ∉ (bracedValue getenv reference).getD reference) (t : Bytes)
    : closed getenv ((Piece.braced reference).value getenv ++ t)
      = (Piece.braced reference).value getenv ++ closed getenv t := by
  rw [Piece.value]
  cases hvalue : bracedValue getenv reference with
  | none =>
    rw [hvalue] at h
    have hrest : 36 ∉ reference ++ [125] := by simpa using h
    simp only [Option.getD_none, Piece.text, List.cons_append]
    rw [closed_open, closed_append hrest]
  | some value =>
    rw [hvalue] at h
    exact closed_append h

theorem Quiet.substitute_eq {getenv : Bytes → Option Bytes} {s : Bytes} (h : Quiet getenv s)
    : substituteEnvironmentVariables getenv s = simultaneous getenv s := by
  have hput : ∀ reference, .braced reference ∈ pieces true s → ∀ t,
      closed getenv ((Piece.braced reference).value getenv ++ t)
        = (Piece.braced reference).value getenv ++ closed getenv t :=
    fun reference hmem => closed_value (h.dollar_notMem reference hmem)
  have hstops : (pieces true s).IsChain (StopsPieces getenv) :=
    h.apart.imp fun piece next happart hpiece reference hnext => absurd hnext (happart hpiece reference)
  rw [substituteEnvironmentVariables_eq, closed_opened _ s hput hstops, simultaneous]
  refine List.flatMap_congr fun piece _ => ?_
  cases piece <;> rfl

/--
All variables have the value `$a-`.
-/
def looping : Bytes → Option Bytes :=
  fun _ => some [36, 97, 45]

theorem closed_looping (t : Bytes) : closed looping ([36, 97, 45] ++ t) = [36, 97, 45, 45] ++ closed looping t := by
  have hname : closed looping (36 :: ([97] ++ 45 :: t)) = [36, 97, 45] ++ closed looping (45 :: t) :=
    closed_plain (by simp) (by decide) (by simp [show isNameChar 45 = false from by decide])
  have hdash : closed looping ([45] ++ t) = [45] ++ closed looping t := closed_append (by decide)
  exact hname.trans (congrArg ([36, 97, 45] ++ ·) hdash)

/--
With a variable that refers to itself, the result is longer by a byte for each reference with braces.
-/
theorem substitute_looping_ne {s reference : Bytes} (h : .braced reference ∈ pieces true s)
    : substituteEnvironmentVariables looping s ≠ simultaneous looping s := by
  have hvalue : ∀ r, (Piece.braced r).value looping = [36, 97, 45] := fun _ => rfl
  have hstops : (pieces true s).IsChain (StopsPieces looping) := by
    refine (List.pairwise_of_forall fun piece next _ r hnext => ?_).isChain
    exact ⟨36, [97, 45], by rw [hnext, hvalue], by decide, by decide⟩
  rw [substituteEnvironmentVariables_eq, closed_opened (fun _ => [36, 97, 45, 45]) s _ hstops, simultaneous]
  . have hlonger : ∀ r, ((Piece.braced r).value looping).length
        < ((Piece.braced r).closed looping fun _ => [36, 97, 45, 45]).length := fun _ => Nat.lt_succ_self 3
    intro heq
    have hlength := congrArg List.length heq
    rw [List.length_flatMap, List.length_flatMap] at hlength
    refine absurd hlength (Nat.ne_of_gt (List.sum_lt_sum _ _ ?_ ⟨_, h, hlonger reference⟩))
    rintro (c | r | name) _
    . exact Nat.le_refl _
    . exact Nat.le_of_lt (hlonger r)
    . exact Nat.le_refl _
  . intro r _ t
    rw [hvalue]
    exact closed_looping t

/--
What is put in is never expanded again if and only if the value has no references with braces. In a single environment
it is enough if no dollar signs are put in, or right before what is put in.
-/
theorem substituteEnvironmentVariables_iff (value : Bytes)
    : ((∀ getenv, substituteEnvironmentVariables getenv value = simultaneous getenv value)
          ↔
        ∀ reference, .braced reference ∉ pieces true value)
        ∧ ∀ getenv, Quiet getenv value → substituteEnvironmentVariables getenv value = simultaneous getenv value := by
  refine ⟨⟨fun h reference hmem => substitute_looping_ne hmem (h looping), fun h getenv => ?_⟩,
    fun getenv => Quiet.substitute_eq⟩
  refine Quiet.substitute_eq ⟨fun reference hmem => absurd hmem (h reference), ?_⟩
  refine (List.pairwise_of_forall_mem_list fun piece _ next hnext _ reference heq => ?_).isChain
  exact h reference (heq ▸ hnext)

theorem pieces_single : pieces true (bytes "$\x7bA\x7d") = [.braced (bytes "A")] := by
  have hpieces : pieces true (36 :: 123 :: (bytes "A" ++ 125 :: [])) = .braced (bytes "A") :: pieces true [] :=
    pieces_braced (by decide)
  rw [pieces_nil] at hpieces
  exact hpieces

/--
What the variable `A` holds is taken for a reference to `B`.
-/
theorem not_substituteEnvironmentVariables_single
    : ∃ getenv : Bytes → Option Bytes,
        substituteEnvironmentVariables getenv (bytes "$\x7bA\x7d") = bytes "x"
          ∧ simultaneous getenv (bytes "$\x7bA\x7d") = bytes "$B" := by
  refine ⟨fun name => if name = bytes "A" then some (bytes "$B") else some (bytes "x"), by decide, ?_⟩
  rw [simultaneous, pieces_single]
  decide

end Configuration
end SimpleRsyncd
