import Mathlib.Algebra.Group.Nat.Defs
import SimpleRsyncd.Config.Document

/-!
This module contains the trees that JSON and YAML texts stand for, and what the loaders make of a node
that a library shows as such a tree.
-/

namespace SimpleRsyncd

inductive Tree where
  | text (s : Bytes)
  | flag (b : Bool)
  | number (n : Nat)
  | texts (elements : List Bytes)
  | object (members : List (Bytes × Tree))

namespace Tree

/--
The object with those of the members that are there.
-/
def record (fields : List (String × Option Tree)) : Tree :=
  .object (fields.filterMap fun e => e.2.map fun t => (bytes e.1, t))

/--
The member of that name, if it is one and is there.
-/
def field : List (String × Option Tree) → Bytes → Option Tree
  | [], _ => none
  | (name, t) :: fields, key => if key = bytes name then t else field fields key

theorem field_eq_none {fields : List (String × Option Tree)} {key : Bytes}
    (h : key ∉ fields.map fun e => bytes e.1)
    : field fields key = none := by
  induction fields with
  | nil => rfl
  | cons e fields ih =>
    obtain ⟨hne, hnotMem⟩ : key ≠ bytes e.1 ∧ key ∉ fields.map fun e => bytes e.1 := by simpa using h
    rw [field, if_neg hne, ih hnotMem]

theorem lookup_record {fields : List (String × Option Tree)} (h : (fields.map fun e => bytes e.1).Nodup)
    (key : Bytes)
    : (fields.filterMap fun e => e.2.map fun t => (bytes e.1, t)).lookup key = field fields key := by
  induction fields with
  | nil => rfl
  | cons e fields ih =>
    obtain ⟨hnotMem, hnodup⟩ := List.nodup_cons.mp h
    have ih := ih hnodup
    rcases e with ⟨name, t⟩
    by_cases hkey : key = bytes name
    . subst hkey
      rw [field_eq_none hnotMem] at ih
      cases t with
      | none => simpa [field] using ih
      | some t => simp [field]
    . have hne : (key == bytes name) = false := by simpa using hkey
      cases t <;> simpa [field, hkey, List.lookup_cons, hne] using ih

end Tree

namespace DocumentLibrary

/--
What the functions of a library return for a node tells that it is this tree. A number is read as an
`unsigned int`, which throws if it is too large.
-/
inductive Shows (lib : DocumentLibrary) : lib.Node → Tree → Prop where
  | text {node : lib.Node} {s : Bytes} (h : lib.asString node = .ok s) : Shows lib node (.text s)
  | flag {node : lib.Node} {b : Bool} (h : lib.asBool node = .ok b) : Shows lib node (.flag b)
  | number {node : lib.Node} {n : Nat} (hsmall : n < 2 ^ 32 → lib.asUInt node = .ok (.ofNat n))
      (hlarge : 2 ^ 32 ≤ n → ∃ what, lib.asUInt node = .error what)
      : Shows lib node (.number n)
  | texts {node : lib.Node} {elements : List Bytes} (nodes : List lib.Node)
      (h : lib.elements node = some nodes) (htext : nodes.map lib.asString = elements.map .ok)
      : Shows lib node (.texts elements)
  | object {node : lib.Node} {members : List (Bytes × Tree)} (names : List Bytes) (child : Bytes → lib.Node)
      (hnull : lib.isNull node = false)
      (hfind : ∀ key, lib.find node key = .ok ((members.lookup key).map fun _ => child key))
      (hnames : names.Perm (members.map Prod.fst))
      (hmembers : lib.members node = some (names.map fun key => (.ok key, child key)))
      (hchild : ∀ key t, members.lookup key = some t → Shows lib (child key) t)
      : Shows lib node (.object members)

end DocumentLibrary

namespace Tree

/--
The names of members are different from each other.
-/
inductive Distinct : Tree → Prop where
  | text (s : Bytes) : Distinct (.text s)
  | flag (b : Bool) : Distinct (.flag b)
  | number (n : Nat) : Distinct (.number n)
  | texts (elements : List Bytes) : Distinct (.texts elements)
  | object {members : List (Bytes × Tree)} (hnodup : (members.map Prod.fst).Nodup)
      (h : ∀ e ∈ members, Distinct e.2)
      : Distinct (.object members)

theorem distinct_record {fields : List (String × Option Tree)} (hnodup : (fields.map fun e => bytes e.1).Nodup)
    (h : ∀ e ∈ fields, ∀ t, e.2 = some t → t.Distinct)
    : (record fields).Distinct := by
  have hsublist : ((fields.filterMap fun e => e.2.map fun t => (bytes e.1, t)).map Prod.fst).Sublist
      (fields.map fun e => bytes e.1) := by
    clear hnodup h
    induction fields with
    | nil => exact .slnil
    | cons e fields ih =>
      rcases e with ⟨name, _ | t⟩
      . exact ih.cons _
      . exact ih.cons_cons _
  refine .object (hsublist.nodup hnodup) ?_
  intro e he
  obtain ⟨e', he', hmap⟩ := List.mem_filterMap.mp he
  obtain ⟨t, ht, rfl⟩ := Option.map_eq_some_iff.mp hmap
  exact h e' he' t ht

/--
A library whose nodes are trees.
-/
def library (parse : Bytes → Except Bytes Tree) : DocumentLibrary where
  Node := Tree
  parse
  find := fun t key => match t with
    | .object members => .ok (members.lookup key)
    | _ => .error (bytes "not an object")
  isNull := fun _ => false
  asString := fun t => match t with
    | .text s => .ok s
    | _ => .error (bytes "not a string")
  asBool := fun t => match t with
    | .flag b => .ok b
    | _ => .error (bytes "not a boolean")
  asUInt := fun t => match t with
    | .number n => if n < 2 ^ 32 then .ok (.ofNat n) else .error (bytes "out of range")
    | _ => .error (bytes "not a number")
  asSize := fun t => match t with
    | .number n => if n < 2 ^ 64 then .ok (.ofNat n) else .error (bytes "out of range")
    | _ => .error (bytes "not a number")
  elements := fun t => match t with
    | .texts elements => some (elements.map .text)
    | _ => none
  members := fun t => match t with
    | .object members => some (members.map fun e => (.ok e.1, e.2))
    | _ => none

theorem lookup_eq_some_iff_mem {members : List (Bytes × Tree)} (hnodup : (members.map Prod.fst).Nodup) {key : Bytes}
    {t : Tree}
    : members.lookup key = some t ↔ (key, t) ∈ members := by
  rw [List.lookup_eq_some_iff]
  constructor
  . rintro ⟨before, after, rfl, -⟩
    simp
  . intro hmem
    obtain ⟨before, after, rfl⟩ := List.append_of_mem hmem
    refine ⟨before, after, rfl, ?_⟩
    intro e he
    rw [List.map_append, List.nodup_append] at hnodup
    have hne := hnodup.2.2 e.1 (List.mem_map_of_mem he) key (by simp)
    simpa using hne.symm

/--
It shows each tree as what it is.
-/
theorem shows_library {parse : Bytes → Except Bytes Tree} {t : Tree} (h : t.Distinct) : (library parse).Shows t t := by
  induction h with
  | text s => exact .text rfl
  | flag b => exact .flag rfl
  | number n =>
    refine .number ?_ ?_
    . intro hsmall
      exact if_pos hsmall
    . intro hlarge
      exact ⟨bytes "out of range", if_neg (by omega)⟩
  | texts elements => exact .texts (elements.map Tree.text) rfl List.map_map
  | @object members hnodup _ ih =>
    have hlookup : ∀ key t, members.lookup key = some t ↔ (key, t) ∈ members :=
      fun key t => lookup_eq_some_iff_mem hnodup
    refine .object (members.map Prod.fst) (fun key => (members.lookup key).getD (.texts [])) rfl ?_ .rfl ?_ ?_
    . intro key
      show Except.ok (members.lookup key) = _
      cases members.lookup key <;> rfl
    . show some (members.map fun e => (Except.ok e.1, e.2)) = _
      rw [List.map_map]
      congr 1
      apply List.map_congr_left
      intro e he
      simp only [Function.comp_apply, (hlookup e.1 e.2).mpr he]
      rfl
    . intro key t ht
      rw [ht]
      exact ih (key, t) ((hlookup key t).mp ht)

end Tree

namespace Loader

/--
The assignments a loader makes, without an exception.
-/
def Makes (loader : Loader Unit) (assignments : List Assignment) : Prop :=
  ∀ before, StateT.run (ExceptT.run loader) before = (.ok (), before ++ assignments)

/--
The assignments a loader makes before it throws.
-/
def Throws (loader : Loader Unit) (assignments : List Assignment) : Prop :=
  ∃ what, ∀ before, StateT.run (ExceptT.run loader) before = (.error what, before ++ assignments)

variable {loader loader' : Loader Unit} {assignments assignments' : List Assignment}

theorem makes_pure : Makes (pure ()) [] := by
  intro before
  rw [List.append_nil]
  rfl

theorem makes_assign : Makes (assign assignments) assignments := by
  intro before
  rfl

theorem Makes.of_eq (h : Makes loader assignments) (heq : assignments = assignments') : Makes loader assignments' :=
  heq ▸ h

theorem Makes.seq (h : Makes loader assignments) (h' : Makes loader' assignments')
    : Makes (do loader; loader') (assignments ++ assignments') := by
  intro before
  rw [ExceptT.run_bind, StateT.run_bind, h before, ← List.append_assoc]
  exact h' _

theorem Makes.throws (h : Makes loader assignments) (h' : Throws loader' assignments')
    : Throws (do loader; loader') (assignments ++ assignments') := by
  obtain ⟨what, h'⟩ := h'
  refine ⟨what, ?_⟩
  intro before
  rw [ExceptT.run_bind, StateT.run_bind, h before, ← List.append_assoc]
  exact h' _

theorem Throws.seq (h : Throws loader assignments) : Throws (do loader; loader') assignments := by
  obtain ⟨what, h⟩ := h
  refine ⟨what, ?_⟩
  intro before
  rw [ExceptT.run_bind, StateT.run_bind, h before]
  rfl

theorem Makes.forM {α : Type} {loader : α → Loader Unit} {assignments : α → List Assignment} {xs : List α}
    (h : ∀ x ∈ xs, Makes (loader x) (assignments x))
    : Makes (xs.forM loader) (xs.flatMap assignments) := by
  induction xs with
  | nil => exact makes_pure
  | cons x xs ih =>
    exact (h x List.mem_cons_self).seq (ih fun y hy => h y (List.mem_cons_of_mem x hy))

theorem Makes.run_eq (h : Makes loader assignments) : loader.run = (.ok (), assignments) :=
  h []

theorem Throws.run_eq (h : Throws loader assignments) : ∃ what, loader.run = (.error what, assignments) := by
  obtain ⟨what, h⟩ := h
  exact ⟨what, h []⟩

end Loader

namespace DocumentLibrary

open Loader

variable {lib : DocumentLibrary} {node : lib.Node}

/--
A computation of the library is followed by one that makes assignments.
-/
theorem makes_lift {α : Type} {x : Except Bytes α} {v : α} {f : α → Loader Unit} {assignments : List Assignment}
    (hx : x = .ok v) (hf : Makes (f v) assignments)
    : Makes (do f (← x)) assignments := by
  subst hx
  exact hf

theorem makes_setString {set : Bytes → List Assignment} {s : Bytes} (h : lib.asString node = .ok s)
    : Makes (lib.setString set node) (set s) :=
  makes_lift h makes_assign

theorem makes_setBool {set : Bool → List Assignment} {b : Bool} (h : lib.asBool node = .ok b)
    : Makes (lib.setBool set node) (set b) :=
  makes_lift h makes_assign

theorem makes_setUInt {set : UInt32 → List Assignment} {n : UInt32} (h : lib.asUInt node = .ok n)
    : Makes (lib.setUInt set node) (set n) :=
  makes_lift h makes_assign

theorem throws_setUInt {set : UInt32 → List Assignment} {what : Bytes} (h : lib.asUInt node = .error what)
    : Throws (lib.setUInt set node) [] := by
  refine ⟨what, ?_⟩
  intro before
  rw [List.append_nil, setUInt, h]
  rfl

theorem makes_pushStrings {push : Bytes → Assignment} {elements : List Bytes}
    (h : lib.Shows node (.texts elements))
    : Makes (lib.pushStrings push node) (elements.map push) := by
  cases h with
  | texts nodes h htext =>
    rw [pushStrings, h]
    clear h
    induction nodes generalizing elements with
    | nil =>
      obtain rfl : elements = [] := by simpa using htext.symm
      exact makes_pure
    | cons node nodes ih =>
      cases elements with
      | nil => simp at htext
      | cons s elements =>
        simp only [List.map_cons, List.cons.injEq] at htext
        exact (makes_setString htext.1).seq (ih htext.2)

section record

variable {fields : List (String × Option Tree)} {f : lib.Node → Loader Unit} {assignments : List Assignment}

/--
A member is found exactly if the tree has it.
-/
theorem Shows.find (h : lib.Shows node (.record fields)) (hnodup : (fields.map fun e => bytes e.1).Nodup)
    (key : Bytes)
    : match Tree.field fields key with
      | none => lib.find node key = .ok none
      | some t => ∃ child, lib.find node key = .ok (some child) ∧ lib.Shows child t := by
  cases h with
  | object names child hnull hfind hnames hmembers hchild =>
    have hkey := hfind key
    have hshows := hchild key
    rw [Tree.lookup_record hnodup] at hkey hshows
    split
    . next hfield =>
      rw [hkey, hfield]
      rfl
    . next t hfield =>
      refine ⟨child key, ?_, hshows t hfield⟩
      rw [hkey, hfield]
      rfl

theorem onEither_of_none {key key' : String} (h : lib.find node (bytes key) = .ok none)
    : lib.onEither node key key' f = lib.onMember node key' f := by
  rw [onEither, h]
  rfl

theorem onEither_of_some {key key' : String} {member : lib.Node}
    (h : lib.find node (bytes key) = .ok (some member))
    : lib.onEither node key key' f = f member := by
  rw [onEither, h]
  rfl

theorem onMember_of_none {key : String} (h : lib.find node (bytes key) = .ok none)
    : Makes (lib.onMember node key f) [] := by
  rw [onMember, h]
  exact makes_pure

theorem onMember_of_some {key : String} {member : lib.Node} (h : lib.find node (bytes key) = .ok (some member))
    : lib.onMember node key f = f member := by
  rw [onMember, h]
  rfl

variable (h : lib.Shows node (.record fields)) (hnodup : (fields.map fun e => bytes e.1).Nodup) (key : String)

include h hnodup

theorem makes_absent (hfield : Tree.field fields (bytes key) = none) : Makes (lib.onMember node key f) [] :=
  onMember_of_none (by simpa [hfield] using h.find hnodup (bytes key))

/--
A second name does not matter unless it occurs in the tree.
-/
theorem onEither_of_absent {key' : String} (hfield : Tree.field fields (bytes key') = none)
    : lib.onEither node key key' f = lib.onMember node key f := by
  have hfind := h.find hnodup (bytes key)
  have hfind' := h.find hnodup (bytes key')
  rw [hfield] at hfind'
  split at hfind
  . rw [onEither_of_none hfind, onMember, onMember, hfind, hfind']
  . obtain ⟨member, hfind, -⟩ := hfind
    rw [onEither_of_some hfind, onMember_of_some hfind]

theorem exists_member {t : Tree} (hfield : Tree.field fields (bytes key) = some t)
    : ∃ member, lib.Shows member t ∧ ∀ f, lib.onMember node key f = f member := by
  have hfind := h.find hnodup (bytes key)
  rw [hfield] at hfind
  obtain ⟨member, hfind, hshows⟩ := hfind
  exact ⟨member, hshows, fun f => onMember_of_some hfind⟩

/--
What is done with a member that may be there or not.
-/
theorem makes_onMember {α : Type} {v : Option α} {tree : α → Tree} {assignment : α → Assignment}
    (hfield : Tree.field fields (bytes key) = v.map tree)
    (hf : ∀ x member, v = some x → lib.Shows member (tree x) → Makes (f member) [assignment x])
    : Makes (lib.onMember node key f) (v.toList.map assignment) := by
  cases v with
  | none => exact makes_absent h hnodup key hfield
  | some x =>
    obtain ⟨member, hshows, hmember⟩ := exists_member h hnodup key hfield
    simpa [hmember] using hf x member rfl hshows

theorem makes_text {α : Type} {v : Option α} {text : α → Bytes} {assign : Bytes → Assignment}
    (hfield : Tree.field fields (bytes key) = v.map fun x => .text (text x))
    : Makes (lib.onMember node key (lib.setString fun s => [assign s])) (v.toList.map fun x => assign (text x)) :=
  makes_onMember h hnodup key hfield fun _ _ _ hshows => match hshows with
    | .text hs => makes_setString hs

theorem makes_flag {v : Option Bool} {assign : Bool → Assignment}
    (hfield : Tree.field fields (bytes key) = v.map .flag)
    : Makes (lib.onMember node key (lib.setBool fun b => [assign b])) (v.toList.map assign) :=
  makes_onMember h hnodup key hfield fun _ _ _ hshows => match hshows with
    | .flag hb => makes_setBool hb

theorem makes_number {α : Type} {v : Option α} {n : α → Nat} {assign : UInt32 → Assignment}
    {assignment : α → Assignment} (hfield : Tree.field fields (bytes key) = v.map fun x => .number (n x))
    (hsmall : ∀ x ∈ v, n x < 2 ^ 32) (hassign : ∀ x ∈ v, assign (.ofNat (n x)) = assignment x)
    : Makes (lib.onMember node key (lib.setUInt fun n => [assign n])) (v.toList.map assignment) :=
  makes_onMember h hnodup key hfield fun x _ hx hshows => match hshows with
    | .number hread _ => hassign x hx ▸ makes_setUInt (hread (hsmall x hx))

theorem makes_texts {push : Bytes → Assignment} {elements : List Bytes}
    (hfield : Tree.field fields (bytes key) = some (.texts elements))
    : Makes (lib.onMember node key (lib.pushStrings push)) (elements.map push) := by
  obtain ⟨member, hshows, hmember⟩ := exists_member h hnodup key hfield
  rw [hmember]
  exact makes_pushStrings hshows

/--
A number that does not fit into an `unsigned int`.
-/
theorem throws_number {set : UInt32 → List Assignment} {n : Nat}
    (hfield : Tree.field fields (bytes key) = some (.number n)) (hlarge : 2 ^ 32 ≤ n)
    : Throws (lib.onMember node key (lib.setUInt set)) [] := by
  obtain ⟨member, hshows, hmember⟩ := exists_member h hnodup key hfield
  rw [hmember]
  cases hshows with
  | number _ hthrows =>
    obtain ⟨what, hwhat⟩ := hthrows hlarge
    exact throws_setUInt hwhat

end record

/--
Each module is read, in an order the library chooses.
-/
theorem makes_parseModules {members : List (Bytes × Tree)} {parseModule : Bytes → lib.Node → Loader Unit}
    {assignments : Bytes → List Assignment} (h : lib.Shows node (.object members))
    (hf : ∀ name t member, members.lookup name = some t → lib.Shows member t →
      Makes (parseModule name member) (assignments name))
    : ∃ names : List Bytes, names.Perm (members.map Prod.fst)
        ∧ Makes (lib.parseModules parseModule node) (names.flatMap assignments) := by
  cases h with
  | object names child hnull hfind hnames hmembers hchild =>
    refine ⟨names, hnames, ?_⟩
    have hloader : lib.parseModules parseModule node = names.forM fun key => parseModule key (child key) := by
      rw [parseModules, hmembers]
      exact List.forM_map
    rw [hloader]
    apply Makes.forM
    intro name hname
    have hmem : (members.lookup name).isSome := by
      obtain ⟨e, he, rfl⟩ := List.mem_map.mp (hnames.mem_iff.mp hname)
      exact List.lookup_isSome_iff.mpr ⟨e, he, beq_self_eq_true _⟩
    obtain ⟨t, ht⟩ := Option.isSome_iff_exists.mp hmem
    exact hf name t (child name) ht (hchild name t ht)

end DocumentLibrary
end SimpleRsyncd
