import SimpleRsyncd.Bytes.Basic

/-!
This module contains the lexical half of `std::filesystem::path` on POSIX: a path is the byte string
it was made from, its elements are obtained by splitting that string at slashes.
-/

namespace SimpleRsyncd

def slash : UInt8 := 47

def dotDot : Bytes := bytes ".."

/--
What can stand between two slashes and is not one of the two special entries.
-/
def IsName (b : Bytes) : Prop :=
  b ≠ [] ∧ slash ∉ b ∧ b ≠ bytes "." ∧ b ≠ dotDot

instance (b : Bytes) : Decidable (IsName b) := by
  unfold IsName
  infer_instance

/--
The name of a directory entry.
-/
structure Name where
  toBytes : Bytes
  isName : IsName toBytes
  deriving DecidableEq

theorem isName_m : IsName (bytes "m") := by
  decide

/--
An absolute location in a file system, free of `.`, `..` and symbolic links by construction.
-/
abbrev Loc := List Name

/--
One element of a path below its root directory, `empty` is the one after a trailing slash.
-/
inductive Elem where
  | empty
  | dot
  | dotdot
  | name (n : Name)
  deriving DecidableEq

namespace Elem

def ofBytes (b : Bytes) : Elem :=
  if b = bytes "." then
    .dot
  else if b = dotDot then
    .dotdot
  else if h : IsName b then
    .name ⟨b, h⟩
  else
    .empty

def toBytes : Elem → Bytes
  | .empty => []
  | .dot => bytes "."
  | .dotdot => dotDot
  | .name n => n.toBytes

@[simp]
theorem toBytes_ofBytes {b : Bytes} (h : slash ∉ b) : (ofBytes b).toBytes = b := by
  unfold ofBytes
  split
  . simp_all [toBytes]
  . split
    . simp_all [toBytes]
    . split
      . rfl
      . next hdot hdotdot hname =>
        simp only [toBytes]
        by_contra hne
        exact hname ⟨fun h => hne h.symm, h, hdot, hdotdot⟩

@[simp]
theorem ofBytes_name (n : Name) : ofBytes n.toBytes = .name n := by
  obtain ⟨b, hb⟩ := n
  simp [ofBytes, hb, hb.2.2.1, hb.2.2.2]

end Elem

namespace Path

def isAbsolute (p : Bytes) : Bool :=
  p.head? = some slash

/--
The non-empty parts between slashes.
-/
def pieces (p : Bytes) : List Bytes :=
  (p.splitOn slash).filter (· ≠ [])

def hasTrailingSlash (p : Bytes) : Bool :=
  !(pieces p).isEmpty && p.getLast? = some slash

/--
The elements below the root directory.
-/
def elems (p : Bytes) : List Elem :=
  (pieces p).map Elem.ofBytes ++ if hasTrailingSlash p then [.empty] else []

/--
The iteration `p.begin()` to `p.end()`, the root directory of an absolute path is an element of it.
-/
def elements (p : Bytes) : List Bytes :=
  (if isAbsolute p then [[slash]] else []) ++ (elems p).map Elem.toBytes

def hasFilename (p : Bytes) : Bool :=
  p.getLast?.any (· ≠ slash)

/--
`p / q`, an absolute right operand replaces the left one.
-/
def append (p q : Bytes) : Bytes :=
  if isAbsolute q then
    q
  else if hasFilename p then
    p ++ slash :: q
  else
    p ++ q

/--
The string of an absolute location.
-/
def ofLoc : Loc → Bytes
  | [] => [slash]
  | n :: l => (n :: l).flatMap fun n => slash :: n.toBytes

/--
A path in normal form: `..` occurs only in front and only in relative paths.
-/
structure Normal where
  absolute : Bool
  ups : Nat
  names : List Name
  trailing : Bool
  deriving DecidableEq

namespace Normal

def empty (absolute : Bool) : Normal :=
  { absolute, ups := 0, names := [], trailing := false }

def push (p : Normal) : Elem → Normal
  | .name n => { p with names := p.names ++ [n], trailing := false }
  | .dot | .empty => { p with trailing := !p.names.isEmpty }
  | .dotdot =>
    if p.names.isEmpty then
      if p.absolute then p else { p with ups := p.ups + 1 }
    else
      { p with names := p.names.dropLast, trailing := !p.names.dropLast.isEmpty }

/--
`/a/b` or `../../a/b`, the empty relative path is written as a dot.
-/
def render (p : Normal) : Bytes :=
  if p.absolute then
    ofLoc p.names ++ if p.trailing then [slash] else []
  else if p.ups = 0 && p.names.isEmpty then
    bytes "."
  else
    [slash].intercalate (List.replicate p.ups dotDot ++ p.names.map Name.toBytes)
      ++ if p.trailing then [slash] else []

end Normal

def normalise (absolute : Bool) (es : List Elem) : Normal :=
  es.foldl Normal.push (.empty absolute)

/--
`p.lexically_normal()`, the empty path is its own normal form.
-/
def lexicallyNormal (p : Bytes) : Bytes :=
  if p.isEmpty then [] else (normalise (isAbsolute p) (elems p)).render

/--
The last element, empty if the path ends in a slash.
-/
def filename (p : Bytes) : Bytes :=
  (p.reverse.takeWhile (· ≠ slash)).reverse

/--
`p.extension()`: what follows the last dot of the filename, with the dot. A filename that starts with
its last dot has no extension.
-/
def extension (p : Bytes) : Bytes :=
  let name := filename p
  let after := (name.reverse.takeWhile (· ≠ 46)).reverse
  if name = dotDot || name.length ≤ after.length + 1 then
    []
  else
    46 :: after

/--
`p.stem()`.
-/
def stem (p : Bytes) : Bytes :=
  (filename p).take ((filename p).length - (extension p).length)

/--
`p.parent_path()`: the path without its last element and the slashes in front of that element.
-/
def parentPath (p : Bytes) : Bytes :=
  let dir := (p.reverse.dropWhile (· ≠ slash)).dropWhile (· = slash)
  if dir.isEmpty && isAbsolute p then [slash] else dir.reverse

/--
`base` is `p` or an ancestor of `p`, component by component.
-/
def IsWithin (base p : Bytes) : Prop :=
  elements base <+: elements p

instance (base p : Bytes) : Decidable (IsWithin base p) := by
  unfold IsWithin
  infer_instance

/--
`p` continues the last component of `base` instead of descending into it, as `/srv/module2` does
with `/srv/mod`.
-/
def LookAlike (base p : Bytes) : Prop :=
  base ≠ [slash] ∧ base <+: p ∧ p ≠ base ∧ ¬(base ++ [slash] <+: p)

instance (base p : Bytes) : Decidable (LookAlike base p) := by
  unfold LookAlike
  infer_instance

example : elements (bytes "/srv//mod/./x/") = [bytes "/", bytes "srv", bytes "mod", bytes ".", bytes "x", []] := by
  decide

example : lexicallyNormal (bytes "/srv/mod/../x/.") = bytes "/srv/x/" := by decide

example : lexicallyNormal (bytes "a/../../b/..") = bytes ".." := by decide

end Path
end SimpleRsyncd
