import SimpleRsyncd.FileSystem.Resolve

/-!
This module contains a file system: a tree of files, symbolic links and directories, and the
functions of `std::filesystem` and `std::fstream` on it. A function that throws
`std::filesystem::filesystem_error` returns the error code. A NUL byte ends no path here.
-/

namespace SimpleRsyncd

inductive Node where
  | file (data : Bytes)
  | symlink (target : Bytes)
  | dir (entries : List (Name × Node))

namespace Node

def kind : Node → Kind
  | .file _ => .file
  | .symlink target => .symlink target
  | .dir _ => .dir

def entries : Node → List (Name × Node)
  | .dir es => es
  | _ => []

/--
An entry without what lies below it.
-/
def label : Node → Kind × Bytes
  | .file d => (.file, d)
  | .symlink target => (.symlink target, [])
  | .dir _ => (.dir, [])

def get : Node → Loc → Option Node
  | t, [] => some t
  | t, n :: l =>
    match t.entries.lookup n with
    | some c => c.get l
    | none => none

def removeEntry (n : Name) (es : List (Name × Node)) : List (Name × Node) :=
  es.filter (·.1 ≠ n)

/--
Replace the entry of that name or add one.
-/
def setEntry (n : Name) (c : Node) (es : List (Name × Node)) : List (Name × Node) :=
  (n, c) :: removeEntry n es

/--
Change what is at a location, `none` stands for nothing. Locations below anything but a directory
and the root itself are left alone.
-/
def alter (f : Option Node → Option Node) : Node → Loc → Node
  | .dir es, [n] =>
    match f (es.lookup n) with
    | some c => .dir (setEntry n c es)
    | none => .dir (removeEntry n es)
  | .dir es, n :: l =>
    match es.lookup n with
    | some c => .dir (setEntry n (c.alter f l) es)
    | none => .dir es
  | t, _ => t

mutual

/--
The locations below a node, a directory before what is in it.
-/
def descendants : Node → List Loc
  | .dir es => entryDescendants es
  | _ => []

def entryDescendants : List (Name × Node) → List Loc
  | [] => []
  | (n, c) :: es => [n] :: c.descendants.map (n :: ·) ++ entryDescendants es

end

end Node

/--
The tree below the root directory, and the working directory of the process.
-/
structure FileSystem where
  entries : List (Name × Node)
  cwd : Loc := []

namespace FileSystem

def root (fs : FileSystem) : Node := .dir fs.entries

def node (fs : FileSystem) (l : Loc) : Option Node := fs.root.get l

def kind (fs : FileSystem) (l : Loc) : Option Kind := (fs.node l).map Node.kind

/--
The data of the file at a location.
-/
def data (fs : FileSystem) (l : Loc) : Option Bytes :=
  match fs.node l with
  | some (.file d) => some d
  | _ => none

def alter (fs : FileSystem) (l : Loc) (f : Option Node → Option Node) : FileSystem :=
  { fs with entries := (fs.root.alter f l).entries }

def put (fs : FileSystem) (l : Loc) (n : Node) : FileSystem :=
  fs.alter l fun _ => some n

def remove (fs : FileSystem) (l : Loc) : FileSystem :=
  fs.alter l fun _ => none

/--
Where a resolution of `p` starts.
-/
def start (fs : FileSystem) (p : Bytes) : Loc :=
  if Path.isAbsolute p then [] else fs.cwd

def resolveElems (fs : FileSystem) (p : Bytes) (es : List Elem) : Except Errno Loc :=
  (resolve fs.kind false maxSymlinks (fs.start p) es).map Prod.fst

def resolve (fs : FileSystem) (p : Bytes) : Except Errno Loc :=
  if p.isEmpty then .error .enoent else fs.resolveElems p (Path.elems p)

/--
`std::filesystem::exists(p)`, only errors other than a missing component throw.
-/
def «exists» (fs : FileSystem) (p : Bytes) : Except Errno Bool :=
  match fs.resolve p with
  | .ok _ => .ok true
  | .error .enoent | .error .enotdir => .ok false
  | .error e => .error e

/--
Whether `p` leads to an entry of the given kind, symbolic links are followed.
-/
def hasKind (fs : FileSystem) (k : Kind) (p : Bytes) : Except Errno Bool :=
  match fs.resolve p with
  | .ok l => .ok (fs.kind l = some k)
  | .error .enoent | .error .enotdir => .ok false
  | .error e => .error e

def isRegularFile (fs : FileSystem) (p : Bytes) : Except Errno Bool :=
  fs.hasKind .file p

def isDirectory (fs : FileSystem) (p : Bytes) : Except Errno Bool :=
  fs.hasKind .dir p

/--
The location of the entry `p` names, a symbolic link in the last component is not followed.
-/
def lresolve (fs : FileSystem) (p : Bytes) : Except Errno Loc :=
  match (Path.elems p).getLast? with
  | some (.name n) => do
    let dir ← fs.resolveElems p (Path.elems p).dropLast
    if fs.kind dir ≠ some .dir then
      .error .enotdir
    else if fs.kind (dir ++ [n]) = none then
      .error .enoent
    else
      .ok (dir ++ [n])
  | _ => fs.resolve p

def isSymlink (fs : FileSystem) (p : Bytes) : Except Errno Bool :=
  match fs.lresolve p with
  | .ok l =>
    match fs.kind l with
    | some (.symlink _) => .ok true
    | _ => .ok false
  | .error .enoent | .error .enotdir => .ok false
  | .error e => .error e

/--
`std::filesystem::absolute(p)`, a working directory that was removed has no path.
-/
def absolute (fs : FileSystem) (p : Bytes) : Except Errno Bytes :=
  if p.isEmpty then
    .error .einval
  else if Path.isAbsolute p then
    .ok p
  else if fs.kind fs.cwd = some .dir then
    .ok (Path.append (Path.ofLoc fs.cwd) p)
  else
    .error .enoent

/--
Where the leading elements of a path that exist lead, and the elements that do not exist.
-/
def leading (fs : FileSystem) (p : Bytes) (seen : List Elem) : List Elem → Except Errno (Loc × List Elem)
  | [] => (fs.resolveElems p seen).map (·, [])
  | e :: es =>
    match fs.resolveElems p (seen ++ [e]) with
    | .ok _ => fs.leading p (seen ++ [e]) es
    | .error .enoent | .error .enotdir => (fs.resolveElems p seen).map (·, e :: es)
    | .error err => .error err

/--
`std::filesystem::weakly_canonical(p)` of an absolute path: the leading elements that exist are made
canonical, the others are appended and the result is normalised.
-/
def weaklyCanonical (fs : FileSystem) (p : Bytes) : Except Errno Bytes := do
  let (l, es) ← fs.leading p [] (Path.elems p)
  .ok (Path.normalise true (l.map .name ++ es)).render

/--
`std::filesystem::canonical(p)`.
-/
def canonical (fs : FileSystem) (p : Bytes) : Except Errno Bytes :=
  (fs.resolve p).map Path.ofLoc

def fileSize (fs : FileSystem) (p : Bytes) : Except Errno Nat := do
  let l ← fs.resolve p
  match fs.data l with
  | some d => .ok d.length
  | none => .error .eisdir

/--
What an `std::ifstream` on `p` reads.
-/
def read (fs : FileSystem) (p : Bytes) : Option Bytes :=
  match fs.resolve p with
  | .ok l => fs.data l
  | .error _ => none

/--
Create directories for `es` below `dir`, with the list of those created.
-/
def mkdirs (fs : FileSystem) (dir : Loc) : List Elem → Except Errno (FileSystem × List Loc)
  | [] => .ok (fs, [])
  | e :: es =>
    if fs.kind dir ≠ some .dir then
      .error .enotdir
    else
      match e with
      | .name n =>
        if fs.kind (dir ++ [n]) ≠ none then
          .error .eexist
        else do
          let (fs', made) ← (fs.put (dir ++ [n]) (.dir [])).mkdirs (dir ++ [n]) es
          .ok (fs', (dir ++ [n]) :: made)
      | .dotdot => fs.mkdirs dir.dropLast es
      | .dot | .empty => fs.mkdirs dir es

/--
`std::filesystem::create_directories(p)`, with the list of the directories created.
-/
def createDirectories (fs : FileSystem) (p : Bytes) : Except Errno (FileSystem × List Loc) := do
  let (l, es) ← fs.leading p [] (Path.elems p)
  fs.mkdirs l es

/--
`std::filesystem::create_directory(p)`: whether the directory was created, it is no error if there is
one already.
-/
def createDirectory (fs : FileSystem) (p : Bytes) : Except Errno Bool × FileSystem :=
  let occupied : Except Errno Bool :=
    match fs.isDirectory p with
    | .ok true => .ok false
    | _ => .error .eexist
  -- `mkdir` accepts a slash at the end of the new name
  let es := ((Path.elems p).reverse.dropWhile (· = .empty)).reverse
  match es.getLast? with
  | some (.name n) =>
    match fs.resolveElems p es.dropLast with
    | .error e => (.error e, fs)
    | .ok dir =>
      if fs.kind dir ≠ some .dir then
        (.error .enotdir, fs)
      else if fs.kind (dir ++ [n]) ≠ none then
        (occupied, fs)
      else
        (.ok true, fs.put (dir ++ [n]) (.dir []))
  | _ => (occupied, fs)

/--
Create the parent directory of a file unless it is there, with the directories created.
-/
def createParent (fs : FileSystem) (fullPath : Bytes) : Except Errno (FileSystem × List Loc) := do
  let parent := Path.parentPath fullPath
  if parent.isEmpty then
    .ok (fs, [])
  else if ← fs.exists parent then
    .ok (fs, [])
  else
    fs.createDirectories parent

/--
Open `p` for writing with `O_CREAT | O_TRUNC`: the file and its location.
-/
def openWrite (fs : FileSystem) (p : Bytes) : Except Errno (FileSystem × Loc) := do
  let (l, _) ← SimpleRsyncd.resolve fs.kind true maxSymlinks (fs.start p) (Path.elems p)
  if fs.kind l = some .dir then
    .error .eisdir
  else
    .ok (fs.put l (.file []), l)

/--
Write at the end of an open file.
-/
def appendData (fs : FileSystem) (l : Loc) (d : Bytes) : FileSystem :=
  match fs.data l with
  | some old => fs.put l (.file (old ++ d))
  | none => fs

/--
Write into an open file at an offset. A gap behind the end of the file is filled with zeros.
-/
def writeAt (fs : FileSystem) (l : Loc) (offset : Nat) (d : Bytes) : FileSystem :=
  match fs.data l with
  | some old =>
    let before := old.take offset ++ List.replicate (offset - old.length) 0
    fs.put l (.file (before ++ d ++ old.drop (offset + d.length)))
  | none => fs

/--
`std::filesystem::copy_file(src, dst)`, `canRead` and `canWrite` are about permissions.
-/
def copyFile (fs : FileSystem) (canRead canWrite : Bool) (src dst : Bytes) (overwrite : Bool)
    : Except Errno Unit × FileSystem :=
  let checked : Except Errno Bytes := do
    match fs.resolve dst with
    | .error .enoent | .error .enotdir => .ok ()
    | .error e => .error e
    | .ok l =>
      if (← fs.resolve src) = l || !overwrite then
        .error .eexist
      else if fs.kind l = some .file then
        .ok ()
      else
        .error .enotsup
    let l ← fs.resolve src
    if !canRead then
      .error .eacces
    else
      match fs.data l with
      | none => .error .enotsup
      | some content =>
        -- with `O_EXCL` a symbolic link that leads nowhere is in the way
        if !overwrite && (fs.lresolve dst).isOk then .error .eexist else .ok content
  match checked with
  | .error e => (.error e, fs)
  | .ok content =>
    match canWrite, fs.openWrite dst with
    | true, .ok (fs, l) => (.ok (), fs.appendData l content)
    | true, .error e => (.error e, fs)
    | false, _ => (.error .eacces, fs)

/--
`std::filesystem::rename(src, dst)`, both entries are taken without following a last symbolic link.
-/
def rename (fs : FileSystem) (src dst : Bytes) : Except Errno FileSystem := do
  let l ← fs.lresolve src
  let dir ← fs.resolveElems dst (Path.elems dst).dropLast
  match (Path.elems dst).getLast?, fs.node l with
  | some (.name n), some moved =>
    if fs.kind dir ≠ some .dir then
      .error .enotdir
    else
      match moved.kind, fs.kind (dir ++ [n]) with
      | .dir, some .dir =>
        if (fs.node (dir ++ [n])).any (·.entries.isEmpty) then
          .ok ((fs.remove l).put (dir ++ [n]) moved)
        else
          .error .enotempty
      | .dir, some _ => .error .enotdir
      | .dir, none =>
        -- a directory cannot be moved below itself
        if l <+: dir ++ [n] then .error .einval else .ok ((fs.remove l).put (dir ++ [n]) moved)
      | _, some .dir => .error .eisdir
      | _, _ => if l = dir ++ [n] then .ok fs else .ok ((fs.remove l).put (dir ++ [n]) moved)
  | _, _ => .error .einval

/--
`std::filesystem::remove(p)`: whether something was removed. A directory has to be empty.
-/
def removePath (fs : FileSystem) (p : Bytes) : Except Errno Bool × FileSystem :=
  match fs.lresolve p with
  | .ok l =>
    if l.isEmpty then
      (.error .ebusy, fs)
    else if (fs.node l).any (!·.entries.isEmpty) then
      (.error .enotempty, fs)
    else
      (.ok true, fs.remove l)
  | .error .enoent | .error .enotdir => (.ok false, fs)
  | .error e => (.error e, fs)

/--
`std::filesystem::remove_all(p) > 0`, the root directory itself cannot be removed.
-/
def removeAll (fs : FileSystem) (p : Bytes) : Except Errno Bool × FileSystem :=
  match fs.lresolve p with
  | .ok l =>
    if l.isEmpty then
      (.error .ebusy, { fs with entries := [] })
    else
      (.ok true, fs.remove l)
  | .error .enoent | .error .enotdir => (.ok false, fs)
  | .error e => (.error e, fs)

/--
The iteration of `std::filesystem::directory_iterator(p)`, or of its recursive version, which does
not descend into symbolic links.
-/
def directoryEntries (fs : FileSystem) (p : Bytes) (recursive : Bool) : Except Errno (List Loc) := do
  let l ← fs.resolve p
  match fs.node l with
  | some (.dir es) => .ok (if recursive then Node.entryDescendants es else es.map fun e => [e.1])
  | _ => .error .enotdir

end FileSystem
end SimpleRsyncd
