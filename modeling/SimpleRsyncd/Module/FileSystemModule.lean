import Mathlib.Algebra.Group.Nat.Defs
import SimpleRsyncd.Module.Basic

/-!
This module contains the operations of `FileSystemModule` that requests use. Fields of the listing
and of the file information that no response shows are left out.
-/

namespace SimpleRsyncd

/--
What the host answers during one call: which files an `std::ifstream` and an `std::ofstream` can open,
what an uninitialised size holds and the text of an exception.
-/
structure Host where
  canRead : Bytes → Bool := fun _ => true
  canWrite : Bytes → Bool := fun _ => true
  uninit : Nat := 0
  what : Errno → Bytes := fun _ => []

structure FileInfo where
  name : Bytes := []
  path : Bytes := []
  type : Int := 0
  size : Nat
  isSymlink : Bool := false
  deriving DecidableEq

structure DirectoryListing where
  path : Bytes
  files : List FileInfo := []
  directories : List FileInfo := []
  symlinks : List FileInfo := []
  other : List FileInfo := []
  totalFiles : Nat := 0
  totalDirectories : Nat := 0
  totalSymlinks : Nat := 0
  totalOther : Nat := 0
  totalSize : Nat := 0
  deriving DecidableEq

namespace Module

variable (m : Module) (host : Host) (fs : FileSystem)

/--
The value of `std::filesystem::file_type`.
-/
def fileType : Option Kind → Int
  | none => -1
  | some .file => 1
  | some .dir => 2
  | some (.symlink _) => 3

def checkReadPermission (path : Bytes) : Except Errno Bool := do
  let resolved ← m.resolvePath fs path
  if resolved.isEmpty then
    .ok false
  else if !(← fs.exists resolved) then
    .ok false
  else if ← fs.isDirectory resolved then
    .ok true
  else if ← fs.isRegularFile resolved then
    .ok (host.canRead resolved)
  else
    .ok false

def checkDeletePermission (path : Bytes) : Except Errno Bool :=
  if !m.allowsDeletion || m.isReadOnly then
    .ok false
  else do
    let resolved ← m.resolvePath fs path
    if resolved.isEmpty then
      .ok false
    else
      fs.exists resolved

/--
`resolvePath(path)` if it is not empty and the path is safe.
-/
def resolveSafe (path : Bytes) : Except Errno (Option Bytes) := do
  let fullPath ← m.resolvePath fs path
  if fullPath.isEmpty then
    .ok none
  else if ← m.isPathSafe fs path then
    .ok (some fullPath)
  else
    .ok none

/--
The body of `getFileInfo` once the path is resolved, an exception leaves what was filled in so far.
-/
def describe (fullPath : Bytes) : FileInfo :=
  match fs.exists fullPath, fs.resolve fullPath with
  | .ok true, .ok l =>
    {
      name := Path.filename fullPath
      path := fullPath
      type := fileType (fs.kind l)
      size := ((fs.data l).map List.length).getD 0
      isSymlink := (fs.isSymlink fullPath).toOption.getD false
    }
  | _, _ => { size := host.uninit }

def getFileInfo (path : Bytes) : Except Errno FileInfo := do
  if ← m.checkReadPermission host fs path then
    match ← m.resolveSafe fs path with
    | some fullPath => .ok (describe host fs fullPath)
    | none => .ok { size := host.uninit }
  else
    .ok { size := host.uninit }

/--
Whether a non-empty safe path leads to an entry of the given kind.
-/
def entryExists (k : Kind) (path : Bytes) : Except Errno Bool :=
  if path.isEmpty then
    .ok false
  else do
    match ← m.resolveSafe fs path with
    | some fullPath =>
      if ← fs.exists fullPath then fs.hasKind k fullPath else .ok false
    | none => .ok false

def fileExists (path : Bytes) : Except Errno Bool :=
  m.entryExists fs .file path

def directoryExists (path : Bytes) : Except Errno Bool :=
  m.entryExists fs .dir path

/--
One directory entry, it is skipped if an exception is thrown. Only a regular file gets a size.
-/
def addFileInfo (listing : DirectoryListing) (entry : Bytes) : DirectoryListing :=
  let info : FileInfo := { name := Path.filename entry, path := entry, size := host.uninit }
  let counted (listing : DirectoryListing) (size : Nat) : DirectoryListing :=
    { listing with totalSize := (listing.totalSize + size) % 2 ^ 64 }
  match fs.exists entry with
  | .error _ => listing
  | .ok true =>
    match fs.resolve entry with
    | .error _ => listing
    | .ok l =>
      match fs.data l with
      | some d =>
        let info := { info with type := fileType (fs.kind l), size := d.length }
        counted
          { listing with files := listing.files ++ [info], totalFiles := listing.totalFiles + 1 }
          info.size
      | none =>
        let info := { info with type := fileType (fs.kind l) }
        counted
          {
            listing with
            directories := listing.directories ++ [info]
            totalDirectories := listing.totalDirectories + 1
          }
          info.size
  | .ok false =>
    let info := { info with type := fileType none }
    match fs.isSymlink entry with
    | .error _ => listing
    | .ok true =>
      counted
        {
          listing with
          symlinks := listing.symlinks ++ [{ info with isSymlink := true }]
          totalSymlinks := listing.totalSymlinks + 1
        }
        info.size
    | .ok false =>
      counted
        { listing with other := listing.other ++ [info], totalOther := listing.totalOther + 1 }
        info.size

def listDirectory (path : Bytes) (recursive : Bool) : Except Errno DirectoryListing := do
  if ← m.checkReadPermission host fs path then
    match ← m.resolveSafe fs path with
    | some fullPath =>
      match fs.directoryEntries fullPath recursive with
      | .ok entries =>
        .ok <| entries.foldl
          (fun listing l => addFileInfo host fs listing (l.foldl (fun p n => Path.append p n.toBytes) fullPath))
          { path }
      | .error _ => .ok { path }
    | none => .ok { path }
  else
    .ok { path }

/--
The checks in front of a deletion, and the deletion with its exceptions caught.
-/
def deleteChecked (path : Bytes) (delete : Bytes → Except Errno Bool × FileSystem)
    : Except Errno Bool × FileSystem :=
  let target : Except Errno (Option Bytes) := do
    if m.isReadOnly || !m.allowsDeletion then
      .ok none
    else if ← m.checkDeletePermission fs path then
      m.resolveSafe fs path
    else
      .ok none
  match target with
  | .error e => (.error e, fs)
  | .ok none => (.ok false, fs)
  | .ok (some fullPath) =>
    match delete fullPath with
    | (.ok b, fs) => (.ok b, fs)
    | (.error _, fs) => (.ok false, fs)

def deleteFile (path : Bytes) : Except Errno Bool × FileSystem :=
  m.deleteChecked fs path fun fullPath =>
    match fs.isRegularFile fullPath with
    | .ok true => fs.removePath fullPath
    | .ok false => (.ok false, fs)
    | .error e => (.error e, fs)

def deleteDirectory (path : Bytes) (recursive : Bool) : Except Errno Bool × FileSystem :=
  m.deleteChecked fs path fun fullPath =>
    if recursive then fs.removeAll fullPath else fs.removePath fullPath

/--
Whether the root of the module is a directory.
-/
def validate : Except Errno Bool :=
  if m.config.path.isEmpty then
    .ok false
  else do
    if ← fs.exists m.config.path then fs.isDirectory m.config.path else .ok false

end Module
end SimpleRsyncd
