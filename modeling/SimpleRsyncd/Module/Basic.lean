import SimpleRsyncd.Bytes.Order
import SimpleRsyncd.FileSystem.Basic

/-!
This module contains the base class `Module`: how a request path is resolved against the root of a
module and which paths count as safe. A function that throws returns the error code.
-/

namespace SimpleRsyncd

@[ext]
structure ModuleConfig where
  name : Bytes := []
  path : Bytes := []
  comment : Bytes := []
  readOnly : Bool := false
  list : Bool := true
  allowDelete : Bool := false
  overwrite : Bool := false
  excludePatterns : List Bytes := []
  includePatterns : List Bytes := []
  preTransferScript : Bytes := []
  postTransferScript : Bytes := []
  preDeleteScript : Bytes := []
  postDeleteScript : Bytes := []
  preListScript : Bytes := []
  postListScript : Bytes := []
  allowSymlinks : Bool := false
  allowHardlinks : Bool := false
  customOptions : OrderedMap Bytes Bytes := .empty
  deriving DecidableEq

structure Module where
  config : ModuleConfig
  deriving DecidableEq

namespace Module

variable (m : Module) (fs : FileSystem)

def getPath : Bytes := m.config.path

def isReadOnly : Bool := m.config.readOnly

def allowsListing : Bool := m.config.list

def allowsDeletion : Bool := m.config.allowDelete

/--
Walk along the parts of a relative path and look for symbolic links, `true` means none was found.
An absolute operand starts over at the root directory, as `walk /= part` does.
-/
def symlinkWalk (walk : Bytes) : List Bytes → Except Errno Bool
  | [] => .ok true
  | part :: parts =>
    if part = bytes "." || part.isEmpty then
      symlinkWalk walk parts
    else if part = dotDot then
      .ok false
    else do
      let walk := Path.append walk part
      if ← fs.exists walk then
        if ← fs.isSymlink walk then .ok false else symlinkWalk walk parts
      else
        symlinkWalk walk parts

/--
The symbolic link policy, links below the root are only looked for if they are not allowed.
-/
def linkFree (baseAbsolute path : Bytes) : Except Errno Bool :=
  if m.config.allowSymlinks then
    .ok true
  else
    symlinkWalk fs baseAbsolute (Path.elements path)

/--
The last check of `resolvePath`, an exception inside it is caught.
-/
def checkCanonical (baseAbsolute resolvedAbsolute : Bytes) : Bytes :=
  match fs.weaklyCanonical resolvedAbsolute, fs.weaklyCanonical baseAbsolute with
  | .ok canonical, .ok baseCanonical =>
    if Bytes.startsWith canonical baseCanonical then canonical else []
  | _, _ => resolvedAbsolute

/--
`base_path / relative_path` in normal form.
-/
def joinPath (path : Bytes) : Bytes :=
  Path.lexicallyNormal (Path.append m.config.path path)

def resolvePath (path : Bytes) : Except Errno Bytes :=
  if path.isEmpty then
    .ok m.config.path
  else do
    let baseAbsolute ← fs.absolute m.config.path
    let resolvedAbsolute ← fs.absolute (m.joinPath path)
    if !Bytes.startsWith resolvedAbsolute baseAbsolute then
      .ok []
    else if Bytes.contains resolvedAbsolute dotDot then
      .ok []
    else if ← m.linkFree fs baseAbsolute path then
      .ok (checkCanonical fs baseAbsolute resolvedAbsolute)
    else
      .ok []

def isPathTraversal (path : Bytes) : Except Errno Bool :=
  if Bytes.contains path dotDot then
    .ok true
  else if Bytes.contains path (bytes "/../") then
    .ok true
  else if Bytes.startsWith path (bytes "../") then
    .ok true
  else do
    let resolved ← m.resolvePath fs path
    .ok resolved.isEmpty

def isPathSafe (path : Bytes) : Except Errno Bool := do
  if ← m.isPathTraversal fs path then
    .ok false
  else
    let resolved ← m.resolvePath fs path
    .ok (!resolved.isEmpty)

end Module
end SimpleRsyncd
