import SimpleRsyncd.Module.FileSystemModule

/-!
This module contains the operations of `FileSystemModule` that no request uses, and all of its
operations as one type. Times are left out of the results.
-/

namespace SimpleRsyncd

structure TransferResult where
  success : Bool := false
  errorMessage : Bytes := []
  filesTransferred : Nat := 0
  failedTransfers : Nat := 0
  transferredFiles : List Bytes := []
  failedFiles : List Bytes := []
  deriving DecidableEq

namespace Module

variable (m : Module) (host : Host) (fs : FileSystem)

/--
Whether a test file can be created next to the path, or in the root if there is no such directory.
The test file is removed again.
-/
def checkWritePermission (path : Bytes) : Except Errno Bool × FileSystem :=
  let target : Except Errno (Option Bytes) := do
    if m.isReadOnly then
      .ok none
    else
      let resolved ← m.resolvePath fs path
      if resolved.isEmpty then
        .ok none
      else
        let parent := Path.parentPath resolved
        if parent.isEmpty then
          .ok (some m.config.path)
        else if ← fs.exists parent then
          .ok (some parent)
        else
          .ok (some m.config.path)
  match target with
  | .error e => (.error e, fs)
  | .ok none => (.ok false, fs)
  | .ok (some dir) =>
    let testPath := Path.append dir (bytes ".rsyncd_write_test")
    match host.canWrite testPath, fs.openWrite testPath with
    | true, .ok (fs, _) =>
      match fs.removePath testPath with
      | (.error e, fs) => (.error e, fs)
      | (.ok _, fs) => (.ok true, fs)
    | _, _ => (.ok false, fs)

def createDirectory (path : Bytes) (recursive : Bool) : Except Errno Bool × FileSystem :=
  if m.isReadOnly then
    (.ok false, fs)
  else
    match m.checkWritePermission host fs path with
    | (.error e, fs) => (.error e, fs)
    | (.ok false, fs) => (.ok false, fs)
    | (.ok true, fs) =>
      match m.resolveSafe fs path with
      | .error e => (.error e, fs)
      | .ok none => (.ok false, fs)
      | .ok (some fullPath) =>
        if recursive then
          match fs.createDirectories fullPath with
          | .ok (fs, made) => (.ok !made.isEmpty, fs)
          | .error _ => (.ok false, fs)
        else
          match fs.createDirectory fullPath with
          | (.ok created, fs) => (.ok created, fs)
          | (.error _, fs) => (.ok false, fs)

/--
The copy of a transfer with the directory it goes to, `what` is the text of the exception it ends with.
-/
def transfer (source target path : Bytes) (overwrite : Bool) : TransferResult × FileSystem :=
  let failed (e : Errno) : TransferResult :=
    { errorMessage := host.what e, failedTransfers := 1, failedFiles := [path] }
  match fs.createParent target with
  | .error e => (failed e, fs)
  | .ok (fs, _) =>
    match fs.copyFile (host.canRead source) (host.canWrite target) source target overwrite with
    | (.error e, fs) => (failed e, fs)
    | (.ok (), fs) => ({ success := true, filesTransferred := 1, transferredFiles := [path] }, fs)

def transferFile (localPath remotePath : Bytes) (overwrite : Bool) : Except Errno TransferResult × FileSystem :=
  if m.isReadOnly then
    (.ok { errorMessage := bytes "Module is read-only" }, fs)
  else
    match m.checkWritePermission host fs remotePath with
    | (.error e, fs) => (.error e, fs)
    | (.ok false, fs) => (.ok { errorMessage := bytes "Write permission denied" }, fs)
    | (.ok true, fs) =>
      match if overwrite then .ok false else m.fileExists fs remotePath with
      | .error e => (.error e, fs)
      | .ok true => (.ok { errorMessage := bytes "File already exists and overwrite not allowed" }, fs)
      | .ok false =>
        match m.resolveSafe fs remotePath with
        | .error e => (.error e, fs)
        | .ok none => (.ok { errorMessage := bytes "Invalid path or path outside module root" }, fs)
        | .ok (some fullPath) =>
          let (result, fs) := transfer host fs localPath fullPath remotePath overwrite
          (.ok result, fs)

def receiveFile (remotePath localPath : Bytes) : Except Errno TransferResult × FileSystem :=
  let source : Except Errno (Except Bytes Bytes) := do
    if ← m.checkReadPermission host fs remotePath then
      match ← m.resolveSafe fs remotePath with
      | some fullPath =>
        if ← m.fileExists fs remotePath then
          .ok (.ok fullPath)
        else
          .ok (.error (bytes "File does not exist or invalid path"))
      | none => .ok (.error (bytes "File does not exist or invalid path"))
    else
      .ok (.error (bytes "Read permission denied"))
  match source with
  | .error e => (.error e, fs)
  | .ok (.error errorMessage) => (.ok { errorMessage }, fs)
  | .ok (.ok fullPath) =>
    let (result, fs) := transfer host fs fullPath localPath remotePath true
    (.ok result, fs)

/--
A call of one of the operations.
-/
inductive Operation where
  | listDirectory (path : Bytes) (recursive : Bool)
  | getFileInfo (path : Bytes)
  | fileExists (path : Bytes)
  | directoryExists (path : Bytes)
  | createDirectory (path : Bytes) (recursive : Bool)
  | deleteFile (path : Bytes)
  | deleteDirectory (path : Bytes) (recursive : Bool)
  | transferFile (localPath remotePath : Bytes) (overwrite : Bool)
  | receiveFile (remotePath localPath : Bytes)

inductive Outcome where
  | listing (listing : DirectoryListing)
  | info (info : FileInfo)
  | flag (flag : Bool)
  | result (result : TransferResult)
  deriving DecidableEq

def Operation.run : Operation → Except Errno Outcome × FileSystem
  | .listDirectory path recursive => ((m.listDirectory host fs path recursive).map .listing, fs)
  | .getFileInfo path => ((m.getFileInfo host fs path).map .info, fs)
  | .fileExists path => ((m.fileExists fs path).map .flag, fs)
  | .directoryExists path => ((m.directoryExists fs path).map .flag, fs)
  | .createDirectory path recursive => (m.createDirectory host fs path recursive).map (.map .flag) id
  | .deleteFile path => (m.deleteFile fs path).map (.map .flag) id
  | .deleteDirectory path recursive => (m.deleteDirectory fs path recursive).map (.map .flag) id
  | .transferFile localPath remotePath overwrite =>
    (m.transferFile host fs localPath remotePath overwrite).map (.map .result) id
  | .receiveFile remotePath localPath => (m.receiveFile host fs remotePath localPath).map (.map .result) id

end Module
end SimpleRsyncd
