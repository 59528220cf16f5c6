import SimpleRsyncd.Module.FileSystemModule
import SimpleRsyncd.Protocol.Parser

/-!
This module contains `ProtocolHandler`: the answer to each request, and what a request does to the
file system. An exception that a handler does not catch is returned as an error.
-/

namespace SimpleRsyncd

structure ProtocolHandler where
  currentModule : Bytes := []
  modules : Bytes → Option Module

namespace ProtocolHandler

open ProtocolParser

variable (h : ProtocolHandler) (host : Host) (message : ProtocolMessage) (fs : FileSystem)

def setModule (moduleName : Bytes) : ProtocolHandler :=
  { h with currentModule := moduleName }

def getCurrentModule : Bytes := h.currentModule

def getModule (moduleName : Bytes) : Option Module := h.modules moduleName

/--
The module name of a request, the current module stands in for an empty one.
-/
def moduleName (name : Bytes) : Bytes :=
  if name.isEmpty then h.currentModule else name

def moduleNotFound (moduleName : Bytes) : Bytes :=
  buildErrorResponse 1 (bytes "Module not found: " ++ moduleName)

/--
`catch (const std::exception& e)`: error 3 with the text of the exception.
-/
def caught (doing : Bytes) (e : Errno) : Bytes :=
  buildErrorResponse 3 (bytes "Error " ++ doing ++ bytes ": " ++ host.what e)

def formatListing (listing : DirectoryListing) : Bytes :=
  bytes "@RSYNCD: OK\n"
    ++ bytes "Path: " ++ listing.path ++ bytes "\n"
    ++ bytes "Files: " ++ Bytes.ofNat listing.totalFiles ++ bytes "\n"
    ++ bytes "Directories: " ++ Bytes.ofNat listing.totalDirectories ++ bytes "\n"
    ++ bytes "Total size: " ++ Bytes.ofNat listing.totalSize ++ bytes "\n"
    ++ (listing.files.flatMap fun file =>
      bytes "F " ++ file.name ++ bytes " " ++ Bytes.ofNat file.size ++ bytes "\n")
    ++ (listing.directories.flatMap fun dir => bytes "D " ++ dir.name ++ bytes "\n")

def handleList : Bytes :=
  let moduleName := h.moduleName message.module
  match h.getModule moduleName with
  | none => moduleNotFound moduleName
  | some m =>
    if !m.allowsListing then
      buildErrorResponse 2 (bytes "Listing not allowed for module: " ++ moduleName)
    else
      let recursive := (message.arguments.lookup (bytes "recursive")).isSome
      match m.listDirectory host fs message.path recursive with
      | .ok listing => formatListing listing
      | .error e => caught host (bytes "listing directory") e

/--
The header in front of the data of a file.
-/
def formatFile (info : FileInfo) : Bytes :=
  bytes "@RSYNCD: OK\n"
    ++ bytes "File: " ++ info.name ++ bytes "\n"
    ++ bytes "Size: " ++ Bytes.ofNat info.size ++ bytes "\n"
    ++ bytes "Path: " ++ info.path ++ bytes "\n"
    ++ bytes "Ready for transfer\n"

def handleGet : Except Errno Bytes :=
  let moduleName := h.moduleName message.module
  match h.getModule moduleName with
  | none => .ok (moduleNotFound moduleName)
  | some m =>
    -- this check is not inside the `try` block
    match m.fileExists fs message.path with
    | .error e => .error e
    | .ok false => .ok (buildErrorResponse 4 (bytes "File not found: " ++ message.path))
    | .ok true =>
      match m.getFileInfo host fs message.path with
      | .ok info => .ok (formatFile info)
      | .error e => .ok (caught host (bytes "getting file") e)

def readyToReceive (path : Bytes) : Bytes :=
  bytes "@RSYNCD: OK\n"
    ++ bytes "Ready to receive file: " ++ path ++ bytes "\n"
    ++ bytes "Send file data\n"

def handlePut : Bytes :=
  let moduleName := h.moduleName message.module
  match h.getModule moduleName with
  | none => moduleNotFound moduleName
  | some m =>
    if m.isReadOnly then
      buildErrorResponse 5 (bytes "Module is read-only: " ++ moduleName)
    else
      readyToReceive message.path

/--
What is deleted, `none` if there is nothing at the path.
-/
def delete (m : Module) : Except Errno (Option Bool) × FileSystem :=
  match m.fileExists fs message.path with
  | .error e => (.error e, fs)
  | .ok true =>
    let (deleted, fs) := m.deleteFile fs message.path
    (deleted.map some, fs)
  | .ok false =>
    match m.directoryExists fs message.path with
    | .error e => (.error e, fs)
    | .ok true =>
      let recursive := (message.arguments.lookup (bytes "recursive")).isSome
      let (deleted, fs) := m.deleteDirectory fs message.path recursive
      (deleted.map some, fs)
    | .ok false => (.ok none, fs)

def handleDelete : Bytes × FileSystem :=
  let moduleName := h.moduleName message.module
  match h.getModule moduleName with
  | none => (moduleNotFound moduleName, fs)
  | some m =>
    if m.isReadOnly || !m.allowsDeletion then
      (buildErrorResponse 5 (bytes "Deletion not allowed for module: " ++ moduleName), fs)
    else
      match delete message fs m with
      | (.ok none, fs) => (buildErrorResponse 4 (bytes "Path not found: " ++ message.path), fs)
      | (.ok (some true), fs) => (buildResponse true (bytes "Deleted: " ++ message.path), fs)
      | (.ok (some false), fs) =>
        (buildErrorResponse 6 (bytes "Failed to delete: " ++ message.path), fs)
      | (.error e, fs) => (caught host (bytes "deleting") e, fs)

def formatStat (info : FileInfo) : Bytes :=
  bytes "@RSYNCD: OK\n"
    ++ bytes "Name: " ++ info.name ++ bytes "\n"
    ++ bytes "Path: " ++ info.path ++ bytes "\n"
    ++ bytes "Size: " ++ Bytes.ofNat info.size ++ bytes "\n"
    ++ bytes "Type: " ++ Bytes.ofInt info.type ++ bytes "\n"
    ++ bytes "Is symlink: " ++ bytes (if info.isSymlink then "yes" else "no") ++ bytes "\n"

def handleStat : Bytes :=
  let moduleName := h.moduleName message.module
  match h.getModule moduleName with
  | none => moduleNotFound moduleName
  | some m =>
    match m.getFileInfo host fs message.path with
    | .error e => caught host (bytes "getting file stats") e
    | .ok info =>
      if info.path.isEmpty then
        buildErrorResponse 4 (bytes "File not found: " ++ message.path)
      else
        formatStat info

def handle : Except Errno Bytes × FileSystem :=
  if !message.valid then
    (.ok (buildErrorResponse (-1) (bytes "Invalid protocol message")), fs)
  else
    match message.command with
    | .list => (.ok (h.handleList host message fs), fs)
    | .get => (h.handleGet host message fs, fs)
    | .put => (.ok (h.handlePut message), fs)
    | .delete =>
      let (response, fs) := h.handleDelete host message fs
      (.ok response, fs)
    | .stat => (.ok (h.handleStat host message fs), fs)
    | .auth | .unknown => (.ok (buildErrorResponse (-1) (bytes "Unknown command")), fs)

/--
How a response can begin.
-/
def heads : List Bytes :=
  [
    bytes "@RSYNCD: ERROR ",
    bytes "@RSYNCD: OK\nPath: ",
    bytes "@RSYNCD: OK\nFile: ",
    bytes "@RSYNCD: OK\nReady to receive file: ",
    bytes "@RSYNCD: OK\nDeleted: ",
    bytes "@RSYNCD: OK\nName: ",
    bytes "@RSYNCD: OK\nAuthenticat"
  ]

def HasHead (response : Bytes) : Prop :=
  ∃ head ∈ heads, head <+: response

theorem hasHead_error (code : Int) (text : Bytes) : HasHead (buildErrorResponse code text) := by
  refine ⟨bytes "@RSYNCD: ERROR ", by decide, ?_⟩
  simp only [buildErrorResponse, formatError, List.append_assoc]
  apply List.prefix_append

theorem hasHead_success (head : Bytes) {text : Bytes} (hhead : bytes "@RSYNCD: OK\n" ++ head ∈ heads)
    (htext : head <+: text)
    : HasHead (buildResponse true text) := by
  obtain ⟨rest, rfl⟩ := htext
  refine ⟨_, hhead, ?_⟩
  simp only [buildResponse, formatSuccess, ↓reduceIte, ← List.append_assoc]
  rw [List.append_assoc _ rest]
  apply List.prefix_append

/--
What an error says about the module or about the path that follows, or about the exception behind it.
-/
def moduleLabels : List Bytes :=
  [
    bytes "Module not found: ",
    bytes "Listing not allowed for module: ",
    bytes "Module is read-only: ",
    bytes "Deletion not allowed for module: "
  ]

def pathLabels : List Bytes :=
  [bytes "File not found: ", bytes "Path not found: ", bytes "Failed to delete: "]

def caughtLabels : List Bytes :=
  [
    bytes "Error listing directory: ",
    bytes "Error getting file: ",
    bytes "Error deleting: ",
    bytes "Error getting file stats: "
  ]

def okLabels : List Bytes :=
  [bytes "Path: ", bytes "File: ", bytes "Ready to receive file: ", bytes "Deleted: ", bytes "Name: "]

/--
All the ways to answer a request for the module and the path.
-/
inductive Reply (host : Host) (moduleName path : Bytes) : Bytes → Prop where
  | ofModule (code : Int) {label : Bytes} (h : label ∈ moduleLabels)
    : Reply host moduleName path (buildErrorResponse code (label ++ moduleName))
  | ofPath (code : Int) {label : Bytes} (h : label ∈ pathLabels)
    : Reply host moduleName path (buildErrorResponse code (label ++ path))
  | caught {label : Bytes} (h : label ∈ caughtLabels) (e : Errno)
    : Reply host moduleName path (buildErrorResponse 3 (label ++ host.what e))
  | refused {text : Bytes} (h : text ∈ [bytes "Invalid protocol message", bytes "Unknown command"])
    : Reply host moduleName path (buildErrorResponse (-1) text)
  | ok {label : Bytes} (h : label ∈ okLabels) (rest : Bytes)
    : Reply host moduleName path (bytes "@RSYNCD: OK\n" ++ (label ++ rest))

theorem Reply.hasHead {moduleName path response : Bytes} (h : Reply host moduleName path response)
    : HasHead response := by
  have hheads : ∀ label ∈ okLabels, bytes "@RSYNCD: OK\n" ++ label ∈ heads := by decide
  cases h with
  | ofModule | ofPath | caught | refused => apply hasHead_error
  | ok hlabel rest =>
    refine ⟨_, hheads _ hlabel, ?_⟩
    rw [← List.append_assoc]
    apply List.prefix_append

theorem reply_moduleNotFound (moduleName path : Bytes) : Reply host moduleName path (moduleNotFound moduleName) :=
  .ofModule 1 (by decide)

theorem reply_handleList : Reply host (h.moduleName message.module) message.path (h.handleList host message fs) := by
  unfold handleList
  dsimp only
  split
  . apply reply_moduleNotFound
  . split
    . exact .ofModule 2 (by decide)
    . split
      . simp only [formatListing, List.append_assoc]
        exact .ok (by decide) _
      . exact .caught (by decide) _

theorem reply_handleGet {response : Bytes} (heq : h.handleGet host message fs = .ok response)
    : Reply host (h.moduleName message.module) message.path response := by
  unfold handleGet at heq
  dsimp only at heq
  split at heq
  . obtain rfl := Except.ok.inj heq
    apply reply_moduleNotFound
  . split at heq
    . contradiction
    . obtain rfl := Except.ok.inj heq
      exact .ofPath 4 (by decide)
    . split at heq
      . obtain rfl := Except.ok.inj heq
        simp only [formatFile, List.append_assoc]
        exact .ok (by decide) _
      . obtain rfl := Except.ok.inj heq
        exact .caught (by decide) _

theorem reply_handlePut : Reply host (h.moduleName message.module) message.path (h.handlePut message) := by
  unfold handlePut
  dsimp only
  split
  . apply reply_moduleNotFound
  . split
    . exact .ofModule 5 (by decide)
    . simp only [readyToReceive, List.append_assoc]
      exact .ok (by decide) _

theorem reply_handleDelete
    : Reply host (h.moduleName message.module) message.path (h.handleDelete host message fs).1 := by
  unfold handleDelete
  dsimp only
  split
  . apply reply_moduleNotFound
  . split
    . exact .ofModule 5 (by decide)
    . split
      . exact .ofPath 4 (by decide)
      . simp only [buildResponse, formatSuccess, if_true, List.append_assoc]
        exact .ok (by decide) _
      . exact .ofPath 6 (by decide)
      . exact .caught (by decide) _

theorem reply_handleStat : Reply host (h.moduleName message.module) message.path (h.handleStat host message fs) := by
  unfold handleStat
  dsimp only
  split
  . apply reply_moduleNotFound
  . split
    . exact .caught (by decide) _
    . split
      . exact .ofPath 4 (by decide)
      . simp only [formatStat, List.append_assoc]
        exact .ok (by decide) _

theorem reply_handle {response : Bytes} (heq : (h.handle host message fs).1 = .ok response)
    : Reply host (h.moduleName message.module) message.path response := by
  unfold handle at heq
  split at heq
  . obtain rfl := Except.ok.inj heq
    exact .refused (by decide)
  . split at heq
    . obtain rfl := Except.ok.inj heq
      apply reply_handleList
    . exact h.reply_handleGet host message fs heq
    . obtain rfl := Except.ok.inj heq
      apply reply_handlePut
    . obtain rfl := Except.ok.inj heq
      apply reply_handleDelete
    . obtain rfl := Except.ok.inj heq
      apply reply_handleStat
    all_goals
      obtain rfl := Except.ok.inj heq
      exact .refused (by decide)

end ProtocolHandler
end SimpleRsyncd
