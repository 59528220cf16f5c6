import SimpleRsyncd.Session.Basic

/-!
This module contains the file transfers of an `RSyncSession`: starting an upload or a download and
continuing it chunk by chunk.
-/

namespace SimpleRsyncd

/--
Subtraction on `size_t`.
-/
def sizeSub (a b : Nat) : Nat :=
  if b ≤ a then a - b else a + 2 ^ 64 - b

def chunkSize : Nat := 8192

def transferComplete : Bytes := bytes "@RSYNCD: OK\nTransfer complete\n"

def uploadComplete : Bytes := bytes "@RSYNCD: OK\nFile uploaded successfully\n"

def tempPath (path : Bytes) : Bytes := path ++ bytes ".tmp"

namespace Module

/--
Open the temporary file of an upload: the directories created on the way and where the open file is,
`none` if it cannot be opened. The path is put together without `resolvePath`.
-/
def openTemp (m : Module) (canOpen : Bool) (fs : FileSystem) (path : Bytes)
    : Except Errno (FileSystem × List Loc × Option Loc) := do
  let fullPath ← fs.absolute (m.joinPath (tempPath path))
  if fullPath.isEmpty then
    .ok (fs, [], none)
  else
    let (fs, made) ← fs.createParent fullPath
    match canOpen, fs.openWrite fullPath with
    | true, .ok (fs, l) => .ok (fs, made, some l)
    | _, _ => .ok (fs, made, none)

/--
Open the file of a download: what there is to read and the recorded size, `none` if there is no such
file or it cannot be opened.
-/
def openFile (m : Module) (host : Host) (read : Bytes → Option Bytes) (fs : FileSystem) (path : Bytes)
    : Except Errno (Option (Bytes × Nat)) := do
  let info ← m.getFileInfo host fs path
  if info.path.isEmpty then
    .ok none
  else if ← m.fileExists fs path then
    .ok ((read info.path).map (·, info.size))
  else
    .ok none

end Module

namespace World

variable (env : Env) (moduleName path : Bytes) (w : World)

def nameTransfer : World :=
  { w with session := { w.session with transferModule := moduleName, transferPath := path } }

/--
The module of a transfer.
-/
def transferTarget : Option Module :=
  w.session.handler.getModule (w.session.handler.moduleName moduleName)

def beginReceiving : World :=
  {
    w with
    session := { w.session with transferState := .receivingFile, transferBytesRemaining := 0 }
    trace := w.trace ++ [.receiving]
  }

/--
The outcome of opening the temporary file. A stream that was open already stays open.
-/
def setUploadFile (fs : FileSystem) (made : List Loc) (opened : Option Loc) : World :=
  {
    session := { w.session with uploadFile := opened.or w.session.uploadFile }
    fs
    trace := w.trace ++ made.map .made ++ opened.toList.map .opened
  }

def startFileUpload : Except Errno Bool × World :=
  let w := w.nameTransfer moduleName path
  match w.transferTarget moduleName with
  | none => (.ok false, w)
  | some m =>
    match m.openTemp (env.openUpload && w.session.uploadFile.isNone) w.fs path with
    | .error e => (.error e, w)
    | .ok (fs, made, opened) =>
      let w := w.setUploadFile fs made opened
      if w.session.uploadFile.isSome then
        (.ok true, w.beginReceiving)
      else
        (.ok false, w)

/--
`download_file_.open(...)`. A stream that is open already fails and reads nothing any more.
-/
def openDownloadFile (fullPath : Bytes) : Option Bytes :=
  if w.session.downloadFile.isSome then
    some []
  else if env.openDownload then
    w.fs.read fullPath
  else
    none

def beginSending (content : Bytes) (size : Nat) : World :=
  {
    w with
    session := {
      w.session with
      downloadFile := some content
      transferState := .sendingFile
      transferBytesRemaining := size
      transferBytesSent := 0
    }
    trace := w.trace ++ [.sending content size]
  }

def startFileDownload : Except Errno Bool × World :=
  let w := w.nameTransfer moduleName path
  match w.transferTarget moduleName with
  | none => (.ok false, w)
  | some m =>
    match m.openFile env.host (w.openDownloadFile env) w.fs path with
    | .error e => (.error e, w)
    | .ok none => (.ok false, w)
    | .ok (some (content, size)) => (.ok true, w.beginSending content size)

/--
The chunk that is read next, empty at the end of the file.
-/
def nextChunk : Bytes :=
  (w.session.downloadFile.getD []).take (min chunkSize w.session.transferBytesRemaining)

/--
The state after a write of the chunk delivered `k` bytes. The stream has moved on by the whole chunk.
-/
def afterChunk (k : Nat) : World :=
  {
    w with
    session := {
      w.session with
      downloadFile :=
        w.session.downloadFile.map (·.drop (min chunkSize w.session.transferBytesRemaining))
      transferBytesSent := w.session.transferBytesSent + k
      transferBytesRemaining := sizeSub w.session.transferBytesRemaining k
    }
    trace := w.trace ++ [.data w.nextChunk k]
  }

/--
`continueFileTransfer` in state `SENDING_FILE`.
-/
def sendChunk : Bool × World :=
  if w.nextChunk.isEmpty then
    (false, w.endFileTransfer)
  else
    match w.session.writeSocket (env.send 0) w.nextChunk with
    | none => (false, w.endFileTransfer)
    | some k =>
      let w := w.afterChunk k
      if w.session.transferBytesRemaining = 0 then
        let w := w.endFileTransfer.log [.completed]
        (true, (w.writeResponse (env.send 1) transferComplete).2)
      else
        (true, w)

/--
Move the temporary file of an upload to its final place, if it is there.
-/
def renameTemp (m : Module) : Except Errno FileSystem := do
  let fullTemp ← w.fs.absolute (Path.append m.getPath (tempPath w.session.transferPath))
  let fullFinal ← w.fs.absolute (Path.append m.getPath w.session.transferPath)
  if ← w.fs.exists fullTemp then
    w.fs.rename fullTemp fullFinal
  else
    .ok w.fs

def finishUpload : Except Errno FileSystem :=
  if w.session.transferModule.isEmpty || w.session.transferPath.isEmpty then
    .ok w.fs
  else
    match w.session.handler.getModule w.session.transferModule with
    | none => .ok w.fs
    | some m => w.renameTemp m

def storeChunk (chunk : Bytes) : World :=
  {
    w with
    session := { w.session with transferBytesSent := w.session.transferBytesSent + chunk.length }
    fs :=
      match w.session.uploadFile with
      | some l => w.fs.appendData l chunk
      | none => w.fs
  }

/--
`continueFileTransfer` in state `RECEIVING_FILE`.
-/
def receiveChunk : Except Errno Bool × World :=
  let (received, session) := w.session.readSocket env.recv chunkSize
  let w := { w with session }
  match received with
  | none => (.ok false, w.endFileTransfer)
  | some [] =>
    -- the transfer ends before its module and path are looked at
    let w := w.endFileTransfer
    match w.finishUpload with
    | .error e => (.error e, w)
    | .ok fs => (.ok true, ({ w with fs }.writeResponse (env.send 0) uploadComplete).2)
  | some chunk => (.ok true, w.storeChunk chunk)

def continueFileTransfer : Except Errno Bool × World :=
  match w.session.transferState with
  | .sendingFile =>
    let (more, w) := w.sendChunk env
    (.ok more, w)
  | .receivingFile => w.receiveChunk env
  | .idle => (.ok false, w)

end World
end SimpleRsyncd
