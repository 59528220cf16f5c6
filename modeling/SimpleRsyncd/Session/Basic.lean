import SimpleRsyncd.Config.Settings
import SimpleRsyncd.Protocol.Handler

/-!
This module contains the state of an `RSyncSession` and its socket: what a session keeps between two
calls, and what reading from and writing to the client does to it.
-/

namespace SimpleRsyncd

/--
A TLS connection, it owns a copy of the descriptor.
-/
structure SSLConnection where
  fd : Int
  isOpen : Bool
  deriving DecidableEq

inductive TransferState where
  | idle
  | receivingFile
  | sendingFile
  deriving DecidableEq

/--
An open `upload_file_` is the location it writes to, an open `download_file_` is what can still be
read from it.
-/
structure Session where
  clientSocket : Int
  sslConnection : Option SSLConnection := none
  config : Option AuthConfig
  hasAuthManager : Bool := true
  active : Bool := true
  handler : ProtocolHandler
  authenticatedUser : Bytes := []
  transferState : TransferState := .idle
  transferModule : Bytes := []
  transferPath : Bytes := []
  uploadFile : Option Loc := none
  downloadFile : Option Bytes := none
  transferBytesRemaining : Nat := 0
  transferBytesSent : Nat := 0

/--
What an observer of a session sees, in order. A write is recorded with the number of bytes that were
delivered.
-/
inductive Event where
  /-- Handed to `handleProtocolMessage`. -/
  | received (message : ProtocolMessage)
  /-- Passed to `ProtocolHandler::handle`. -/
  | handled (message : ProtocolMessage)
  /-- Accepted by the `AuthenticationManager`. -/
  | accepted (user : Bytes)
  /-- Created by `create_directories`. -/
  | made (l : Loc)
  /-- Created or truncated as the target of an upload. -/
  | opened (l : Loc)
  /-- The state became `RECEIVING_FILE`. -/
  | receiving
  /-- The state became `SENDING_FILE`, for a file of this content and this recorded size. -/
  | sending (content : Bytes) (size : Nat)
  /-- The whole file counts as sent. -/
  | completed
  | response (text : Bytes) (sent : Nat)
  | data (chunk : Bytes) (sent : Nat)
  | closed (fd : Int)
  deriving DecidableEq

/--
What the outside contributes to one call of `processRequest`: the result of `recv` (`none` is an
error, the empty string the end of the stream), the number of bytes the first and the second write
deliver, whether a file can be opened and what the `AuthenticationManager` says.
-/
structure Env where
  recv : Option Bytes := none
  send : Nat → Nat → Option Nat := fun _ n => some n
  openDownload : Bool := true
  openUpload : Bool := true
  host : Host := {}
  authenticateUser : Bytes → Bytes → Bool := fun _ _ => false
  authenticateUserWithKey : Bytes → Bytes → Bytes → Bool := fun _ _ _ => false

namespace Session

variable (s : Session)

/--
Whether reads and writes go through TLS, a connection the peer has shut down falls back to the plain
socket.
-/
def isSecure : Bool :=
  s.sslConnection.any SSLConnection.isOpen

def readSocket (recv : Option Bytes) (length : Nat) : Option Bytes × Session :=
  if s.isSecure then
    if recv = some [] then
      (
        some [],
        { s with sslConnection := s.sslConnection.map fun c => { c with isOpen := false } }
      )
    else
      (recv.map (·.take length), s)
  else if s.clientSocket < 0 then
    (none, s)
  else
    (recv.map (·.take length), s)

/--
The number of bytes delivered, `none` is an error. `SSL_write` does not return zero.
-/
def writeSocket (send : Nat → Option Nat) (buffer : Bytes) : Option Nat :=
  let sent := (send buffer.length).map (min buffer.length)
  if s.isSecure then
    if sent = some 0 then none else sent
  else if s.clientSocket < 0 then
    none
  else
    sent

def endFileTransfer : Session :=
  {
    s with
    uploadFile := none
    downloadFile := none
    transferState := .idle
    transferModule := []
    transferPath := []
    transferBytesRemaining := 0
    transferBytesSent := 0
  }

/--
Whether the next `writeResponse` gets as far as the socket.
-/
def canRespond : Bool :=
  s.active && 0 ≤ s.clientSocket

end Session

/--
A session, the file system it works on and what it has done so far.
-/
structure World where
  session : Session
  fs : FileSystem
  trace : List Event := []

namespace World

variable (w : World)

def log (events : List Event) : World :=
  { w with trace := w.trace ++ events }

def endFileTransfer : World :=
  { w with session := w.session.endFileTransfer }

def close : World :=
  match w.session.sslConnection with
  | some c =>
    {
      w with
      session := {
        w.session with
        sslConnection := some { fd := -1, isOpen := false }
        clientSocket := -1
        active := false
      }
      trace := w.trace ++ if 0 ≤ c.fd then [.closed c.fd] else []
    }
  | none =>
    if w.session.active && 0 ≤ w.session.clientSocket then
      {
        w with
        session := { w.session with clientSocket := -1, active := false }
        trace := w.trace ++ [.closed w.session.clientSocket]
      }
    else
      w

def writeResponse (send : Nat → Option Nat) (response : Bytes) : Bool × World :=
  if w.session.canRespond then
    match w.session.writeSocket send response with
    | some (k + 1) => (true, w.log [.response response (k + 1)])
    | _ => (false, w)
  else
    (false, w)

end World
end SimpleRsyncd
