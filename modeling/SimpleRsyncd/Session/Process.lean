import SimpleRsyncd.Session.Transfer
import SimpleRsyncd.Transition.Basic

/-!
This module contains `RSyncSession::processRequest`, the check of who may send which request, and the
runs of a session.
-/

namespace SimpleRsyncd

open ProtocolParser

namespace Session

/--
Whether the session refuses every message but `AUTH` for now.
-/
def awaitsKey (s : Session) : Bool :=
  s.config.any fun config =>
    config.enabled && config.method = bytes "public_key" && s.authenticatedUser.isEmpty

end Session

namespace World

variable (env : Env) (message : ProtocolMessage) (w : World)

def acceptUser (user : Bytes) : World :=
  { w with session := { w.session with authenticatedUser := user }, trace := w.trace ++ [.accepted user] }

def authenticated (user : Bytes) : Bytes :=
  buildResponse true (bytes "Authenticated: " ++ user)

def handlePublicKey : Bytes × World :=
  if !w.session.hasAuthManager then
    (buildErrorResponse 500 (bytes "Authentication manager unavailable"), w)
  else
    match message.arguments.lookup (bytes "signature") with
    | none =>
      (
        buildErrorResponse 400
          (bytes "AUTH requires: AUTH <user> <challenge> signature=<base64_ssh_sig>"),
        w
      )
    | some signature =>
      if message.module.isEmpty || message.path.isEmpty then
        (
          buildErrorResponse 400
            (bytes "AUTH requires: AUTH <user> <challenge> signature=<base64_ssh_sig>"),
          w
        )
      else if env.authenticateUserWithKey message.module message.path signature then
        (authenticated message.module, w.acceptUser message.module)
      else
        (buildErrorResponse 403 (bytes "Public key authentication failed"), w)

def handlePassword : Bytes × World :=
  match message.arguments.lookup (bytes "password") with
  | none => (buildErrorResponse 400 (bytes "AUTH requires: AUTH <user> _ password=<secret>"), w)
  | some password =>
    if message.module.isEmpty then
      (buildErrorResponse 400 (bytes "AUTH requires: AUTH <user> _ password=<secret>"), w)
    else if w.session.hasAuthManager && env.authenticateUser message.module password then
      (authenticated message.module, w.acceptUser message.module)
    else
      (buildErrorResponse 403 (bytes "Password authentication failed"), w)

def handleAuthMessage : Bytes × World :=
  match w.session.config with
  | none => disabled
  | some config =>
    if !config.enabled then
      disabled
    else if config.method = bytes "public_key" then
      w.handlePublicKey env message
    else if config.method = bytes "password" then
      w.handlePassword env message
    else
      (buildErrorResponse 501 (bytes "Unsupported authentication method"), w)
where
  disabled : Bytes × World :=
    (
      buildResponse true (bytes "Authentication disabled"),
      { w with session := { w.session with authenticatedUser := bytes "anonymous" } }
    )

def setModule : World :=
  if message.module.isEmpty then
    w
  else
    { w with session := { w.session with handler := w.session.handler.setModule message.module } }

def handleProtocolMessage : Except Errno Bytes × World :=
  let w := (w.log [.received message]).setModule message
  if w.session.awaitsKey && message.command ≠ .auth then
    (.ok (buildErrorResponse 401 (bytes "Authentication required: send AUTH command")), w)
  else if message.command = .auth then
    let (response, w) := w.handleAuthMessage env message
    (.ok response, w)
  else
    let (response, fs) := w.session.handler.handle env.host message w.fs
    (response, { w with fs }.log [.handled message])

/--
`writeResponse` as the last thing `processRequest` does.
-/
def respond (send : Nat → Option Nat) (response : Bytes) : Except Errno Bool × World :=
  let (sent, w) := w.writeResponse send response
  (.ok sent, w)

def readyForTransfer : Bytes := bytes "Ready for transfer"

def readyToReceive : Bytes := bytes "Ready to receive file"

/--
An upload has started: the client is told so, and once more if that fails.
-/
def announceUpload (response : Bytes) : Except Errno Bool × World :=
  match w.writeResponse (env.send 0) response with
  | (true, w) => (.ok true, { w with session := { w.session with transferState := .receivingFile } })
  | (false, w) => w.respond (env.send 1) response

/--
What follows the handling of a message, depending on whether its response announces a transfer.
-/
def finishRequest (response : Bytes) : Except Errno Bool × World :=
  if Bytes.contains response readyForTransfer && message.command = .get then
    match w.startFileDownload env message.module message.path with
    | (.error e, w) => (.error e, w)
    | (.ok true, w) => w.continueFileTransfer env
    | (.ok false, w) => w.respond (env.send 0) response
  else if Bytes.contains response readyToReceive && message.command = .put then
    match w.startFileUpload env message.module message.path with
    | (.error e, w) => (.error e, w)
    | (.ok true, w) => w.announceUpload env response
    | (.ok false, w) => w.respond (env.send 0) response
  else
    w.respond (env.send 0) response

/--
What is done with the bytes of one `recv`, they are taken as one message.
-/
def processMessage (request : Bytes) : Except Errno Bool × World :=
  let message := parse request
  if !message.valid then
    w.respond (env.send 0)
      (buildErrorResponse (-1) (bytes "Invalid protocol message: " ++ message.errorMessage))
  else
    match w.handleProtocolMessage env message with
    | (.error e, w) => (.error e, w)
    | (.ok response, w) => w.finishRequest env message response

def requestSize : Nat := 4095

def processRequest : Except Errno Bool × World :=
  if !w.session.active then
    (.ok false, w)
  else if w.session.transferState ≠ .idle then
    w.continueFileTransfer env
  else
    let (received, session) := w.session.readSocket env.recv requestSize
    let w := { w with session }
    match received with
    | none | some [] => (.ok false, { w with session := { w.session with active := false } })
    | some request => w.processMessage env request

/--
What a worker does with a session it holds.
-/
def serve : World :=
  if w.session.active then
    match w.processRequest env with
    | (.ok true, w) => w
    | (_, w) => w.close
  else
    w

end World

/--
What can happen to a session from outside.
-/
inductive Action where
  | request (env : Env)
  | close

namespace World

def act : Action → World → World
  | .request env, w => (w.processRequest env).2
  | .close, w => w.close

/--
All calls of `processRequest` and `close`, in any order.
-/
def step : Transition World Action := .ofFun act

def workerAct : Action → World → World
  | .request env, w => w.serve env
  | .close, w => w.close

/--
The calls the daemon makes: a worker closes a session once a request fails.
-/
def workerStep : Transition World Action := .ofFun workerAct

/--
A session as its constructor leaves it.
-/
structure Fresh (w : World) : Prop where
  socket : 0 ≤ w.session.clientSocket
  active : w.session.active = true
  noUser : w.session.authenticatedUser = []
  noModule : w.session.handler.currentModule = []
  idle : w.session.transferState = .idle
  noUpload : w.session.uploadFile = none
  noDownload : w.session.downloadFile = none
  noRemaining : w.session.transferBytesRemaining = 0
  noSent : w.session.transferBytesSent = 0
  noTrace : w.trace = []

def moduleRoot : Name := ⟨bytes "m", isName_m⟩

def fileName : Name := ⟨bytes "f", by decide⟩

/--
A new session with a client, and one module `m` whose root is the directory `/m`.
-/
def single (config : Option AuthConfig) (entries : List (Name × Node)) : World :=
  {
    session := {
      clientSocket := 4
      config
      handler := {
        modules := fun name =>
          if name = moduleRoot.toBytes then some { config := { path := bytes "/m" } } else none
      }
    }
    fs := { entries := [(moduleRoot, .dir entries)] }
  }

theorem fresh_single (config : Option AuthConfig) (entries : List (Name × Node))
    : (single config entries).Fresh where
  socket := by simp [single]
  active := rfl
  noUser := rfl
  noModule := rfl
  idle := rfl
  noUpload := rfl
  noDownload := rfl
  noRemaining := rfl
  noSent := rfl
  noTrace := rfl

end World
end SimpleRsyncd
