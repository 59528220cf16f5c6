import SimpleRsyncd.Session.Process
import SimpleRsyncd.Transition.Threads

/-!
This module contains the threads of an `RSyncDaemon` that share its sessions: the accept thread, and
the workers, which take the sessions out of `active_sessions_` while they process them. Each step is
one critical section or one session processed.
-/

namespace SimpleRsyncd

/--
An accepted session, numbered by `total_connections_`.
-/
structure Connection where
  number : Nat
  session : Session

def Connection.isActive (c : Connection) : Bool := c.session.active

/--
Where a worker is in its loop, with the sessions of `sessions_to_process`.
-/
inductive Worker where
  | resting
  | processing (processed waiting : List Connection)

/--
The sessions that a worker took and has not given back.
-/
def Worker.held : Worker → List Connection
  | .resting => []
  | .processing processed waiting => processed ++ waiting

/--
The accept thread has either passed the check of `max_connections` and is about to create a session,
or not.
-/
structure Daemon (n : Nat) where
  authConfig : Option AuthConfig
  modules : Bytes → Option Module
  maxConnections : Nat
  fs : FileSystem
  activeSessions : List Connection := []
  totalConnections : Nat := 0
  creating : Bool := false
  workers : Fin n → Worker := fun _ => .resting

inductive ThreadStep (n : Nat) where
  /-- The connection check passes. -/
  | passCheck
  /-- The session is created and pushed. -/
  | create (clientSocket : Int) (sslConnection : Option SSLConnection)
  /-- The TLS handshake or the creation of the session fails. -/
  | fail
  | take (i : Fin n)
  | process (i : Fin n) (env : Env)
  | giveBack (i : Fin n)

namespace Daemon

variable {n : Nat} (d : Daemon n)

def setWorker (i : Fin n) (worker : Worker) : Daemon n :=
  { d with workers := Function.update d.workers i worker }

def passCheck : Option (Daemon n) :=
  if d.creating || d.maxConnections ≤ d.activeSessions.length then
    none
  else
    some { d with creating := true }

/--
The session of a new client, as its constructor initializes it.
-/
def newConnection (clientSocket : Int) (sslConnection : Option SSLConnection) : Connection :=
  {
    number := d.totalConnections
    session := { clientSocket, sslConnection, config := d.authConfig, handler := { modules := d.modules } }
  }

def create (clientSocket : Int) (sslConnection : Option SSLConnection) : Option (Daemon n) :=
  if d.creating then
    some {
      d with
      activeSessions := d.activeSessions ++ [d.newConnection clientSocket sslConnection]
      totalConnections := d.totalConnections + 1
      creating := false
    }
  else
    none

def fail : Option (Daemon n) :=
  if d.creating then some { d with creating := false } else none

def take (i : Fin n) : Option (Daemon n) :=
  match d.workers i with
  | .resting =>
    let taken := d.activeSessions.filter Connection.isActive
    let left := d.activeSessions.filter fun c => !c.isActive
    some ({ d with activeSessions := left }.setWorker i (.processing [] taken))
  | .processing _ _ => none

def process (i : Fin n) (env : Env) : Option (Daemon n) :=
  match d.workers i with
  | .processing processed (c :: waiting) =>
    let w := World.serve env { session := c.session, fs := d.fs }
    let processed := processed ++ [{ c with session := w.session }]
    some ({ d with fs := w.fs }.setWorker i (.processing processed waiting))
  | _ => none

/--
Sessions that are no longer active are not returned, they are destroyed.
-/
def giveBack (i : Fin n) : Option (Daemon n) :=
  match d.workers i with
  | .processing processed [] =>
    let activeSessions := d.activeSessions ++ processed.filter Connection.isActive
    some ({ d with activeSessions }.setWorker i .resting)
  | _ => none

def perform : ThreadStep n → Option (Daemon n)
  | .passCheck => d.passCheck
  | .create clientSocket sslConnection => d.create clientSocket sslConnection
  | .fail => d.fail
  | .take i => d.take i
  | .process i env => d.process i env
  | .giveBack i => d.giveBack i

/--
The steps of all threads, in any order.
-/
def step : Transition (Daemon n) (ThreadStep n) :=
  fun d threadStep d' => d.perform threadStep = some d'

/--
A daemon whose threads have just been started.
-/
structure Started : Prop where
  noSessions : d.activeSessions = []
  notCreating : d.creating = false
  resting : ∀ i, d.workers i = .resting

end Daemon
end SimpleRsyncd
