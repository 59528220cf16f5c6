import SimpleRsyncd.Daemon.Basic

/-!
This module contains a running `RSyncDaemon` from the start of its threads to the end of `stop()`: the
loops of the accept thread and of the workers, the sessions that have been destroyed, and how `stop()`
shuts the threads down one after the other.
-/

namespace SimpleRsyncd

/--
Where the accept thread is in its loop.
-/
inductive LoopPoint where
  /-- About to check `running_ && !shutdown_requested_`. -/
  | head
  | body
  | exited
  deriving DecidableEq

/--
Where a worker is in its loop. It sleeps with the sessions it did not return still in
`sessions_to_process`.
-/
inductive WorkerPoint where
  | head
  | body
  | sleeping (leftover : List Connection)
  | exited

def WorkerPoint.leftover : WorkerPoint → List Connection
  | .sleeping leftover => leftover
  | _ => []

@[simp]
theorem WorkerPoint.leftover_sleeping (leftover : List Connection)
    : (WorkerPoint.sleeping leftover).leftover = leftover := rfl

def WorkerPoint.isExited : WorkerPoint → Bool
  | .exited => true
  | _ => false

/--
What `stop()` has done so far.
-/
inductive StopPoint where
  | notCalled
  | shutdownRequested
  | notRunning
  | acceptJoined
  | workersJoined
  | sessionsClosed
  | done
  deriving DecidableEq

structure Service (n : Nat) where
  daemon : Daemon n
  running : Bool := true
  shutdownRequested : Bool := false
  acceptThread : LoopPoint := .head
  workerThreads : Fin n → WorkerPoint := fun _ => .head
  stopping : StopPoint := .notCalled
  destroyed : List Connection := []

inductive ServiceStep (n : Nat) where
  /-- A step of the sessions, by the thread it belongs to. -/
  | thread (threadStep : ThreadStep n)
  | enterAccept
  /-- Nobody is waiting, or the client is turned away. -/
  | retryAccept
  /-- The loop condition does not hold. -/
  | leaveAccept
  /-- `accept` fails for good. -/
  | breakAccept
  | enter (i : Fin n)
  /-- The end of an iteration: what is left in `sessions_to_process` is destroyed. -/
  | wake (i : Fin n)
  | leave (i : Fin n)
  /-- The next step of `stop()`. -/
  | stop

/--
`session->close()` by the daemon itself.
-/
def Connection.close (fs : FileSystem) (c : Connection) : Connection :=
  { c with session := (World.close { session := c.session, fs }).session }

namespace Service

variable {n : Nat} (s : Service n)

def keepsRunning : Bool :=
  s.running && !s.shutdownRequested

def setWorkerThread (i : Fin n) (point : WorkerPoint) : Service n :=
  { s with workerThreads := Function.update s.workerThreads i point }

@[simp]
theorem workerThreads_setWorkerThread_self (i : Fin n) (point : WorkerPoint)
    : (s.setWorkerThread i point).workerThreads i = point := by
  simp [setWorkerThread]

theorem workerThreads_setWorkerThread_of_ne {i j : Fin n} (hne : j ≠ i) (point : WorkerPoint)
    : (s.setWorkerThread i point).workerThreads j = s.workerThreads j := by
  simp [setWorkerThread, hne]

/--
The sessions a worker has processed and does not return.
-/
def inactiveOf : Worker → List Connection
  | .resting => []
  | .processing processed _ => processed.filter fun c => !c.isActive

/--
Whether the thread of a step is inside its loop.
-/
def inBody : ThreadStep n → Bool
  | .passCheck | .create _ _ | .fail => s.acceptThread = .body
  | .take i | .process i _ | .giveBack i =>
    match s.workerThreads i with
    | .body => true
    | _ => false

/--
Where a step leaves its thread.
-/
def moveThread (d : Daemon n) : ThreadStep n → Service n
  | .create _ _ | .fail => { s with daemon := d, acceptThread := .head }
  | .giveBack i => { s with daemon := d }.setWorkerThread i (.sleeping (inactiveOf (s.daemon.workers i)))
  | .passCheck | .take _ | .process _ _ => { s with daemon := d }

def performThread (threadStep : ThreadStep n) : Option (Service n) :=
  if s.inBody threadStep then
    (s.daemon.perform threadStep).map (s.moveThread · threadStep)
  else
    none

def moveAccept (source target : LoopPoint) (allowed : Bool) : Option (Service n) :=
  if s.acceptThread = source ∧ allowed = true then some { s with acceptThread := target } else none

def enter (i : Fin n) : Option (Service n) :=
  match s.workerThreads i with
  | .head => if s.keepsRunning then some (s.setWorkerThread i .body) else none
  | _ => none

def wake (i : Fin n) : Option (Service n) :=
  match s.workerThreads i with
  | .sleeping leftover => some ({ s with destroyed := s.destroyed ++ leftover }.setWorkerThread i .head)
  | _ => none

def leave (i : Fin n) : Option (Service n) :=
  match s.workerThreads i with
  | .head => if s.keepsRunning then none else some (s.setWorkerThread i .exited)
  | _ => none

def closeSessions : Service n :=
  {
    s with
    daemon := {
      s.daemon with activeSessions := s.daemon.activeSessions.map (Connection.close s.daemon.fs)
    }
  }

def cleanupSessions : Service n :=
  {
    s with
    daemon := { s.daemon with activeSessions := [] }
    destroyed := s.destroyed ++ s.daemon.activeSessions
  }

/--
A thread is joined once it has exited. Sessions are closed and destroyed after the last `join`.
-/
def stop : Option (Service n) :=
  match s.stopping with
  | .notCalled =>
    if s.running then some { s with shutdownRequested := true, stopping := .shutdownRequested } else none
  | .shutdownRequested => some { s with running := false, stopping := .notRunning }
  | .notRunning =>
    if s.acceptThread = .exited then some { s with stopping := .acceptJoined } else none
  | .acceptJoined =>
    if ∀ i, (s.workerThreads i).isExited then
      some { s with stopping := .workersJoined }
    else
      none
  | .workersJoined => some { s.closeSessions with stopping := .sessionsClosed }
  | .sessionsClosed => some { s.cleanupSessions with stopping := .done }
  | .done => none

def perform : ServiceStep n → Option (Service n)
  | .thread threadStep => s.performThread threadStep
  | .enterAccept => s.moveAccept .head .body s.keepsRunning
  -- between the check of `max_connections` and the creation of the session there is no way back
  | .retryAccept => s.moveAccept .body .head (!s.daemon.creating)
  | .leaveAccept => s.moveAccept .head .exited (!s.keepsRunning)
  | .breakAccept => s.moveAccept .body .exited (!s.daemon.creating)
  | .enter i => s.enter i
  | .wake i => s.wake i
  | .leave i => s.leave i
  | .stop => s.stop

/--
The steps of all threads and of `stop()`, in any order.
-/
def step : Transition (Service n) (ServiceStep n) :=
  fun s serviceStep s' => s.perform serviceStep = some s'

/--
A daemon as `start()` leaves it.
-/
structure Started : Prop where
  daemon : s.daemon.Started
  running : s.running = true
  noConnections : s.daemon.totalConnections = 0
  waiting : ∀ i, s.workerThreads i = .head
  notStopped : s.stopping = .notCalled
  noneDestroyed : s.destroyed = []

end Service
end SimpleRsyncd
