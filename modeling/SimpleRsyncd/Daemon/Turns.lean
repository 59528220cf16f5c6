import SimpleRsyncd.Daemon.Service

/-!
This module sorts the steps of a daemon by the thread that makes them: what the accept thread does in one step,
what a worker does, what `stop()` does, and what each of them leaves alone.
-/

namespace SimpleRsyncd

/--
The steps of one worker.
-/
def ServiceStep.ByWorker {n : Nat} (i : Fin n) : ServiceStep n → Prop
  | .thread (.take j) | .thread (.process j _) | .thread (.giveBack j) | .enter j | .wake j | .leave j => j = i
  | _ => False

/--
How many steps of `stop()` are left.
-/
def StopPoint.remaining : StopPoint → Nat
  | .notCalled => 6
  | .shutdownRequested => 5
  | .notRunning => 4
  | .acceptJoined => 3
  | .workersJoined => 2
  | .sessionsClosed => 1
  | .done => 0

namespace Service

variable {n : Nat} {s s' : Service n} {serviceStep : ServiceStep n} {i j : Fin n}

/--
From `s` to `s'` nothing happens to what `stop()` is about.
-/
structure Unstopped (s s' : Service n) : Prop where
  running : s'.running = s.running
  shutdownRequested : s'.shutdownRequested = s.shutdownRequested
  stopping : s'.stopping = s.stopping

theorem Unstopped.keepsRunning (h : Unstopped s s') : s'.keepsRunning = s.keepsRunning := by
  rw [Service.keepsRunning, Service.keepsRunning, h.running, h.shutdownRequested]

/--
From `s` to `s'` only worker `i` moves. It becomes `worker`, is at `point` and leaves `active` behind.
-/
structure WorkerMoves (s s' : Service n) (i : Fin n) (worker : Worker) (point : WorkerPoint)
    (active : List Connection) : Prop where
  workers : s'.daemon.workers = Function.update s.daemon.workers i worker
  points : s'.workerThreads = Function.update s.workerThreads i point
  active : s'.daemon.activeSessions = active
  acceptThread : s'.acceptThread = s.acceptThread
  creating : s'.daemon.creating = s.daemon.creating
  unstopped : Unstopped s s'

namespace WorkerMoves

variable {worker : Worker} {point : WorkerPoint} {active : List Connection}

theorem worker_self (h : WorkerMoves s s' i worker point active) : s'.daemon.workers i = worker := by
  rw [h.workers, Function.update_self]

theorem point_self (h : WorkerMoves s s' i worker point active) : s'.workerThreads i = point := by
  rw [h.points, Function.update_self]

theorem worker_of_ne (h : WorkerMoves s s' j worker point active) (hne : i ≠ j)
    : s'.daemon.workers i = s.daemon.workers i := by
  rw [h.workers, Function.update_of_ne hne]

theorem point_of_ne (h : WorkerMoves s s' j worker point active) (hne : i ≠ j)
    : s'.workerThreads i = s.workerThreads i := by
  rw [h.points, Function.update_of_ne hne]

end WorkerMoves

/--
What worker `i` does in one step.
-/
inductive WorkerTurn (s s' : Service n) (i : Fin n) : ServiceStep n → Prop where
  | take : s.workerThreads i = .body → s.daemon.workers i = .resting
    → WorkerMoves s s' i (.processing [] (s.daemon.activeSessions.filter Connection.isActive)) .body
      (s.daemon.activeSessions.filter fun c => !c.isActive)
    → WorkerTurn s s' i (.thread (.take i))
  | process {processed waiting : List Connection} {c c' : Connection} {env : Env} : s.workerThreads i = .body
    → s.daemon.workers i = .processing processed (c :: waiting)
    → WorkerMoves s s' i (.processing (processed ++ [c']) waiting) .body s.daemon.activeSessions
    → WorkerTurn s s' i (.thread (.process i env))
  | giveBack {processed : List Connection} : s.workerThreads i = .body
    → s.daemon.workers i = .processing processed []
    → WorkerMoves s s' i .resting (.sleeping (processed.filter fun c => !c.isActive))
      (s.daemon.activeSessions ++ processed.filter Connection.isActive)
    → WorkerTurn s s' i (.thread (.giveBack i))
  | enter : s.workerThreads i = .head → s.keepsRunning = true
    → WorkerMoves s s' i (s.daemon.workers i) .body s.daemon.activeSessions
    → WorkerTurn s s' i (.enter i)
  | wake {leftover : List Connection} : s.workerThreads i = .sleeping leftover
    → WorkerMoves s s' i (s.daemon.workers i) .head s.daemon.activeSessions
    → WorkerTurn s s' i (.wake i)
  | leave : s.workerThreads i = .head → s.keepsRunning = false
    → WorkerMoves s s' i (s.daemon.workers i) .exited s.daemon.activeSessions
    → WorkerTurn s s' i (.leave i)

namespace WorkerTurn

theorem exists_moves (h : WorkerTurn s s' i serviceStep)
    : ∃ worker point active, WorkerMoves s s' i worker point active := by
  cases h with
  | take _ _ hmoves | process _ _ hmoves | giveBack _ _ hmoves => exact ⟨_, _, _, hmoves⟩
  | enter _ _ hmoves | wake _ hmoves | leave _ _ hmoves => exact ⟨_, _, _, hmoves⟩

theorem unstopped (h : WorkerTurn s s' i serviceStep) : Unstopped s s' := by
  obtain ⟨_, _, _, hmoves⟩ := h.exists_moves
  exact hmoves.unstopped

theorem eq_of_byWorker (h : WorkerTurn s s' j serviceStep) (hi : serviceStep.ByWorker i) : j = i := by
  cases h <;> exact hi

end WorkerTurn

/--
From `s` to `s'` only the accept thread moves. It is at `point`, is `creating` a session or not, and `active` are
the sessions then.
-/
structure AcceptMoves (s s' : Service n) (point : LoopPoint) (creating : Bool) (active : List Connection) : Prop where
  workers : s'.daemon.workers = s.daemon.workers
  points : s'.workerThreads = s.workerThreads
  active : s'.daemon.activeSessions = active
  acceptThread : s'.acceptThread = point
  creating : s'.daemon.creating = creating
  unstopped : Unstopped s s'

/--
What the accept thread does in one step.
-/
inductive AcceptTurn (s s' : Service n) : ServiceStep n → Prop where
  | passCheck : s.acceptThread = .body → s.daemon.creating = false
    → AcceptMoves s s' .body true s.daemon.activeSessions
    → AcceptTurn s s' (.thread .passCheck)
  | create {clientSocket : Int} {sslConnection : Option SSLConnection} {c : Connection} : s.acceptThread = .body
    → s.daemon.creating = true
    → AcceptMoves s s' .head false (s.daemon.activeSessions ++ [c])
    → AcceptTurn s s' (.thread (.create clientSocket sslConnection))
  | fail : s.acceptThread = .body → s.daemon.creating = true
    → AcceptMoves s s' .head false s.daemon.activeSessions
    → AcceptTurn s s' (.thread .fail)
  | enter : s.acceptThread = .head → s.keepsRunning = true
    → AcceptMoves s s' .body s.daemon.creating s.daemon.activeSessions
    → AcceptTurn s s' .enterAccept
  | retry : s.acceptThread = .body → s.daemon.creating = false
    → AcceptMoves s s' .head s.daemon.creating s.daemon.activeSessions
    → AcceptTurn s s' .retryAccept
  | leave : s.acceptThread = .head → s.keepsRunning = false
    → AcceptMoves s s' .exited s.daemon.creating s.daemon.activeSessions
    → AcceptTurn s s' .leaveAccept
  | giveUp : s.acceptThread = .body → s.daemon.creating = false
    → AcceptMoves s s' .exited s.daemon.creating s.daemon.activeSessions
    → AcceptTurn s s' .breakAccept

namespace AcceptTurn

theorem exists_moves (h : AcceptTurn s s' serviceStep)
    : ∃ point creating active, AcceptMoves s s' point creating active ∧ s.daemon.activeSessions <+: active := by
  cases h with
  | passCheck _ _ hmoves | fail _ _ hmoves | enter _ _ hmoves | retry _ _ hmoves | leave _ _ hmoves
  | giveUp _ _ hmoves => exact ⟨_, _, _, hmoves, List.prefix_rfl⟩
  | create _ _ hmoves => exact ⟨_, _, _, hmoves, List.prefix_append _ _⟩

theorem not_byWorker (h : AcceptTurn s s' serviceStep) (i : Fin n) : ¬serviceStep.ByWorker i := by
  cases h <;> exact id

end AcceptTurn

/--
What `stop()` does in one step.
-/
structure StopTurn (s s' : Service n) : Prop where
  workers : s'.daemon.workers = s.daemon.workers
  points : s'.workerThreads = s.workerThreads
  acceptThread : s'.acceptThread = s.acceptThread
  creating : s'.daemon.creating = s.daemon.creating
  remaining : s'.stopping.remaining + 1 = s.stopping.remaining
  requested : s.stopping = .notCalled ∨ s.shutdownRequested = true → s'.shutdownRequested = true
  acceptJoined : s'.stopping = .acceptJoined → s.acceptThread = .exited
  workersJoined : s'.stopping = .workersJoined → ∀ i, (s.workerThreads i).isExited = true
  cleaned : s'.stopping = .done → s'.daemon.activeSessions = []

theorem update_body (h : s.workerThreads i = .body) : s.workerThreads = Function.update s.workerThreads i .body := by
  rw [← h, Function.update_eq_self]

theorem body_of_inBody (h : (match s.workerThreads i with | .body => true | _ => false) = true)
    : s.workerThreads i = .body := by
  split at h
  . assumption
  . contradiction

theorem turn_thread {threadStep : ThreadStep n} (h : s.performThread threadStep = some s')
    : AcceptTurn s s' (.thread threadStep) ∨ ∃ i, WorkerTurn s s' i (.thread threadStep) := by
  unfold performThread at h
  split at h
  . next hbody =>
    obtain ⟨d, hperform, rfl⟩ := Option.map_eq_some_iff.mp h
    cases threadStep with
    | passCheck =>
      simp only [Daemon.perform, Daemon.passCheck] at hperform
      split at hperform
      . contradiction
      . next hroom =>
        obtain rfl := Option.some.inj hperform
        obtain ⟨hcreating, -⟩ : s.daemon.creating = false ∧ _ := by simpa using hroom
        have hpoint := of_decide_eq_true hbody
        exact .inl (.passCheck hpoint hcreating ⟨rfl, rfl, rfl, hpoint, rfl, rfl, rfl, rfl⟩)
    | create =>
      simp only [Daemon.perform, Daemon.create] at hperform
      split at hperform
      . next hcreating =>
        obtain rfl := Option.some.inj hperform
        exact .inl (.create (of_decide_eq_true hbody) hcreating ⟨rfl, rfl, rfl, rfl, rfl, rfl, rfl, rfl⟩)
      . contradiction
    | fail =>
      simp only [Daemon.perform, Daemon.fail] at hperform
      split at hperform
      . next hcreating =>
        obtain rfl := Option.some.inj hperform
        exact .inl (.fail (of_decide_eq_true hbody) hcreating ⟨rfl, rfl, rfl, rfl, rfl, rfl, rfl, rfl⟩)
      . contradiction
    | take i =>
      simp only [Daemon.perform, Daemon.take] at hperform
      split at hperform
      . next hresting =>
        obtain rfl := Option.some.inj hperform
        have hpoint := body_of_inBody hbody
        exact .inr ⟨i, .take hpoint hresting ⟨rfl, update_body hpoint, rfl, rfl, rfl, rfl, rfl, rfl⟩⟩
      . contradiction
    | process i env =>
      simp only [Daemon.perform, Daemon.process] at hperform
      split at hperform
      . next hprocessing =>
        obtain rfl := Option.some.inj hperform
        have hpoint := body_of_inBody hbody
        exact .inr ⟨i, .process hpoint hprocessing ⟨rfl, update_body hpoint, rfl, rfl, rfl, rfl, rfl, rfl⟩⟩
      . contradiction
    | giveBack i =>
      simp only [Daemon.perform, Daemon.giveBack] at hperform
      split at hperform
      . next hprocessing =>
        obtain rfl := Option.some.inj hperform
        refine .inr ⟨i, .giveBack (body_of_inBody hbody) hprocessing ⟨rfl, ?_, rfl, rfl, rfl, rfl, rfl, rfl⟩⟩
        simp [moveThread, setWorkerThread, inactiveOf, hprocessing]
      . contradiction
  . contradiction

theorem of_moveAccept {source target : LoopPoint} {allowed : Bool} (h : s.moveAccept source target allowed = some s')
    : s.acceptThread = source ∧ allowed = true
        ∧ AcceptMoves s s' target s.daemon.creating s.daemon.activeSessions := by
  unfold moveAccept at h
  split at h
  . next hallowed =>
    obtain rfl := Option.some.inj h
    exact ⟨hallowed.1, hallowed.2, rfl, rfl, rfl, rfl, rfl, rfl, rfl, rfl⟩
  . contradiction

theorem turn_enter (h : s.enter i = some s') : WorkerTurn s s' i (.enter i) := by
  unfold enter at h
  split at h
  . next hpoint =>
    split at h
    . next hrunning =>
      obtain rfl := Option.some.inj h
      exact .enter hpoint hrunning ⟨by simp [setWorkerThread], rfl, rfl, rfl, rfl, rfl, rfl, rfl⟩
    . contradiction
  . contradiction

theorem turn_wake (h : s.wake i = some s') : WorkerTurn s s' i (.wake i) := by
  unfold wake at h
  split at h
  . next leftover hpoint =>
    obtain rfl := Option.some.inj h
    exact .wake hpoint ⟨by simp [setWorkerThread], rfl, rfl, rfl, rfl, rfl, rfl, rfl⟩
  . contradiction

theorem turn_leave (h : s.leave i = some s') : WorkerTurn s s' i (.leave i) := by
  unfold leave at h
  split at h
  . next hpoint =>
    split at h
    . contradiction
    . next hrunning =>
      obtain rfl := Option.some.inj h
      exact .leave hpoint (Bool.eq_false_of_not_eq_true hrunning)
        ⟨by simp [setWorkerThread], rfl, rfl, rfl, rfl, rfl, rfl, rfl⟩
  . contradiction

theorem turn_stop (h : s.stop = some s') : StopTurn s s' := by
  unfold stop at h
  split at h
  case h_1 hstopping =>
    split at h
    . obtain rfl := Option.some.inj h
      refine ⟨rfl, rfl, rfl, rfl, ?_, fun _ => rfl, by simp, by simp, by simp⟩
      simp [hstopping, StopPoint.remaining]
    . contradiction
  case h_2 hstopping =>
    obtain rfl := Option.some.inj h
    refine ⟨rfl, rfl, rfl, rfl, ?_, ?_, by simp, by simp, by simp⟩
    . simp [hstopping, StopPoint.remaining]
    . simp [hstopping]
  case h_3 hstopping =>
    split at h
    . next hexited =>
      obtain rfl := Option.some.inj h
      refine ⟨rfl, rfl, rfl, rfl, ?_, ?_, fun _ => hexited, by simp, by simp⟩
      . simp [hstopping, StopPoint.remaining]
      . simp [hstopping]
    . contradiction
  case h_4 hstopping =>
    split at h
    . next hexited =>
      obtain rfl := Option.some.inj h
      refine ⟨rfl, rfl, rfl, rfl, ?_, ?_, by simp, fun _ => hexited, by simp⟩
      . simp [hstopping, StopPoint.remaining]
      . simp [hstopping]
    . contradiction
  case h_5 hstopping =>
    obtain rfl := Option.some.inj h
    refine ⟨rfl, rfl, rfl, rfl, ?_, ?_, by simp, by simp, by simp⟩
    . simp [hstopping, StopPoint.remaining]
    . simp [hstopping, closeSessions]
  case h_6 hstopping =>
    obtain rfl := Option.some.inj h
    refine ⟨rfl, rfl, rfl, rfl, ?_, ?_, by simp, by simp, fun _ => rfl⟩
    . simp [hstopping, StopPoint.remaining]
    . simp [hstopping, cleanupSessions]
  case h_7 => contradiction

/--
Every step is one of the accept thread, of a worker, or of `stop()`.
-/
theorem perform_cases (h : s.perform serviceStep = some s')
    : AcceptTurn s s' serviceStep ∨ (∃ i, WorkerTurn s s' i serviceStep) ∨ serviceStep = .stop ∧ StopTurn s s' := by
  cases serviceStep with
  | thread threadStep =>
    rcases turn_thread h with haccept | hworker
    . exact .inl haccept
    . exact .inr (.inl hworker)
  | enterAccept =>
    obtain ⟨hpoint, hrunning, hmoves⟩ := of_moveAccept h
    exact .inl (.enter hpoint hrunning hmoves)
  | retryAccept =>
    obtain ⟨hpoint, hcreating, hmoves⟩ := of_moveAccept h
    exact .inl (.retry hpoint (by simpa using hcreating) hmoves)
  | leaveAccept =>
    obtain ⟨hpoint, hrunning, hmoves⟩ := of_moveAccept h
    exact .inl (.leave hpoint (by simpa using hrunning) hmoves)
  | breakAccept =>
    obtain ⟨hpoint, hcreating, hmoves⟩ := of_moveAccept h
    exact .inl (.giveUp hpoint (by simpa using hcreating) hmoves)
  | enter i => exact .inr (.inl ⟨i, turn_enter h⟩)
  | wake i => exact .inr (.inl ⟨i, turn_wake h⟩)
  | leave i => exact .inr (.inl ⟨i, turn_leave h⟩)
  | stop => exact .inr (.inr ⟨rfl, turn_stop h⟩)

end Service
end SimpleRsyncd
