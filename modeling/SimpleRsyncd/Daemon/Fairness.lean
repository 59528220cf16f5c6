import SimpleRsyncd.Daemon.Clients
import SimpleRsyncd.Daemon.Turns
import SimpleRsyncd.Transition.Fair

/-!
This module shows that no session starves. Whichever worker takes a session out of `active_sessions_` gets to it,
and a session that is given back is taken again, as long as `stop()` is not called and every worker keeps going,
that is as long as no call of `processRequest` blocks it for good.
-/

namespace SimpleRsyncd

/--
How many steps a worker makes with the sessions it holds.
-/
def Worker.remaining : Worker → Nat
  | .resting => 0
  | .processing _ waiting => waiting.length + 3

/--
How many steps a worker makes until it is inside its loop.
-/
def WorkerPoint.remaining : WorkerPoint → Nat
  | .body | .exited => 0
  | .head => 1
  | .sleeping _ => 2

namespace Service

variable {n : Nat} {s s' : Service n} {serviceStep : ServiceStep n} {i j : Fin n} {c : Connection}

/--
Worker `i` is inside `processRequest` of session `c`.
-/
def Serves (c : Connection) (s : Service n) (serviceStep : ServiceStep n) : Prop :=
  ∃ i env, serviceStep = .thread (.process i env) ∧ s.processing i = some c

/--
How far worker `i` is away from its next look at `active_sessions_`.
-/
def distance (s : Service n) (i : Fin n) : Nat :=
  (s.daemon.workers i).remaining + (s.workerThreads i).remaining

/--
Session `c` is to be served. The rank tells where it is and how many steps worker `i` makes until it gets
somewhere else.
-/
inductive Owed (c : Connection) (s : Service n) (i : Fin n) : Nat × Nat → Prop where
  | waiting {processed before after : List Connection} :
    s.daemon.workers i = .processing processed (before ++ c :: after)
    → Owed c s i (0, before.length + (s.workerThreads i).remaining)
  | active : c ∈ s.daemon.activeSessions → Owed c s i (1, s.distance i)
  | processed {processed waiting : List Connection} : c ∈ processed
    → s.daemon.workers i = .processing processed waiting
    → Owed c s i (2, waiting.length + (s.workerThreads i).remaining)

/--
A session that has been taken is waiting for its worker.
-/
theorem exists_owed_of_taken {processed waiting : List Connection} (hc : c ∈ waiting)
    (h : s.daemon.workers i = .processing processed waiting)
    : ∃ k, Owed c s i (0, k) := by
  obtain ⟨before, after, rfl⟩ := List.append_of_mem hc
  exact ⟨_, .waiting h⟩

namespace Owed

variable {r : Nat × Nat}

theorem of_acceptTurn (h : Owed c s i r) (hturn : AcceptTurn s s' serviceStep) : Owed c s' i r := by
  obtain ⟨_, _, _, hmoves, hprefix⟩ := hturn.exists_moves
  cases h with
  | waiting hprocessing =>
    rw [← hmoves.workers] at hprocessing
    rw [← hmoves.points]
    exact .waiting hprocessing
  | active hc =>
    have hdistance : s.distance i = s'.distance i := by rw [distance, distance, hmoves.workers, hmoves.points]
    rw [hdistance]
    refine .active ?_
    rw [hmoves.active]
    exact hprefix.subset hc
  | processed hc hprocessing =>
    rw [← hmoves.workers] at hprocessing
    rw [← hmoves.points]
    exact .processed hc hprocessing

theorem lt_of_place {k l p q : Nat} (h : k < l) : Prod.Lex (· < ·) (· < ·) (k, p) (l, q) := .left _ _ h

theorem lt_of_steps {k p q : Nat} (h : p < q) : Prod.Lex (· < ·) (· < ·) (k, p) (k, q) := .right _ h

/--
A session in `active_sessions_` is taken or stays there.
-/
theorem active_turn (hc : c ∈ s.daemon.activeSessions) (hactive : c.isActive = true)
    (hturn : WorkerTurn s s' j serviceStep)
    : (∃ k, Owed c s' j (0, k)) ∨ c ∈ s'.daemon.activeSessions ∧ s'.distance j < s.distance j := by
  cases hturn with
  | take _ _ hmoves => exact .inl (exists_owed_of_taken (List.mem_filter.mpr ⟨hc, hactive⟩) hmoves.worker_self)
  | process _ hprocessing hmoves =>
    refine .inr ⟨by rwa [hmoves.active], ?_⟩
    simp [distance, hmoves.worker_self, hmoves.point_self, hprocessing, Worker.remaining, WorkerPoint.remaining]
    omega
  | giveBack _ hprocessing hmoves =>
    refine .inr ⟨by rw [hmoves.active]; exact List.mem_append_left _ hc, ?_⟩
    simp [distance, hmoves.worker_self, hmoves.point_self, hprocessing, Worker.remaining, WorkerPoint.remaining]
    omega
  | enter hpoint _ hmoves =>
    refine .inr ⟨by rwa [hmoves.active], ?_⟩
    simp [distance, hmoves.worker_self, hmoves.point_self, hpoint, WorkerPoint.remaining]
  | wake hpoint hmoves =>
    refine .inr ⟨by rwa [hmoves.active], ?_⟩
    simp [distance, hmoves.worker_self, hmoves.point_self, hpoint, WorkerPoint.remaining]
  | leave hpoint _ hmoves =>
    refine .inr ⟨by rwa [hmoves.active], ?_⟩
    simp [distance, hmoves.worker_self, hmoves.point_self, hpoint, WorkerPoint.remaining]

/--
A session that waits for its worker comes closer with every turn of it, until it is served.
-/
theorem waiting_turn {processed before after : List Connection}
    (h : s.daemon.workers i = .processing processed (before ++ c :: after)) (hturn : WorkerTurn s s' i serviceStep)
    : Serves c s serviceStep
        ∨ ∃ k, k < before.length + (s.workerThreads i).remaining ∧ Owed c s' i (0, k) := by
  cases hturn with
  | take _ hresting => simp [hresting] at h
  | @process _ _ c₀ _ env _ hprocessing hmoves =>
    rw [hprocessing] at h
    cases before with
    | nil =>
      obtain ⟨-, rfl, -⟩ : _ = processed ∧ c₀ = c ∧ _ = after := by simpa using h
      exact .inl ⟨i, env, rfl, by simp [processing, hprocessing]⟩
    | cons b before =>
      obtain ⟨-, -, rfl⟩ : _ = processed ∧ c₀ = b ∧ _ = before ++ c :: after := by simpa using h
      refine .inr ⟨_, ?_, .waiting hmoves.worker_self⟩
      simp [hmoves.point_self, WorkerPoint.remaining]
      omega
  | giveBack _ hprocessing => simp [hprocessing] at h
  | enter hpoint _ hmoves =>
    refine .inr ⟨_, ?_, .waiting (hmoves.worker_self.trans h)⟩
    simp [hmoves.point_self, hpoint, WorkerPoint.remaining]
  | wake hpoint hmoves =>
    refine .inr ⟨_, ?_, .waiting (hmoves.worker_self.trans h)⟩
    simp [hmoves.point_self, hpoint, WorkerPoint.remaining]
  | leave hpoint _ hmoves =>
    refine .inr ⟨_, ?_, .waiting (hmoves.worker_self.trans h)⟩
    simp [hmoves.point_self, hpoint, WorkerPoint.remaining]

/--
A session that has been processed is given back once its worker has processed the others.
-/
theorem processed_turn {processed waiting : List Connection} (hc : c ∈ processed) (hactive : c.isActive = true)
    (h : s.daemon.workers i = .processing processed waiting) (hturn : WorkerTurn s s' i serviceStep)
    : c ∈ s'.daemon.activeSessions
        ∨ ∃ k, k < waiting.length + (s.workerThreads i).remaining ∧ Owed c s' i (2, k) := by
  cases hturn with
  | take _ hresting => simp [hresting] at h
  | process _ hprocessing hmoves =>
    obtain ⟨rfl, rfl⟩ := Worker.processing.inj (hprocessing.symm.trans h)
    refine .inr ⟨_, ?_, .processed (List.mem_append_left _ hc) hmoves.worker_self⟩
    simp [hmoves.point_self, WorkerPoint.remaining]
    omega
  | giveBack _ hprocessing hmoves =>
    obtain ⟨rfl, rfl⟩ := Worker.processing.inj (hprocessing.symm.trans h)
    rw [hmoves.active]
    exact .inl (List.mem_append_right _ (List.mem_filter.mpr ⟨hc, hactive⟩))
  | enter hpoint _ hmoves =>
    refine .inr ⟨_, ?_, .processed hc (hmoves.worker_self.trans h)⟩
    simp [hmoves.point_self, hpoint, WorkerPoint.remaining]
  | wake hpoint hmoves =>
    refine .inr ⟨_, ?_, .processed hc (hmoves.worker_self.trans h)⟩
    simp [hmoves.point_self, hpoint, WorkerPoint.remaining]
  | leave hpoint _ hmoves =>
    refine .inr ⟨_, ?_, .processed hc (hmoves.worker_self.trans h)⟩
    simp [hmoves.point_self, hpoint, WorkerPoint.remaining]

/--
With a turn of its worker a session is served or comes closer to that.
-/
theorem turn_self (h : Owed c s i r) (hactive : c.isActive = true) (hturn : WorkerTurn s s' i serviceStep)
    : Serves c s serviceStep ∨ ∃ r', Prod.Lex (· < ·) (· < ·) r' r ∧ Owed c s' i r' := by
  cases h with
  | waiting hprocessing =>
    rcases waiting_turn hprocessing hturn with hserves | ⟨k, hlt, howed⟩
    . exact .inl hserves
    . exact .inr ⟨_, lt_of_steps hlt, howed⟩
  | active hc =>
    rcases active_turn hc hactive hturn with ⟨k, howed⟩ | ⟨hstays, hlt⟩
    . exact .inr ⟨_, lt_of_place Nat.zero_lt_one, howed⟩
    . exact .inr ⟨_, lt_of_steps hlt, .active hstays⟩
  | processed hc hprocessing =>
    rcases processed_turn hc hactive hprocessing hturn with hgiven | ⟨k, hlt, howed⟩
    . exact .inr ⟨_, lt_of_place Nat.one_lt_two, .active hgiven⟩
    . exact .inr ⟨_, lt_of_steps hlt, howed⟩

/--
The turn of another worker takes a session over or changes nothing.
-/
theorem turn_other (h : Owed c s i r) (hactive : c.isActive = true) (hturn : WorkerTurn s s' j serviceStep)
    (hne : i ≠ j)
    : (∃ r', Prod.Lex (· < ·) (· < ·) r' r ∧ Owed c s' j r') ∨ Owed c s' i r := by
  obtain ⟨_, _, _, hmoves⟩ := hturn.exists_moves
  have hworker := hmoves.worker_of_ne hne
  have hpoint := hmoves.point_of_ne hne
  cases h with
  | waiting hprocessing =>
    rw [← hpoint]
    exact .inr (.waiting (hworker.trans hprocessing))
  | active hc =>
    rcases active_turn hc hactive hturn with ⟨k, howed⟩ | ⟨hstays, -⟩
    . exact .inl ⟨_, lt_of_place Nat.zero_lt_one, howed⟩
    . have hdistance : s.distance i = s'.distance i := by rw [distance, distance, hworker, hpoint]
      rw [hdistance]
      exact .inr (.active hstays)
  | processed hc hprocessing =>
    rw [← hpoint]
    exact .inr (.processed hc (hworker.trans hprocessing))

end Owed

/--
All steps but those of `stop()`.
-/
abbrev working (n : Nat) : Transition (Service n) (ServiceStep n) :=
  step.restrict fun _ serviceStep => serviceStep ≠ .stop

theorem helps_owed (hactive : c.isActive = true)
    : Execution.Helps (working n) ServiceStep.ByWorker (Serves c) (Prod.Lex (· < ·) (· < ·))
        fun r i s => Owed c s i r := by
  rintro r i s serviceStep s' howed ⟨hstop, hstep⟩
  rcases perform_cases hstep with haccept | ⟨j, hturn⟩ | ⟨hstop', -⟩
  . exact .inr (.inr ⟨haccept.not_byWorker i, howed.of_acceptTurn haccept⟩)
  . by_cases hj : j = i
    . subst hj
      rcases howed.turn_self hactive hturn with hserves | ⟨r', hlt, hcloser⟩
      . exact .inl hserves
      . exact .inr (.inl ⟨r', _, hlt, hcloser⟩)
    . rcases howed.turn_other hactive hturn (Ne.symm hj) with ⟨r', hlt, hcloser⟩ | hsame
      . exact .inr (.inl ⟨r', _, hlt, hcloser⟩)
      . exact .inr (.inr ⟨fun hi => hj (hturn.eq_of_byWorker hi), hsame⟩)
  . exact absurd hstop' hstop

/--
A session that a daemon still has is owed to its client.
-/
theorem exists_owed (hn : 0 < n) (hc : c ∈ s.daemon.activeSessions ∨ ∃ i, c ∈ (s.daemon.workers i).held)
    : ∃ r i, Owed c s i r := by
  rcases hc with hc | ⟨i, hc⟩
  . exact ⟨_, ⟨0, hn⟩, .active hc⟩
  . cases hworker : s.daemon.workers i with
    | resting => simp [hworker, Worker.held] at hc
    | processing processed waiting =>
      rw [hworker] at hc
      rcases List.mem_append.mp hc with hc | hc
      . exact ⟨_, i, .processed hc hworker⟩
      . obtain ⟨k, howed⟩ := exists_owed_of_taken hc hworker
        exact ⟨_, i, howed⟩

/--
Until `stop()` is called, and if every worker makes a step again and again, every active session is served
again, wherever it is. Until then nobody touches it.
-/
theorem sessions_served {e : Execution (working n)} {t : Nat} (hn : 0 < n) (hfair : e.Fair ServiceStep.ByWorker)
    (hc : c ∈ (e.state t).daemon.activeSessions ∨ ∃ i, c ∈ ((e.state t).daemon.workers i).held)
    (hactive : c.isActive = true)
    : ∃ t' i env, t ≤ t' ∧ e.action t' = .thread (.process i env) ∧ (e.state t').processing i = some c := by
  obtain ⟨r, i, howed⟩ := exists_owed hn hc
  have hwf : WellFounded (Prod.Lex (· < ·) (· < ·) : Nat × Nat → Nat × Nat → Prop) :=
    WellFounded.prod_lex wellFounded_lt wellFounded_lt
  obtain ⟨t', ht', j, env, haction, hprocessing⟩ :=
    hfair.eventually hwf (helps_owed hactive) howed
  exact ⟨t', j, env, ht', haction, hprocessing⟩

/--
The only client of a daemon, and a request of it that is no command.
-/
def onlyClient : Connection := (serving none).daemon.newConnection 4 none

def noCommand : Env := { recv := some (bytes "hello\n") }

theorem isActive_onlyClient : onlyClient.isActive = true := rfl

theorem serve_noCommand (fs : FileSystem)
    : (World.serve noCommand { session := onlyClient.session, fs }).session = onlyClient.session
        ∧ (World.serve noCommand { session := onlyClient.session, fs }).fs = fs :=
  ⟨rfl, rfl⟩

/--
A daemon with one worker.
-/
def idle (point : WorkerPoint) (worker : Worker) (activeSessions : List Connection) : Service 1 where
  daemon := { (serving none).daemon with activeSessions, workers := fun _ => worker }
  workerThreads := fun _ => point

def onlyWorker : Fin 1 := ⟨0, Nat.one_pos⟩

theorem update_only {α : Type} (i : Fin 1) (a b : α) : Function.update (fun _ : Fin 1 => a) i b = fun _ => b :=
  Function.update_eq_const_of_subsingleton _ _ _

/--
The worker serves its client round after round.
-/
def roundState : Nat → Service 1
  | 1 => idle .body .resting [onlyClient]
  | 2 => idle .body (.processing [] [onlyClient]) []
  | 3 => idle .body (.processing [onlyClient] []) []
  | 4 => idle (.sleeping []) .resting [onlyClient]
  | _ => idle .head .resting [onlyClient]

def roundStep : Nat → ServiceStep 1
  | 0 => .enter onlyWorker
  | 1 => .thread (.take onlyWorker)
  | 2 => .thread (.process onlyWorker noCommand)
  | 3 => .thread (.giveBack onlyWorker)
  | _ => .wake onlyWorker

theorem working_round : ∀ k < 5, working 1 (roundState k) (roundStep k) (roundState (k + 1))
  | 0, _ => by
    refine ⟨by simp [roundStep], ?_⟩
    simp [step, roundState, roundStep, perform, enter, idle, setWorkerThread, update_only, keepsRunning]
  | 1, _ => by
    have htaken : [onlyClient].filter Connection.isActive = [onlyClient] := rfl
    refine ⟨by simp [roundStep], ?_⟩
    simp [step, roundState, roundStep, perform, performThread, inBody, Daemon.perform, Daemon.take, moveThread,
      Daemon.setWorker, idle, update_only, htaken, isActive_onlyClient]
  | 2, _ => by
    refine ⟨by simp [roundStep], ?_⟩
    simp [step, roundState, roundStep, perform, performThread, inBody, Daemon.perform, Daemon.process, moveThread,
      Daemon.setWorker, idle, update_only, serve_noCommand]
  | 3, _ => by
    refine ⟨by simp [roundStep], ?_⟩
    simp [step, roundState, roundStep, perform, performThread, inBody, Daemon.perform, Daemon.giveBack, moveThread,
      setWorkerThread, Daemon.setWorker, inactiveOf, idle, update_only, isActive_onlyClient]
  | 4, _ => by
    refine ⟨by simp [roundStep], ?_⟩
    simp [step, roundState, roundStep, perform, wake, idle, setWorkerThread, update_only]
  | k + 5, hk => by omega

def rounds : Execution (working 1) := .cycle roundState roundStep (Nat.zero_lt_succ 4) rfl working_round

theorem fair_rounds : rounds.Fair ServiceStep.ByWorker :=
  Execution.fair_cycle fun i => ⟨0, Nat.zero_lt_succ 4, Subsingleton.elim 0 i⟩

theorem sessions_served_rounds
    : ∃ t' i env, 4 ≤ t' ∧ rounds.action t' = .thread (.process i env)
        ∧ (rounds.state t').processing i = some onlyClient :=
  sessions_served Nat.one_pos fair_rounds (.inl (List.mem_singleton.mpr rfl)) isActive_onlyClient

end Service
end SimpleRsyncd
