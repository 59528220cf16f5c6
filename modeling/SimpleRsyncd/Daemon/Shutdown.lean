import SimpleRsyncd.Daemon.Ownership
import SimpleRsyncd.Daemon.Turns
import SimpleRsyncd.Transition.Fair

/-!
This module shows that a shutdown comes to its end. Once `stop()` has been called every thread has only so much
left to do, and there is always one that can go on until all of them have been joined.
-/

namespace SimpleRsyncd

def WorkerPoint.isBody : WorkerPoint → Bool
  | .body => true
  | _ => false

/--
How many steps of a worker are left once no new iteration begins, apart from the sessions that it processes.
-/
def WorkerPoint.ahead : WorkerPoint → Worker → Nat
  | .exited, _ => 0
  | .head, _ => 1
  | .sleeping _, _ => 2
  | .body, .processing _ _ => 3
  | .body, .resting => 4

/--
How many steps of the accept thread are left once no new iteration begins.
-/
def LoopPoint.ahead : LoopPoint → Bool → Nat
  | .exited, _ => 0
  | .head, _ => 1
  | .body, true => 2
  | .body, false => 3

/--
The sessions that a worker has yet to process.
-/
def Worker.waitingCount : Worker → Nat
  | .resting => 0
  | .processing _ waiting => waiting.length

namespace Service

variable {n : Nat} {s s' : Service n} {serviceStep : ServiceStep n} {i j : Fin n}

/--
What is left to do for each worker.
-/
def workersAhead (s : Service n) (i : Fin n) : Nat :=
  (s.workerThreads i).ahead (s.daemon.workers i)

/--
What is left to do for all threads together, and the sessions that are being processed meanwhile.
-/
def ahead (s : Service n) : Nat × Nat :=
  (
    Threads.total id s.workersAhead + s.acceptThread.ahead s.daemon.creating + s.stopping.remaining,
    Threads.total Worker.waitingCount s.daemon.workers
  )

/--
What the threads leave behind where they are in their loops, and what `stop()` has made sure of.
-/
structure Orderly (s : Service n) : Prop where
  resting : ∀ i, (s.workerThreads i).isBody = true ∨ s.daemon.workers i = .resting
  requested : s.stopping ≠ .notCalled → s.shutdownRequested = true
  accepted : s.stopping.remaining ≤ 3 → s.acceptThread = .exited
  exited : s.stopping.remaining ≤ 2 → ∀ i, (s.workerThreads i).isExited = true
  cleaned : s.stopping = .done → s.daemon.activeSessions = []

theorem Orderly.of_started (h : s.Started) : s.Orderly where
  resting i := .inr (h.daemon.resting i)
  requested hcalled := absurd h.notStopped hcalled
  accepted hremaining := by simp [h.notStopped, StopPoint.remaining] at hremaining
  exited hremaining := by simp [h.notStopped, StopPoint.remaining] at hremaining
  cleaned hdone := by simp [h.notStopped] at hdone

theorem Orderly.acceptTurn (h : s.Orderly) (hturn : AcceptTurn s s' serviceStep) : s'.Orderly := by
  have hnotExited : s.acceptThread ≠ .exited := by
    cases hturn with
    | passCheck hpoint | create hpoint | fail hpoint | retry hpoint | giveUp hpoint => simp [hpoint]
    | enter hpoint | leave hpoint => simp [hpoint]
  obtain ⟨_, _, _, hmoves, -⟩ := hturn.exists_moves
  have hstopping := hmoves.unstopped.stopping
  have hnotAccepted : ¬s'.stopping.remaining ≤ 3 := by
    rw [hstopping]
    exact fun hremaining => hnotExited (h.accepted hremaining)
  refine ⟨?_, ?_, fun hremaining => absurd hremaining hnotAccepted, ?_, ?_⟩
  . rw [hmoves.workers, hmoves.points]
    exact h.resting
  . rw [hstopping, hmoves.unstopped.shutdownRequested]
    exact h.requested
  . exact fun hremaining => absurd (Nat.le_succ_of_le hremaining) hnotAccepted
  . intro hdone
    simp [hdone, StopPoint.remaining] at hnotAccepted

theorem Orderly.workerTurn (h : s.Orderly) (hturn : WorkerTurn s s' i serviceStep) : s'.Orderly := by
  have hnotExited : (s.workerThreads i).isExited = false := by
    cases hturn with
    | take hpoint | process hpoint | giveBack hpoint | enter hpoint | wake hpoint | leave hpoint =>
      rw [hpoint]
      rfl
  have hself : (s'.workerThreads i).isBody = true ∨ s'.daemon.workers i = .resting := by
    have hresting := h.resting i
    cases hturn with
    | take _ _ hmoves | process _ _ hmoves | enter _ _ hmoves => exact .inl (by rw [hmoves.point_self]; rfl)
    | giveBack _ _ hmoves => exact .inr hmoves.worker_self
    | wake hpoint hmoves =>
      rw [hpoint] at hresting
      exact .inr (hmoves.worker_self.trans (hresting.resolve_left nofun))
    | leave hpoint _ hmoves =>
      rw [hpoint] at hresting
      exact .inr (hmoves.worker_self.trans (hresting.resolve_left nofun))
  obtain ⟨_, _, _, hmoves⟩ := hturn.exists_moves
  have hstopping := hmoves.unstopped.stopping
  have hnotJoined : ¬s'.stopping.remaining ≤ 2 := by
    rw [hstopping]
    intro hremaining
    simp [h.exited hremaining i] at hnotExited
  refine ⟨?_, ?_, ?_, fun hremaining => absurd hremaining hnotJoined, ?_⟩
  . intro j
    by_cases hj : j = i
    . subst hj
      exact hself
    . rw [hmoves.worker_of_ne hj, hmoves.point_of_ne hj]
      exact h.resting j
  . rw [hstopping, hmoves.unstopped.shutdownRequested]
    exact h.requested
  . rw [hstopping, hmoves.acceptThread]
    exact h.accepted
  . intro hdone
    simp [hdone, StopPoint.remaining] at hnotJoined

theorem eq_of_remaining {point : StopPoint} {k : Nat} (h : point.remaining = k) (hk : k ≤ 3)
    : point = .acceptJoined ∧ k = 3 ∨ point = .workersJoined ∧ k = 2 ∨ k < 2 := by
  cases point <;> simp_all [StopPoint.remaining] <;> omega

theorem Orderly.stopTurn (h : s.Orderly) (hturn : StopTurn s s') : s'.Orderly := by
  have hremaining := hturn.remaining
  refine ⟨?_, ?_, ?_, ?_, hturn.cleaned⟩
  . rw [hturn.workers, hturn.points]
    exact h.resting
  . intro _
    apply hturn.requested
    by_cases hcalled : s.stopping = .notCalled
    . exact .inl hcalled
    . exact .inr (h.requested hcalled)
  . intro hle
    rw [hturn.acceptThread]
    rcases eq_of_remaining rfl hle with ⟨hpoint, -⟩ | hlater
    . exact hturn.acceptJoined hpoint
    . exact h.accepted (by omega)
  . intro hle
    rw [hturn.points]
    rcases eq_of_remaining rfl (Nat.le_succ_of_le hle) with ⟨-, hthree⟩ | ⟨hpoint, -⟩ | hlater
    . omega
    . exact hturn.workersJoined hpoint
    . exact h.exited (by omega)

theorem Orderly.perform (h : s.Orderly) (hstep : s.perform serviceStep = some s') : s'.Orderly := by
  rcases perform_cases hstep with haccept | ⟨i, hworker⟩ | ⟨-, hstop⟩
  . exact h.acceptTurn haccept
  . exact h.workerTurn hworker
  . exact h.stopTurn hstop

/--
A state in which `stop()` has been called.
-/
structure Stopping (s : Service n) : Prop extends s.Orderly where
  called : s.stopping ≠ .notCalled

namespace Stopping

theorem remaining_lt (h : s.Stopping) : s.stopping.remaining < 6 := by
  have := h.called
  cases hpoint : s.stopping <;> simp_all [StopPoint.remaining]

theorem perform (h : s.Stopping) (hstep : s.perform serviceStep = some s') : s'.Stopping where
  toOrderly := h.toOrderly.perform hstep
  called := by
    have hlt := h.remaining_lt
    rcases perform_cases hstep with haccept | ⟨i, hworker⟩ | ⟨-, hstop⟩
    . obtain ⟨_, _, _, hmoves, -⟩ := haccept.exists_moves
      rw [hmoves.unstopped.stopping]
      exact h.called
    . rw [hworker.unstopped.stopping]
      exact h.called
    . intro hnotCalled
      have hsix : StopPoint.notCalled.remaining = 6 := rfl
      have := hstop.remaining
      rw [hnotCalled, hsix] at this
      omega

end Stopping

end Service
end SimpleRsyncd
