import SimpleRsyncd.Daemon.Basic

/-!
This module determines when `max_connections` bounds the number of open sessions. The check of the
accept thread counts only the sessions that no worker holds.
-/

namespace SimpleRsyncd

def countActive (cs : List Connection) : Nat :=
  cs.countP Connection.isActive

def Worker.heldSessions (worker : Worker) : Nat :=
  countActive worker.held

namespace Daemon

variable {n : Nat} {d d' : Daemon n}

/--
The sessions accepted and not yet closed, including the one the accept thread is about to create.
-/
def openSessions (d : Daemon n) : Nat :=
  countActive d.activeSessions + Threads.total Worker.heldSessions d.workers + d.creating.toNat

/--
Only a step of the accept thread is checked, and together with the sessions that workers hold there
has to be room for one more.
-/
def HasRoom (d : Daemon n) (threadStep : ThreadStep n) : Prop :=
  threadStep = .passCheck → d.openSessions < d.maxConnections

theorem openSessions_setWorker (i : Fin n) (worker : Worker)
    : (d.setWorker i worker).openSessions + (d.workers i).heldSessions
        =
      d.openSessions + worker.heldSessions := by
  have := Threads.total_update Worker.heldSessions d.workers i worker
  simp only [openSessions, setWorker]
  omega

theorem countActive_append (cs cs' : List Connection)
    : countActive (cs ++ cs') = countActive cs + countActive cs' :=
  List.countP_append

theorem countActive_filter_isActive (cs : List Connection)
    : countActive (cs.filter Connection.isActive) = countActive cs := by
  simp [countActive, List.countP_filter]

theorem countActive_filter_not_isActive (cs : List Connection)
    : countActive (cs.filter fun c => !c.isActive) = 0 := by
  simp [countActive, List.countP_eq_zero]

theorem openSessions_passCheck (h : d.passCheck = some d') : d'.openSessions = d.openSessions + 1 := by
  unfold passCheck at h
  split at h
  . contradiction
  . next hcheck =>
    obtain rfl := Option.some.inj h
    simp only [Bool.or_eq_true, not_or, Bool.not_eq_true] at hcheck
    simp [openSessions, hcheck.1]

theorem openSessions_create {clientSocket : Int} {sslConnection : Option SSLConnection}
    (h : d.create clientSocket sslConnection = some d')
    : d'.openSessions = d.openSessions := by
  unfold create at h
  split at h
  . next hcreating =>
    obtain rfl := Option.some.inj h
    have hnew : countActive [d.newConnection clientSocket sslConnection] = 1 := rfl
    simp [openSessions, countActive_append, hnew, hcreating]
    omega
  . contradiction

theorem openSessions_fail (h : d.fail = some d') : d'.openSessions ≤ d.openSessions := by
  unfold fail at h
  split at h
  . obtain rfl := Option.some.inj h
    simp [openSessions]
  . contradiction

theorem openSessions_take {i : Fin n} (h : d.take i = some d') : d'.openSessions = d.openSessions := by
  unfold take at h
  split at h
  . next hresting =>
    obtain rfl := Option.some.inj h
    have hset := openSessions_setWorker
      (d := { d with activeSessions := d.activeSessions.filter fun c => !c.isActive }) i
      (.processing [] (d.activeSessions.filter Connection.isActive))
    simp only [hresting, Worker.heldSessions, Worker.held, List.nil_append,
      countActive_filter_isActive] at hset
    simp only [openSessions, countActive_filter_not_isActive] at hset ⊢
    simp [countActive] at hset ⊢
    omega
  . contradiction

theorem active_serve (env : Env) (w : World) (h : (w.serve env).session.active = true)
    : w.session.active = true := by
  unfold World.serve at h
  split at h
  . assumption
  . exact h

theorem openSessions_process {i : Fin n} {env : Env} (h : d.process i env = some d')
    : d'.openSessions ≤ d.openSessions := by
  unfold process at h
  split at h
  . next processed c waiting hprocessing =>
    dsimp only at h
    have hserve := active_serve env { session := c.session, fs := d.fs }
    generalize World.serve env { session := c.session, fs := d.fs } = w at h hserve
    obtain rfl := Option.some.inj h
    have hset := openSessions_setWorker (d := { d with fs := w.fs }) i
      (.processing (processed ++ [{ c with session := w.session }]) waiting)
    have hsession : countActive [{ c with session := w.session }] ≤ countActive [c] := by
      by_cases hactive : w.session.active = true
      . have hc : c.session.active = true := hserve hactive
        simp [countActive, Connection.isActive, hc, hactive]
      . simp [countActive, Connection.isActive, hactive]
    simp only [hprocessing, Worker.heldSessions, Worker.held, countActive_append,
      ← List.singleton_append (l := waiting) (x := c)] at hset
    change _ ≤ openSessions { d with fs := w.fs }
    omega
  . contradiction

theorem openSessions_giveBack {i : Fin n} (h : d.giveBack i = some d')
    : d'.openSessions = d.openSessions := by
  unfold giveBack at h
  split at h
  . next processed hprocessing =>
    obtain rfl := Option.some.inj h
    have hset := openSessions_setWorker
      (d := { d with activeSessions := d.activeSessions ++ processed.filter Connection.isActive }) i .resting
    have hnone : countActive [] = 0 := rfl
    simp only [hprocessing, Worker.heldSessions, Worker.held, List.append_nil, hnone] at hset
    simp only [openSessions, countActive_append, countActive_filter_isActive] at hset ⊢
    omega
  . contradiction

/--
Only a passed check adds to the open sessions.
-/
theorem openSessions_perform {threadStep : ThreadStep n} (h : d.perform threadStep = some d')
    : d'.openSessions ≤ d.openSessions
        ∨ threadStep = .passCheck ∧ d'.openSessions = d.openSessions + 1 := by
  cases threadStep with
  | passCheck => exact .inr ⟨rfl, openSessions_passCheck h⟩
  | create => exact .inl (openSessions_create h).le
  | fail => exact .inl (openSessions_fail h)
  | take => exact .inl (openSessions_take h).le
  | process => exact .inl (openSessions_process h)
  | giveBack => exact .inl (openSessions_giveBack h).le

theorem maxConnections_perform {threadStep : ThreadStep n} (h : d.perform threadStep = some d')
    : d'.maxConnections = d.maxConnections := by
  unfold perform passCheck create fail take process giveBack at h
  repeat' split at h
  all_goals first
    | contradiction
    | obtain rfl := Option.some.inj h
      rfl

theorem openSessions_of_started (h : d.Started) : d.openSessions = 0 := by
  have hworkers : Threads.total Worker.heldSessions d.workers = 0 := by
    apply Threads.total_eq_zero
    intro i
    rw [h.resting i]
    rfl
  simp [openSessions, h.noSessions, h.notCreating, hworkers, countActive]

theorem step_unique {threadStep : ThreadStep n} {d d₁ d₂ : Daemon n} (h₁ : step d threadStep d₁)
    (h₂ : step d threadStep d₂)
    : d₁ = d₂ :=
  Option.some.inj (h₁.symm.trans h₂)

/--
In every state that a run of these steps passes through, the open sessions are within
`max_connections`.
-/
def Capped (d : Daemon n) (threadSteps : List (ThreadStep n)) : Prop :=
  ∀ before d', before <+: threadSteps → step.Run d before d' → d'.openSessions ≤ d.maxConnections

/--
What is preserved while the run of `d` has room.
-/
def WithinCap (d s : Daemon n) : Prop :=
  s.openSessions ≤ d.maxConnections ∧ s.maxConnections = d.maxConnections

theorem withinCap_perform {s s' : Daemon n} {threadStep : ThreadStep n} (h : WithinCap d s)
    (hroom : s.HasRoom threadStep) (hstep : s.perform threadStep = some s')
    : WithinCap d s' := by
  obtain ⟨hle, hmax⟩ := h
  refine ⟨?_, (maxConnections_perform hstep).trans hmax⟩
  rcases openSessions_perform hstep with hless | ⟨rfl, hmore⟩
  . omega
  . have := hroom rfl
    omega

theorem hasRoom_of_perform {s s' : Daemon n} {threadStep : ThreadStep n} (h : WithinCap d s)
    (hstep : s.perform threadStep = some s') (hle : s'.openSessions ≤ d.maxConnections)
    : s.HasRoom threadStep := by
  rintro rfl
  have hmax := h.2
  have hmore := openSessions_passCheck hstep
  omega

/--
A run stays within `max_connections` if and only if at every passed check the sessions that workers
hold leave room for another one.
-/
theorem capped_iff_hasRoom {threadSteps : List (ThreadStep n)} (hstarted : d.Started)
    (hrun : step.Run d threadSteps d')
    : d.Capped threadSteps ↔ (step.restrict HasRoom).Run d threadSteps d' := by
  have hinit : WithinCap d d := ⟨by simp [openSessions_of_started hstarted], rfl⟩
  exact Transition.always_iff_restrict hrun (fun _ _ _ _ => step_unique) hinit
    (fun _ _ _ h hroom hstep => withinCap_perform h hroom hstep) (fun _ h => h.1)
    (fun _ _ _ h hstep hle => hasRoom_of_perform h hstep hle)

/--
One worker, and no more than one connection.
-/
def single : Daemon 1 :=
  { authConfig := none, modules := fun _ => none, maxConnections := 1, fs := { entries := [] } }

theorem started_single : single.Started where
  noSessions := rfl
  notCreating := rfl
  resting := fun _ => rfl

theorem capped_single : single.Capped [.passCheck, .create 4 none] := by
  have hrun : step.Run single [.passCheck, .create 4 none] _ := .cons rfl (.cons rfl .nil)
  exact (capped_iff_hasRoom started_single hrun).mpr
    (.cons ⟨fun _ => by decide, rfl⟩ (.cons ⟨fun h => by contradiction, rfl⟩ .nil))

/--
While the worker holds the only session the check passes once more.
-/
theorem not_capped_single
    : ¬single.Capped [.passCheck, .create 4 none, .take 0, .passCheck, .create 5 none] := by
  intro h
  have hle := h _ _ List.prefix_rfl
    (.cons rfl (.cons rfl (.cons rfl (.cons rfl (.cons rfl .nil)))))
  exact absurd hle (by decide)

end Daemon
end SimpleRsyncd
