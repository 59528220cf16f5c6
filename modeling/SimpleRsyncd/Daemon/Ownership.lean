import SimpleRsyncd.Daemon.ConnectionCap
import SimpleRsyncd.Daemon.Service

/-!
This module shows that an accepted session is never lost and never in two places: it is in
`active_sessions_`, in the list of one worker, or destroyed. Every step moves sessions from one place to
another, so the number of places a session is seen at does not change.
-/

namespace SimpleRsyncd

/--
How often session number `k` occurs.
-/
def countNumber (k : Nat) (cs : List Connection) : Nat :=
  (cs.map Connection.number).count k

variable {k : Nat}

@[simp]
theorem countNumber_nil : countNumber k [] = 0 := rfl

@[simp]
theorem countNumber_append (cs cs' : List Connection)
    : countNumber k (cs ++ cs') = countNumber k cs + countNumber k cs' := by
  simp [countNumber]

theorem countNumber_filter (p : Connection → Bool) (cs : List Connection)
    : countNumber k (cs.filter p) + countNumber k (cs.filter fun c => !p c) = countNumber k cs := by
  simp only [countNumber, List.count, List.countP_map]
  exact (List.countP_eq_countP_filter_add cs _ p).symm

theorem countNumber_congr {cs cs' : List Connection}
    (h : cs.map Connection.number = cs'.map Connection.number)
    : countNumber k cs = countNumber k cs' := by
  rw [countNumber, countNumber, h]

namespace Service

variable {n : Nat} {s s' : Service n}

/--
Where a session can be.
-/
inductive Place (n : Nat) where
  | active
  | worker (i : Fin n)
  | destroyed

/--
`sessions_to_process` of a worker.
-/
def localSessions (s : Service n) (i : Fin n) : List Connection :=
  (s.daemon.workers i).held ++ (s.workerThreads i).leftover

def sessionsAt (s : Service n) : Place n → List Connection
  | .active => s.daemon.activeSessions
  | .worker i => s.localSessions i
  | .destroyed => s.destroyed

def numbersAt (s : Service n) (p : Place n) : List Nat :=
  (s.sessionsAt p).map Connection.number

/--
How often session number `k` is seen, at all places together.
-/
def sightings (s : Service n) (k : Nat) : Nat :=
  countNumber k s.daemon.activeSessions + Threads.total (countNumber k) s.localSessions
    + countNumber k s.destroyed

/--
How often session number `k` should be seen.
-/
def accepted (s : Service n) (k : Nat) : Nat :=
  if k < s.daemon.totalConnections then 1 else 0

/--
From `s` to `s'` as many sessions appear as are accepted.
-/
def Balanced (s s' : Service n) : Prop :=
  ∀ k, s'.sightings k + s.accepted k = s.sightings k + s'.accepted k

/--
A step that moves sessions between `active_sessions_`, the list of worker `i` and the destroyed ones.
-/
theorem balanced_of_moved (i : Fin n)
    (htotal : s'.daemon.totalConnections = s.daemon.totalConnections)
    (hothers : ∀ j, j ≠ i → s'.localSessions j = s.localSessions j)
    (hmoved : ∀ k, countNumber k s'.daemon.activeSessions + countNumber k (s'.localSessions i)
        + countNumber k s'.destroyed
      = countNumber k s.daemon.activeSessions + countNumber k (s.localSessions i)
        + countNumber k s.destroyed)
    : Balanced s s' := by
  intro k
  have hlocal := Threads.total_eq_of_others (countNumber k) i hothers
  have := hmoved k
  simp only [sightings, accepted, htotal]
  omega

theorem balanced_of_no_local (htotal : s'.daemon.totalConnections = s.daemon.totalConnections)
    (hlocal : s'.localSessions = s.localSessions)
    (hmoved : ∀ k, countNumber k s'.daemon.activeSessions + countNumber k s'.destroyed
      = countNumber k s.daemon.activeSessions + countNumber k s.destroyed)
    : Balanced s s' := by
  intro k
  have := hmoved k
  simp only [sightings, accepted, htotal, hlocal]
  omega

theorem leftover_of_inBody {i : Fin n} {threadStep : ThreadStep n} (h : s.inBody threadStep = true)
    (hi : threadStep = .take i ∨ (∃ env, threadStep = .process i env) ∨ threadStep = .giveBack i)
    : (s.workerThreads i).leftover = [] := by
  cases hpoint : s.workerThreads i with
  | body => rfl
  | head => rfl
  | exited => rfl
  | sleeping => rcases hi with rfl | ⟨env, rfl⟩ | rfl <;> simp [inBody, hpoint] at h

theorem balanced_create {clientSocket : Int} {sslConnection : Option SSLConnection} {d : Daemon n}
    (h : s.daemon.create clientSocket sslConnection = some d)
    : Balanced s (s.moveThread d (.create clientSocket sslConnection)) := by
  unfold Daemon.create at h
  split at h
  . obtain rfl := Option.some.inj h
    intro k
    have hnew : countNumber k [s.daemon.newConnection clientSocket sslConnection]
        + (if k < s.daemon.totalConnections then 1 else 0)
          = if k < s.daemon.totalConnections + 1 then 1 else 0 := by
      rcases Nat.lt_trichotomy k s.daemon.totalConnections with hlt | rfl | hlt
      . have hne : s.daemon.totalConnections ≠ k := by omega
        simp [countNumber, Daemon.newConnection, hlt, hne, Nat.lt_succ_of_lt hlt]
      . simp [countNumber, Daemon.newConnection]
      . have hne : s.daemon.totalConnections ≠ k := by omega
        have hnot : ¬k < s.daemon.totalConnections + 1 := by omega
        simp [countNumber, Daemon.newConnection, hne, hnot, Nat.not_lt_of_lt hlt]
    change countNumber k (s.daemon.activeSessions ++ [s.daemon.newConnection clientSocket sslConnection])
        + Threads.total (countNumber k) s.localSessions + countNumber k s.destroyed
        + (if k < s.daemon.totalConnections then 1 else 0)
      = countNumber k s.daemon.activeSessions + Threads.total (countNumber k) s.localSessions
        + countNumber k s.destroyed + if k < s.daemon.totalConnections + 1 then 1 else 0
    rw [← hnew, countNumber_append]
    omega
  . contradiction

theorem balanced_take {i : Fin n} {d : Daemon n} (h : s.daemon.take i = some d)
    (hleftover : (s.workerThreads i).leftover = [])
    : Balanced s (s.moveThread d (.take i)) := by
  unfold Daemon.take at h
  split at h
  . next hresting =>
    obtain rfl := Option.some.inj h
    apply balanced_of_moved i
    . rfl
    . intro j hne
      simp [localSessions, moveThread, Daemon.setWorker, Function.update_of_ne hne]
    . intro k
      have hfilter := countNumber_filter (k := k) Connection.isActive s.daemon.activeSessions
      simp only [localSessions, moveThread, Daemon.setWorker, Function.update_self, Worker.held,
        hresting, hleftover, List.nil_append, List.append_nil, countNumber_nil]
      omega
  . contradiction

theorem balanced_process {i : Fin n} {env : Env} {d : Daemon n} (h : s.daemon.process i env = some d)
    : Balanced s (s.moveThread d (.process i env)) := by
  unfold Daemon.process at h
  split at h
  . next processed c waiting hprocessing =>
    dsimp only at h
    obtain rfl := Option.some.inj h
    apply balanced_of_moved i
    . rfl
    . intro j hne
      simp [localSessions, moveThread, Daemon.setWorker, Function.update_of_ne hne]
    . intro k
      congr 2
      apply countNumber_congr
      simp [localSessions, moveThread, Daemon.setWorker, Worker.held, hprocessing]
  . contradiction

theorem balanced_giveBack {i : Fin n} {d : Daemon n} (h : s.daemon.giveBack i = some d)
    (hleftover : (s.workerThreads i).leftover = [])
    : Balanced s (s.moveThread d (.giveBack i)) := by
  unfold Daemon.giveBack at h
  split at h
  . next processed hprocessing =>
    dsimp only at h
    obtain rfl := Option.some.inj h
    apply balanced_of_moved i
    . rfl
    . intro j hne
      simp [localSessions, moveThread, setWorkerThread, Daemon.setWorker, Function.update_of_ne hne]
    . intro k
      have hfilter := countNumber_filter (k := k) Connection.isActive processed
      simp only [localSessions, moveThread, setWorkerThread, Daemon.setWorker, Function.update_self,
        Worker.held, WorkerPoint.leftover_sleeping, inactiveOf, hprocessing, hleftover, List.nil_append,
        List.append_nil, countNumber_append]
      omega
  . contradiction

theorem balanced_performThread {threadStep : ThreadStep n} (h : s.performThread threadStep = some s')
    : Balanced s s' := by
  unfold performThread at h
  split at h
  . next hbody =>
    obtain ⟨d, hperform, rfl⟩ := Option.map_eq_some_iff.mp h
    cases threadStep with
    | passCheck =>
      simp only [Daemon.perform, Daemon.passCheck] at hperform
      split at hperform
      . contradiction
      . obtain rfl := Option.some.inj hperform
        exact balanced_of_no_local rfl rfl fun _ => rfl
    | create => exact balanced_create hperform
    | fail =>
      simp only [Daemon.perform, Daemon.fail] at hperform
      split at hperform
      . obtain rfl := Option.some.inj hperform
        exact balanced_of_no_local rfl rfl fun _ => rfl
      . contradiction
    | take i => exact balanced_take hperform (leftover_of_inBody hbody (.inl rfl))
    | process i env => exact balanced_process hperform
    | giveBack i => exact balanced_giveBack hperform (leftover_of_inBody hbody (.inr (.inr rfl)))
  . contradiction

theorem balanced_setWorkerThread {i : Fin n} {point : WorkerPoint}
    (hold : (s.workerThreads i).leftover = []) (hnew : point.leftover = [])
    : Balanced s (s.setWorkerThread i point) := by
  apply balanced_of_moved i
  . rfl
  . intro j hne
    simp [localSessions, setWorkerThread, Function.update_of_ne hne]
  . intro k
    simp [localSessions, setWorkerThread, hold, hnew]

theorem balanced_moveAccept {source target : LoopPoint} {allowed : Bool}
    (h : s.moveAccept source target allowed = some s')
    : Balanced s s' := by
  unfold moveAccept at h
  split at h
  . obtain rfl := Option.some.inj h
    exact balanced_of_no_local rfl rfl fun _ => rfl
  . contradiction

theorem balanced_enter {i : Fin n} (h : s.enter i = some s') : Balanced s s' := by
  unfold enter at h
  split at h
  . next hpoint =>
    split at h
    . obtain rfl := Option.some.inj h
      exact balanced_setWorkerThread (by rw [hpoint]; rfl) rfl
    . contradiction
  . contradiction

theorem balanced_leave {i : Fin n} (h : s.leave i = some s') : Balanced s s' := by
  unfold leave at h
  split at h
  . next hpoint =>
    split at h
    . contradiction
    . obtain rfl := Option.some.inj h
      exact balanced_setWorkerThread (by rw [hpoint]; rfl) rfl
  . contradiction

theorem balanced_wake {i : Fin n} (h : s.wake i = some s') : Balanced s s' := by
  unfold wake at h
  split at h
  . next leftover hpoint =>
    obtain rfl := Option.some.inj h
    apply balanced_of_moved i
    . rfl
    . intro j hne
      simp [localSessions, setWorkerThread, Function.update_of_ne hne]
    . intro k
      have hnone : WorkerPoint.head.leftover = [] := rfl
      simp only [localSessions, setWorkerThread, Function.update_self, hpoint, hnone,
        WorkerPoint.leftover_sleeping, countNumber_append, countNumber_nil]
      omega
  . contradiction

theorem balanced_stop (h : s.stop = some s') : Balanced s s' := by
  unfold stop at h
  repeat' split at h
  all_goals first | contradiction | obtain rfl := Option.some.inj h
  case h_5 =>
    refine balanced_of_no_local rfl rfl fun k => ?_
    congr 1
    apply countNumber_congr
    simp [closeSessions, Connection.close, Function.comp_def]
  case h_6 =>
    refine balanced_of_no_local rfl rfl fun k => ?_
    simp only [cleanupSessions, countNumber_nil, countNumber_append]
    omega
  all_goals exact balanced_of_no_local rfl rfl fun _ => rfl

theorem balanced_perform {serviceStep : ServiceStep n} (h : s.perform serviceStep = some s')
    : Balanced s s' := by
  cases serviceStep with
  | thread => exact balanced_performThread h
  | enterAccept => exact balanced_moveAccept h
  | retryAccept => exact balanced_moveAccept h
  | leaveAccept => exact balanced_moveAccept h
  | breakAccept => exact balanced_moveAccept h
  | enter => exact balanced_enter h
  | wake => exact balanced_wake h
  | leave => exact balanced_leave h
  | stop => exact balanced_stop h

/--
Every accepted session is seen exactly once, and no other one.
-/
def Conserved (s : Service n) : Prop :=
  ∀ k, s.sightings k = s.accepted k

theorem Conserved.perform {serviceStep : ServiceStep n} (h : s.Conserved)
    (hstep : s.perform serviceStep = some s')
    : s'.Conserved := by
  intro k
  have hbalanced := balanced_perform hstep k
  have := h k
  omega

theorem Conserved.of_started (h : s.Started) : s.Conserved := by
  intro k
  have hlocal : Threads.total (countNumber k) s.localSessions = 0 := by
    apply Threads.total_eq_zero
    intro i
    simp [localSessions, h.daemon.resting i, h.waiting i, Worker.held, WorkerPoint.leftover]
  simp [sightings, accepted, hlocal, h.daemon.noSessions, h.noneDestroyed, h.noConnections]

theorem count_numbersAt_le (s : Service n) (p : Place n) : (s.numbersAt p).count k ≤ s.sightings k := by
  have hlocal := Threads.le_total (countNumber k) s.localSessions
  cases p with
  | active =>
    change countNumber k s.daemon.activeSessions ≤ _
    rw [sightings]
    omega
  | worker i =>
    have := hlocal i
    change countNumber k (s.localSessions i) ≤ _
    rw [sightings]
    omega
  | destroyed =>
    change countNumber k s.destroyed ≤ _
    rw [sightings]
    omega

/--
A session at two places is seen twice.
-/
theorem add_count_numbersAt_le (s : Service n) {p q : Place n} (hne : p ≠ q)
    : (s.numbersAt p).count k + (s.numbersAt q).count k ≤ s.sightings k := by
  have hlocal := Threads.le_total (countNumber k) s.localSessions
  cases p with
  | active =>
    change countNumber k s.daemon.activeSessions + _ ≤ _
    cases q with
    | active => contradiction
    | worker j =>
      have := hlocal j
      change _ + countNumber k (s.localSessions j) ≤ _
      rw [sightings]
      omega
    | destroyed =>
      change _ + countNumber k s.destroyed ≤ _
      rw [sightings]
      omega
  | worker i =>
    have := hlocal i
    change countNumber k (s.localSessions i) + _ ≤ _
    cases q with
    | active =>
      change _ + countNumber k s.daemon.activeSessions ≤ _
      rw [sightings]
      omega
    | worker j =>
      -- two different threads, each with its part of the total
      have := Threads.add_le_total (countNumber k) s.localSessions fun h => hne (congrArg _ h)
      change _ + countNumber k (s.localSessions j) ≤ _
      rw [sightings]
      omega
    | destroyed =>
      change _ + countNumber k s.destroyed ≤ _
      rw [sightings]
      omega
  | destroyed =>
    change countNumber k s.destroyed + _ ≤ _
    cases q with
    | active =>
      change _ + countNumber k s.daemon.activeSessions ≤ _
      rw [sightings]
      omega
    | worker j =>
      have := hlocal j
      change _ + countNumber k (s.localSessions j) ≤ _
      rw [sightings]
      omega
    | destroyed => contradiction

theorem Conserved.mem_numbersAt_unique (h : s.Conserved) {p q : Place n} (hp : k ∈ s.numbersAt p)
    (hq : k ∈ s.numbersAt q)
    : p = q := by
  by_contra hne
  have hle := s.add_count_numbersAt_le (k := k) hne
  have := List.count_pos_iff.mpr hp
  have := List.count_pos_iff.mpr hq
  have haccepted : s.accepted k ≤ 1 := by
    unfold accepted
    split <;> omega
  rw [h k] at hle
  omega

theorem Conserved.nodup_numbersAt (h : s.Conserved) (p : Place n) : (s.numbersAt p).Nodup := by
  rw [List.nodup_iff_count_le_one]
  intro k
  have hle := s.count_numbersAt_le (k := k) p
  rw [h k, accepted] at hle
  split at hle <;> omega

theorem Conserved.exists_mem_numbersAt_iff (h : s.Conserved)
    : (∃ p, k ∈ s.numbersAt p) ↔ k < s.daemon.totalConnections := by
  constructor
  . rintro ⟨p, hmem⟩
    by_contra hlt
    have hle := s.count_numbersAt_le (k := k) p
    rw [h k, accepted, if_neg hlt] at hle
    have := List.count_pos_iff.mpr hmem
    omega
  . intro hlt
    have hsightings := h k
    rw [accepted, if_pos hlt, sightings] at hsightings
    by_cases hactive : 0 < countNumber k s.daemon.activeSessions
    . exact ⟨.active, List.count_pos_iff.mp hactive⟩
    . by_cases hdestroyed : 0 < countNumber k s.destroyed
      . exact ⟨.destroyed, List.count_pos_iff.mp hdestroyed⟩
      . obtain ⟨i, hi⟩ := Threads.exists_of_total_pos (countNumber k) s.localSessions (by omega)
        exact ⟨.worker i, List.count_pos_iff.mp hi⟩

/--
All workers have been joined.
-/
def Joined (s : Service n) : Prop :=
  s.stopping = .workersJoined ∨ s.stopping = .sessionsClosed ∨ s.stopping = .done

/--
Why a session may be destroyed: a worker found it inactive, or no worker is left.
-/
structure Supervised (s : Service n) : Prop where
  leftover : ∀ i, ∀ c ∈ (s.workerThreads i).leftover, c.isActive = false
  joined : s.Joined → ∀ i, (s.workerThreads i).isExited = true

theorem Supervised.setWorkerThread {i : Fin n} {point : WorkerPoint} (h : s.Supervised)
    (hexited : (s.workerThreads i).isExited = false)
    (hpoint : ∀ c ∈ point.leftover, c.isActive = false)
    : (s.setWorkerThread i point).Supervised where
  leftover := by
    intro j c hc
    by_cases hj : j = i
    . subst hj
      rw [workerThreads_setWorkerThread_self] at hc
      exact hpoint c hc
    . rw [workerThreads_setWorkerThread_of_ne _ hj] at hc
      exact h.leftover j c hc
  joined := by
    intro hjoined
    have := h.joined hjoined i
    rw [hexited] at this
    contradiction

theorem Supervised.performThread {threadStep : ThreadStep n} (h : s.Supervised)
    (hstep : s.performThread threadStep = some s')
    : s'.Supervised := by
  unfold Service.performThread at hstep
  split at hstep
  . next hbody =>
    obtain ⟨d, -, rfl⟩ := Option.map_eq_some_iff.mp hstep
    cases threadStep with
    | giveBack i =>
      have hpoint : s.workerThreads i = .body := by
        simp only [inBody] at hbody
        split at hbody
        . assumption
        . contradiction
      have hd : ({ s with daemon := d } : Service n).Supervised := ⟨h.leftover, h.joined⟩
      refine hd.setWorkerThread (by rw [hpoint]; rfl) ?_
      cases hworker : s.daemon.workers i <;> simp [inactiveOf]
    | passCheck => exact ⟨h.leftover, h.joined⟩
    | create => exact ⟨h.leftover, h.joined⟩
    | fail => exact ⟨h.leftover, h.joined⟩
    | take => exact ⟨h.leftover, h.joined⟩
    | process => exact ⟨h.leftover, h.joined⟩
  . contradiction

theorem Supervised.moveAccept {source target : LoopPoint} {allowed : Bool} (h : s.Supervised)
    (hstep : s.moveAccept source target allowed = some s')
    : s'.Supervised := by
  unfold Service.moveAccept at hstep
  split at hstep
  . obtain rfl := Option.some.inj hstep
    exact ⟨h.leftover, h.joined⟩
  . contradiction

theorem Supervised.stop (h : s.Supervised) (hstep : s.stop = some s') : s'.Supervised := by
  unfold Service.stop at hstep
  split at hstep
  . split at hstep
    . obtain rfl := Option.some.inj hstep
      exact ⟨h.leftover, by simp [Joined]⟩
    . contradiction
  . obtain rfl := Option.some.inj hstep
    exact ⟨h.leftover, by simp [Joined]⟩
  . split at hstep
    . obtain rfl := Option.some.inj hstep
      exact ⟨h.leftover, by simp [Joined]⟩
    . contradiction
  . split at hstep
    . next hexited =>
      obtain rfl := Option.some.inj hstep
      exact ⟨h.leftover, fun _ => hexited⟩
    . contradiction
  . next hpoint =>
    obtain rfl := Option.some.inj hstep
    exact ⟨h.leftover, fun _ => h.joined (.inl hpoint)⟩
  . next hpoint =>
    obtain rfl := Option.some.inj hstep
    exact ⟨h.leftover, fun _ => h.joined (.inr (.inl hpoint))⟩
  . contradiction

theorem Supervised.perform {serviceStep : ServiceStep n} (h : s.Supervised)
    (hstep : s.perform serviceStep = some s')
    : s'.Supervised := by
  cases serviceStep with
  | thread => exact h.performThread hstep
  | enterAccept => exact h.moveAccept hstep
  | retryAccept => exact h.moveAccept hstep
  | leaveAccept => exact h.moveAccept hstep
  | breakAccept => exact h.moveAccept hstep
  | stop => exact h.stop hstep
  | enter i =>
    simp only [Service.perform, enter] at hstep
    split at hstep
    . next hpoint =>
      split at hstep
      . obtain rfl := Option.some.inj hstep
        exact h.setWorkerThread (by rw [hpoint]; rfl) (by simp [WorkerPoint.leftover])
      . contradiction
    . contradiction
  | wake i =>
    simp only [Service.perform, wake] at hstep
    split at hstep
    . next leftover hpoint =>
      obtain rfl := Option.some.inj hstep
      -- what is left over is destroyed before the thread looks for work
      have hd : ({ s with destroyed := s.destroyed ++ leftover } : Service n).Supervised :=
        ⟨h.leftover, h.joined⟩
      exact hd.setWorkerThread (by simp [hpoint, WorkerPoint.isExited]) (by simp [WorkerPoint.leftover])
    . contradiction
  | leave i =>
    simp only [Service.perform, leave] at hstep
    split at hstep
    . next hpoint =>
      split at hstep
      . contradiction
      . obtain rfl := Option.some.inj hstep
        exact h.setWorkerThread (by rw [hpoint]; rfl) (by simp [WorkerPoint.leftover])
    . contradiction

theorem Supervised.of_started (h : s.Started) : s.Supervised where
  leftover := by
    intro i c hc
    simp [h.waiting i, WorkerPoint.leftover] at hc
  joined := by
    intro hjoined
    simp [Joined, h.notStopped] at hjoined

/--
Only the end of an iteration and the end of `stop()` destroy sessions.
-/
theorem mem_destroyed_of_perform {serviceStep : ServiceStep n} (h : s.Supervised)
    (hstep : s.perform serviceStep = some s') {c : Connection} (hc : c ∈ s'.destroyed)
    : c ∈ s.destroyed ∨ c.isActive = false ∨ s.Joined := by
  cases serviceStep with
  | thread threadStep =>
    simp only [perform, performThread] at hstep
    split at hstep
    . obtain ⟨d, -, rfl⟩ := Option.map_eq_some_iff.mp hstep
      cases threadStep <;> exact .inl hc
    . contradiction
  | wake i =>
    simp only [perform, wake] at hstep
    split at hstep
    . next leftover hpoint =>
      obtain rfl := Option.some.inj hstep
      rcases List.mem_append.mp hc with hc | hc
      . exact .inl hc
      -- only sessions that have ended are left over from an iteration
      . have hleftover := h.leftover i c
        rw [hpoint] at hleftover
        exact .inr (.inl (hleftover hc))
    . contradiction
  | stop =>
    simp only [perform, stop] at hstep
    repeat' split at hstep
    case h_6 hpoint => exact .inr (.inr (.inr (.inl hpoint)))
    all_goals first | contradiction | (obtain rfl := Option.some.inj hstep; exact .inl hc)
  | enterAccept | retryAccept | leaveAccept | breakAccept =>
    simp only [perform, moveAccept] at hstep
    split at hstep
    . obtain rfl := Option.some.inj hstep
      exact .inl hc
    . contradiction
  | enter i =>
    simp only [perform, enter] at hstep
    repeat' split at hstep
    all_goals first | contradiction | (obtain rfl := Option.some.inj hstep; exact .inl hc)
  | leave i =>
    simp only [perform, leave] at hstep
    repeat' split at hstep
    all_goals first | contradiction | (obtain rfl := Option.some.inj hstep; exact .inl hc)

/--
The session for which worker `i` is inside `processRequest`.
-/
def processing (s : Service n) (i : Fin n) : Option Connection :=
  match s.daemon.workers i with
  | .processing _ (c :: _) => some c
  | _ => none

theorem mem_localSessions_of_processing {i : Fin n} {c : Connection} (h : s.processing i = some c)
    : c.number ∈ s.numbersAt (.worker i) := by
  unfold processing at h
  split at h
  . next hworker =>
    obtain rfl := Option.some.inj h
    simp [numbersAt, sessionsAt, localSessions, Worker.held, hworker]
  . contradiction

/--
In every state that a daemon reaches, whatever the order of the steps, each accepted session is at one
place and there once, no two workers process the same one, and the next step destroys a session only if
it is inactive or all workers have exited and been joined.
-/
theorem sessions_conserved {serviceSteps : List (ServiceStep n)} (hstarted : s.Started)
    (hrun : step.Run s serviceSteps s')
    : (∀ k < s'.daemon.totalConnections, ∃! p, k ∈ s'.numbersAt p)
        ∧ (∀ p, (s'.numbersAt p).Nodup ∧ ∀ k ∈ s'.numbersAt p, k < s'.daemon.totalConnections)
        ∧ (∀ i j c c', s'.processing i = some c → s'.processing j = some c' → c.number = c'.number → i = j)
        ∧ ∀ serviceStep s'', step s' serviceStep s'' → ∀ c ∈ s''.destroyed,
          c ∈ s'.destroyed ∨ c.isActive = false
            ∨ s'.Joined ∧ ∀ i, (s'.workerThreads i).isExited = true := by
  have hconserved : s'.Conserved :=
    hrun.invariant (.of_started hstarted) fun _ _ _ h hstep => h.perform hstep
  have hsupervised : s'.Supervised :=
    hrun.invariant (.of_started hstarted) fun _ _ _ h hstep => h.perform hstep
  refine ⟨?_, ?_, ?_, ?_⟩
  . intro k hlt
    obtain ⟨p, hp⟩ := hconserved.exists_mem_numbersAt_iff.mpr hlt
    exact ⟨p, hp, fun q hq => hconserved.mem_numbersAt_unique hq hp⟩
  . intro p
    exact ⟨hconserved.nodup_numbersAt p, fun k hk => hconserved.exists_mem_numbersAt_iff.mp ⟨p, hk⟩⟩
  . intro i j c c' hi hj hnumber
    have hmem := mem_localSessions_of_processing hj
    rw [← hnumber] at hmem
    cases hconserved.mem_numbersAt_unique (mem_localSessions_of_processing hi) hmem
    rfl
  . intro serviceStep s'' hstep c hc
    rcases mem_destroyed_of_perform hsupervised hstep hc with hold | hinactive | hjoined
    . exact .inl hold
    . exact .inr (.inl hinactive)
    . exact .inr (.inr ⟨hjoined, hsupervised.joined hjoined⟩)

/--
One worker, and a client that it has taken over.
-/
theorem sessions_conserved_single
    : ∃ s', step.Run ({ daemon := Daemon.single } : Service 1)
          [.enterAccept, .thread .passCheck, .thread (.create 4 none), .enter 0, .thread (.take 0)] s'
        ∧ ∃! p, 0 ∈ s'.numbersAt p := by
  have hstarted : ({ daemon := Daemon.single } : Service 1).Started :=
    ⟨Daemon.started_single, rfl, rfl, fun _ => rfl, rfl, rfl⟩
  have hrun : ∃ s', step.Run ({ daemon := Daemon.single } : Service 1)
      [.enterAccept, .thread .passCheck, .thread (.create 4 none), .enter 0, .thread (.take 0)] s'
      ∧ 0 < s'.daemon.totalConnections :=
    ⟨_, .cons rfl (.cons rfl (.cons rfl (.cons rfl (.cons rfl .nil)))), by decide⟩
  obtain ⟨s', hrun, hlt⟩ := hrun
  exact ⟨s', hrun, (sessions_conserved hstarted hrun).1 0 hlt⟩

end Service
end SimpleRsyncd
