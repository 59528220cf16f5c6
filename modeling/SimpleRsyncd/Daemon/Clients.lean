import SimpleRsyncd.Daemon.Ownership
import SimpleRsyncd.Session.Gate
import SimpleRsyncd.Session.History
import SimpleRsyncd.Transition.Shared
import SimpleRsyncd.Transition.Simulation

/-!
This module contains what the threads of a daemon do together, seen from outside: clients on one file
system, which are served one request at a time. Where a session is and which worker has it makes no
difference, every run of the daemon is a run of its clients.
-/

namespace SimpleRsyncd

/--
What clients can see of the daemon: the requests that are served.
-/
def ServiceStep.requests {n : Nat} : ServiceStep n → List Env
  | .thread (.process _ env) => [env]
  | _ => []

/--
An accepted client: its session as it is now and everything that it has done so far.
-/
structure Client where
  session : Session
  trace : List Event := []

namespace Client

def world (c : Client) (fs : FileSystem) : World :=
  { session := c.session, fs, trace := c.trace }

/--
A worker serves a client, or the daemon closes its session.
-/
def step : Transition (Client × FileSystem) Action :=
  fun (c, fs) action (c', fs') => World.workerStep (c.world fs) action (c'.world fs')

/--
`accept` has returned a descriptor, a TLS connection is on this descriptor.
-/
structure Joins (authConfig : Option AuthConfig) (modules : Bytes → Option Module) (c : Client) : Prop where
  socket : 0 ≤ c.session.clientSocket
  tls : ∀ ssl, c.session.sslConnection = some ssl → ssl.fd = c.session.clientSocket
  new : c = {
    session := {
      clientSocket := c.session.clientSocket
      sslConnection := c.session.sslConnection
      config := authConfig
      handler := { modules }
    }
  }

def requests : SharedAction Client Action → List Env
  | .act _ (.request env) => [env]
  | _ => []

/--
The clients of a daemon, in the order in which they were accepted.
-/
abbrev table (authConfig : Option AuthConfig) (modules : Bytes → Option Module)
    : Transition (Shared Client FileSystem) (SharedAction Client Action) :=
  Shared.step (Joins authConfig modules) step

theorem step_act (c : Client) (fs : FileSystem) (action : Action)
    : step (c, fs) action
        (
          {
            session := (World.workerAct action { session := c.session, fs }).session
            trace := c.trace ++ (World.workerAct action { session := c.session, fs }).trace
          },
          (World.workerAct action { session := c.session, fs }).fs
        ) := by
  have hworld : c.world fs = World.after c.trace { session := c.session, fs } := by
    simp [world, World.after]
  change World.workerAct action (c.world fs) = _
  rw [hworld]
  cases action with
  | request env => exact World.serve_after c.trace env _
  | close => exact World.close_after c.trace _

/--
Connection `c` is client number `c.number`.
-/
def Known (components : List Client) (c : Connection) : Prop :=
  ∃ trace, components[c.number]? = some { session := c.session, trace }

end Client

namespace Service

open Client

variable {n : Nat} {s s' : Service n} {t : Shared Client FileSystem}

/--
The table shows all accepted clients with the sessions they have, wherever in the daemon these are.
-/
structure Shows (s : Service n) (t : Shared Client FileSystem) : Prop where
  fs : t.shared = s.daemon.fs
  length : t.components.length = s.daemon.totalConnections
  known : ∀ p, ∀ c ∈ s.sessionsAt p, Known t.components c

/--
From `s` to `s'` sessions are at most moved between the places.
-/
structure Moves (s s' : Service n) : Prop where
  fs : s'.daemon.fs = s.daemon.fs
  totalConnections : s'.daemon.totalConnections = s.daemon.totalConnections
  sessions : ∀ p, ∀ c ∈ s'.sessionsAt p, ∃ q, c ∈ s.sessionsAt q

/--
Steps that leave all sessions where they are.
-/
theorem Moves.of_same (hdaemon : s'.daemon = s.daemon) (hlocal : ∀ i, s'.localSessions i = s.localSessions i)
    (hdestroyed : s'.destroyed = s.destroyed)
    : Moves s s' where
  fs := by rw [hdaemon]
  totalConnections := by rw [hdaemon]
  sessions := by
    intro p c hc
    refine ⟨p, ?_⟩
    cases p with
    | active => simpa [sessionsAt, hdaemon] using hc
    | worker i => simpa [sessionsAt, hlocal] using hc
    | destroyed => simpa [sessionsAt, hdestroyed] using hc

/--
A new client comes last, with the number that the daemon gives to its connection.
-/
theorem Shows.create {clientSocket : Int} {sslConnection : Option SSLConnection} {d : Daemon n} (h : s.Shows t)
    (hcreate : s.daemon.create clientSocket sslConnection = some d)
    : (s.moveThread d (.create clientSocket sslConnection)).Shows
        ⟨t.components ++ [{ session := (s.daemon.newConnection clientSocket sslConnection).session }], t.shared⟩ := by
  unfold Daemon.create at hcreate
  split at hcreate
  . obtain rfl := Option.some.inj hcreate
    have hbefore : ∀ p, ∀ c ∈ s.sessionsAt p, ∀ client,
        Known (t.components ++ [client]) c := by
      intro p c hc client
      obtain ⟨trace, hk⟩ := h.known p c hc
      exact ⟨trace, by rw [List.getElem?_append_left (List.getElem?_eq_some_iff.mp hk).1, hk]⟩
    refine ⟨h.fs, by simp [moveThread, h.length], ?_⟩
    intro p c hc
    cases p with
    | active =>
      rcases List.mem_append.mp hc with hc | hc
      . exact hbefore .active c hc _
      . obtain rfl := List.mem_singleton.mp hc
        exact ⟨[], by simp [Daemon.newConnection, ← h.length]⟩
    | worker i => exact hbefore (.worker i) c hc _
    | destroyed => exact hbefore .destroyed c hc _
  . contradiction

/--
What becomes of a client that is served, and of the others.
-/
theorem known_set {c c' : Connection} {client : Client} (hc : Known t.components c)
    (hnumber : c'.number = c.number) (hsession : client.session = c'.session)
    : Known (t.components.set c.number client) c' := by
  obtain ⟨trace, hk⟩ := hc
  refine ⟨client.trace, ?_⟩
  rw [hnumber, List.getElem?_set_self (List.getElem?_eq_some_iff.mp hk).1, ← hsession]

theorem known_set_of_ne {c : Connection} {k : Nat} {client : Client} (hc : Known t.components c) (hk : c.number ≠ k)
    : Known (t.components.set k client) c := by
  obtain ⟨trace, hc⟩ := hc
  exact ⟨trace, by rwa [List.getElem?_set_ne hk.symm]⟩

theorem number_ne_of_nodup {before after : List Connection} {c c' : Connection}
    (h : ((before ++ c :: after).map Connection.number).Nodup) (hc' : c' ∈ before ∨ c' ∈ after)
    : c'.number ≠ c.number := by
  rw [List.map_append, List.map_cons, List.nodup_middle, List.nodup_cons, ← List.map_append] at h
  intro hnumber
  apply h.1
  rw [← hnumber]
  exact List.mem_map_of_mem (List.mem_append.mpr hc')

/--
A worker is the only one with the session it serves, so no other session is out of date afterwards.
-/
theorem Shows.process {i : Fin n} {env : Env} {d : Daemon n} (h : s.Shows t) (hconserved : s.Conserved)
    (hprocess : s.daemon.process i env = some d)
    : ∃ k t', (table s.daemon.authConfig s.daemon.modules) t (.act k (.request env)) t'
        ∧ (s.moveThread d (.process i env)).Shows t' := by
  unfold Daemon.process at hprocess
  split at hprocess
  . next processed c waiting hprocessing =>
    dsimp only at hprocess
    obtain rfl := Option.some.inj hprocess
    have hlocal : s.sessionsAt (.worker i) = processed ++ c :: waiting ++ (s.workerThreads i).leftover := by
      simp [sessionsAt, localSessions, hprocessing, Worker.held]
    have hc : c ∈ s.sessionsAt (.worker i) := by simp [hlocal]
    have hknown := h.known _ c hc
    obtain ⟨trace, hk⟩ := hknown
    have hstep := Client.step_act { session := c.session, trace } t.shared (.request env)
    refine ⟨c.number, _, .act hk hstep, ?_⟩
    rw [h.fs]
    refine ⟨rfl, by simpa [moveThread, Daemon.setWorker] using h.length, ?_⟩
    intro p c' hc'
    by_cases hp : p = .worker i
    . subst hp
      have hnodup := hconserved.nodup_numbersAt (.worker i)
      rw [numbersAt, hlocal, List.append_assoc, List.cons_append] at hnodup
      simp only [sessionsAt, localSessions, moveThread, Daemon.setWorker, Function.update_self, Worker.held,
        List.append_assoc, List.mem_append, List.mem_singleton] at hc'
      by_cases hserved : c' ∈ processed ∨ c' ∈ waiting ++ (s.workerThreads i).leftover
      . apply known_set_of_ne (h.known (.worker i) c' _) (number_ne_of_nodup hnodup hserved)
        rw [hlocal]
        simp only [List.mem_append, List.mem_cons] at hserved ⊢
        tauto
      . rw [List.mem_append] at hserved
        obtain rfl : c' = _ := by tauto
        exact known_set ⟨trace, hk⟩ rfl rfl
    . have hold : c' ∈ s.sessionsAt p := by
        cases p with
        | active => exact hc'
        | destroyed => exact hc'
        | worker j =>
          have hj : j ≠ i := fun heq => hp (by rw [heq])
          simpa [sessionsAt, localSessions, moveThread, Daemon.setWorker, Function.update_of_ne hj] using hc'
      apply known_set_of_ne (h.known p c' hold)
      intro hnumber
      apply hp
      apply hconserved.mem_numbersAt_unique (k := c.number)
      . rw [← hnumber]
        exact List.mem_map_of_mem hold
      . exact List.mem_map_of_mem hc
  . contradiction

/--
The daemon closes sessions one after the other, each of them is another client.
-/
theorem run_close (authConfig : Option AuthConfig) (modules : Bytes → Option Module) (cs : List Connection)
    (hknown : ∀ c ∈ cs, Known t.components c) (hnodup : (cs.map Connection.number).Nodup)
    : ∃ t', (table authConfig modules).Run t (cs.map fun c => .act c.number .close) t'
        ∧ t'.shared = t.shared
        ∧ t'.components.length = t.components.length
        ∧ (∀ c ∈ cs, Known t'.components (c.close t.shared))
        ∧ ∀ c, Known t.components c → c.number ∉ cs.map Connection.number → Known t'.components c := by
  induction cs using List.reverseRecOn with
  | nil => exact ⟨t, .nil, rfl, rfl, by simp, fun _ h _ => h⟩
  | append_singleton cs last ih =>
    rw [List.map_append, List.nodup_append'] at hnodup
    obtain ⟨hnodup, -, hdisjoint⟩ := hnodup
    have hlast : last.number ∉ cs.map Connection.number := fun hmem =>
      hdisjoint hmem (List.mem_singleton_self _)
    obtain ⟨u, hrun, hfs, hlength, hclosed, hothers⟩ :=
      ih (fun c hc => hknown c (List.mem_append_left _ hc)) hnodup
    obtain ⟨trace, hk⟩ := hothers last (hknown last (by simp)) hlast
    have hstep := Client.step_act { session := last.session, trace } u.shared .close
    have hshared : (World.workerAct .close { session := last.session, fs := u.shared }).fs = u.shared := by
      rw [World.workerAct, World.close]
      repeat' split
      all_goals rfl
    rw [hshared] at hstep
    simp only [List.map_append, List.map_cons, List.map_nil]
    refine ⟨_, hrun.snoc (.act hk hstep), hfs, ?_, ?_, ?_⟩
    . simpa using hlength
    . intro c hc
      rcases List.mem_append.mp hc with hc | hc
      . apply known_set_of_ne (hclosed c hc)
        intro hnumber
        change c.number = last.number at hnumber
        rw [← hnumber] at hlast
        exact hlast (List.mem_map_of_mem hc)
      . obtain rfl := List.mem_singleton.mp hc
        rw [← hfs]
        exact known_set ⟨trace, hk⟩ rfl rfl
    . intro c hc hnumber
      rw [List.mem_append, not_or] at hnumber
      apply known_set_of_ne (hothers c hc hnumber.1)
      simpa using hnumber.2

theorem Shows.close {authConfig : Option AuthConfig} {modules : Bytes → Option Module} (h : s.Shows t)
    (hconserved : s.Conserved) (stopping : StopPoint)
    : ∃ actions t', (table authConfig modules).Run t actions t'
        ∧ Shows { s.closeSessions with stopping } t'
        ∧ actions.flatMap requests = [] := by
  obtain ⟨t', hrun, hfs, hlength, hclosed, hothers⟩ := run_close authConfig modules
    s.daemon.activeSessions (h.known .active) (hconserved.nodup_numbersAt .active)
  refine ⟨_, t', hrun, ⟨hfs.trans h.fs, hlength.trans h.length, ?_⟩, by simp [List.flatMap_map, requests]⟩
  have helsewhere : ∀ p, p ≠ .active → ∀ c ∈ s.sessionsAt p, Known t'.components c := by
    intro p hp c hc
    refine hothers c (h.known p c hc) fun hmem => hp ?_
    exact hconserved.mem_numbersAt_unique (List.mem_map_of_mem hc) (q := .active) hmem
  intro p c hc
  cases p with
  | active =>
    obtain ⟨c, hopen, rfl⟩ := List.mem_map.mp hc
    rw [← h.fs]
    exact hclosed c hopen
  | worker i => exact helsewhere (.worker i) (by simp) c hc
  | destroyed => exact helsewhere .destroyed (by simp) c hc

/--
The table before anyone is accepted.
-/
def noClients (s : Service n) : Shared Client FileSystem :=
  { components := [], shared := s.daemon.fs }

theorem Shows.of_started (h : s.Started) : s.Shows s.noClients where
  fs := rfl
  length := h.noConnections.symm
  known := by
    intro p c hc
    cases p with
    | active => simp [sessionsAt, h.daemon.noSessions] at hc
    | worker i => simp [sessionsAt, localSessions, h.daemon.resting, h.waiting, Worker.held,
        WorkerPoint.leftover] at hc
    | destroyed => simp [sessionsAt, h.noneDestroyed] at hc

/--
What a state of the daemon has to do with the state of its clients.
-/
structure Related (authConfig : Option AuthConfig) (modules : Bytes → Option Module) (s : Service n)
    (t : Shared Client FileSystem) : Prop where
  shows : s.Shows t
  conserved : s.Conserved
  authConfig : s.daemon.authConfig = authConfig
  modules : s.daemon.modules = modules

theorem Related.of_started (h : s.Started) : s.Related s.daemon.authConfig s.daemon.modules s.noClients :=
  ⟨.of_started h, .of_started h, rfl, rfl⟩

/--
A daemon with one worker and the module `m`, whose root `/m` is empty.
-/
def serving (authConfig : Option AuthConfig) : Service 1 where
  daemon := {
    authConfig
    modules := (World.single none []).session.handler.modules
    maxConnections := 1
    fs := (World.single none []).fs
  }

end Service
end SimpleRsyncd
