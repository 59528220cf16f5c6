import SimpleRsyncd.Bytes.Order
import SimpleRsyncd.Time.Basic
import SimpleRsyncd.Transition.Basic

/-!
This module contains the manager of login sessions. Whether a session has expired is not stored but
computed from the time of its last activity, a session that has expired stays in the map until it is
cleaned up.
-/

namespace SimpleRsyncd

structure SessionInfo where
  sessionId : Bytes
  username : Bytes
  clientAddress : Bytes
  createdAt : Time
  lastActivity : Time
  timeout : Int
  active : Bool := true
  deriving DecidableEq

namespace SessionInfo

def expired (session : SessionInfo) (now : Time) : Bool :=
  Time.elapsed session.lastActivity now > session.timeout

theorem expired_of_le {session : SessionInfo} {now now' : Time} (h : session.expired now = true) (hle : now ≤ now')
    : session.expired now' = true := by
  simp only [expired, decide_eq_true_eq] at h ⊢
  exact Int.lt_of_lt_of_le h (Time.elapsed_le_elapsed _ hle)

end SessionInfo

structure SessionManager where
  defaultTimeout : Int := 3600
  sessions : OrderedMap Bytes SessionInfo

namespace SessionManager

def new (defaultTimeout : Int) : SessionManager where
  defaultTimeout
  sessions := .empty

/--
The operation after `generateSessionId()` has returned a session id.
-/
def createSession (mgr : SessionManager) (now : Time) (sessionId username clientAddress : Bytes) (timeout : Int)
    : SessionManager :=
  let timeout := if timeout = 0 then mgr.defaultTimeout else timeout
  let session : SessionInfo := {
    sessionId, username, clientAddress
    createdAt := now
    lastActivity := now
    timeout
    active := true
  }
  { mgr with sessions := mgr.sessions.insert sessionId session }

def getSession (mgr : SessionManager) (sessionId : Bytes) : Option SessionInfo :=
  mgr.sessions.lookup sessionId

def updateActivity (mgr : SessionManager) (now : Time) (sessionId : Bytes) : Bool × SessionManager :=
  match mgr.sessions.lookup sessionId with
  | none => (false, mgr)
  | some session =>
    (true, { mgr with sessions := mgr.sessions.insert sessionId { session with lastActivity := now } })

def isValidSession (mgr : SessionManager) (now : Time) (sessionId : Bytes) : Bool :=
  match mgr.sessions.lookup sessionId with
  | none => false
  | some session => if !session.active then false else !session.expired now

def deleteSession (mgr : SessionManager) (sessionId : Bytes) : Bool × SessionManager :=
  match mgr.sessions.lookup sessionId with
  | none => (false, mgr)
  | some _ => (true, { mgr with sessions := mgr.sessions.erase sessionId })

def cleanupExpiredSessions (mgr : SessionManager) (now : Time) : Nat × SessionManager :=
  let stale := fun (e : Bytes × SessionInfo) => e.2.expired now || !e.2.active
  (mgr.sessions.entries.countP stale, { mgr with sessions := mgr.sessions.filter (!stale ·) })

def getActiveSessions (mgr : SessionManager) (now : Time) : List Bytes :=
  let alive := fun (e : Bytes × SessionInfo) => e.2.active && Time.elapsed e.2.lastActivity now ≤ e.2.timeout
  (mgr.sessions.entries.filter alive).map Prod.fst

def getSessionCount (mgr : SessionManager) : Nat :=
  mgr.sessions.entries.length

/--
A manager, the clock and the session ids that have been given out.
-/
structure Clocked where
  mgr : SessionManager
  now : Time
  issued : List Bytes

/--
The calls of a manager, time passes between them.
-/
inductive Action where
  | wait (nanoseconds : Nat)
  | createSession (sessionId username clientAddress : Bytes) (timeout : Int)
  | updateActivity (sessionId : Bytes)
  | deleteSession (sessionId : Bytes)
  | cleanupExpiredSessions
  | query
  deriving DecidableEq

def perform : Action → Clocked → Clocked
  | .wait nanoseconds, s => { s with now := s.now + nanoseconds }
  | .createSession sessionId username clientAddress timeout, s =>
    { s with
      mgr := s.mgr.createSession s.now sessionId username clientAddress timeout
      issued := sessionId :: s.issued }
  | .updateActivity sessionId, s => { s with mgr := (s.mgr.updateActivity s.now sessionId).2 }
  | .deleteSession sessionId, s => { s with mgr := (s.mgr.deleteSession sessionId).2 }
  | .cleanupExpiredSessions, s => { s with mgr := (s.mgr.cleanupExpiredSessions s.now).2 }
  | .query, s => s

/--
No session id is given out twice.
-/
def Fresh (s : Clocked) : Action → Prop
  | .createSession sessionId .. => sessionId ∉ s.issued
  | _ => True

def step : Transition Clocked Action :=
  (Transition.ofFun perform).restrict Fresh

namespace Clocked

def start (defaultTimeout : Int) (now : Time) : Clocked where
  mgr := .new defaultTimeout
  now
  issued := []

def isValidSession (s : Clocked) (sessionId : Bytes) : Bool :=
  s.mgr.isValidSession s.now sessionId

end Clocked

theorem isValidSession_eq_true_iff {mgr : SessionManager} {now : Time} {sessionId : Bytes}
    : mgr.isValidSession now sessionId = true
      ↔ ∃ session, mgr.sessions.lookup sessionId = some session ∧ session.active = true
        ∧ session.expired now = false := by
  unfold isValidSession
  cases mgr.sessions.lookup sessionId with
  | none => simp
  | some session => cases hactive : session.active <;> simp [hactive]

theorem isValidSession_eq_false_iff {mgr : SessionManager} {now : Time} {sessionId : Bytes}
    : mgr.isValidSession now sessionId = false
      ↔ ∀ session, mgr.sessions.lookup sessionId = some session → session.active = true
        → session.expired now = true := by
  unfold isValidSession
  cases mgr.sessions.lookup sessionId with
  | none => simp
  | some session => cases hactive : session.active <;> simp [hactive]

/--
What a step can do to a session that has been given out: it stays the same, it is removed, or its last
activity becomes now.
-/
theorem lookup_step {s s' : Clocked} {a : Action} {sessionId : Bytes} (h : step s a s')
    (hissued : sessionId ∈ s.issued)
    : s'.mgr.sessions.lookup sessionId = s.mgr.sessions.lookup sessionId
      ∨ s'.mgr.sessions.lookup sessionId = none
      ∨ a = .updateActivity sessionId ∧ ∃ session, s.mgr.sessions.lookup sessionId = some session
        ∧ s'.mgr.sessions.lookup sessionId = some { session with lastActivity := s.now } := by
  obtain ⟨hfresh, rfl⟩ := h
  cases a with
  | wait | query => exact .inl rfl
  | createSession newId =>
    -- new ids are unlike all that were given out before
    have hne : sessionId ≠ newId := by
      rintro rfl
      exact hfresh hissued
    left
    exact s.mgr.sessions.lookup_insert_of_ne _ hne
  | updateActivity updated =>
    simp only [perform, updateActivity]
    cases hlookup : s.mgr.sessions.lookup updated with
    | none => exact .inl rfl
    | some session =>
      by_cases heq : sessionId = updated
      . subst heq
        exact .inr (.inr ⟨rfl, session, hlookup, s.mgr.sessions.lookup_insert_self _⟩)
      . exact .inl (s.mgr.sessions.lookup_insert_of_ne _ heq)
  | deleteSession deleted =>
    simp only [perform, deleteSession]
    split
    . exact .inl rfl
    . rw [OrderedMap.lookup_erase]
      split
      . exact .inr (.inl rfl)
      . exact .inl rfl
  | cleanupExpiredSessions =>
    simp only [perform, cleanupExpiredSessions]
    rw [OrderedMap.lookup_filter]
    cases s.mgr.sessions.lookup sessionId with
    | none => exact .inl rfl
    | some session =>
      rw [Option.filter_some]
      split
      . exact .inl rfl
      . exact .inr (.inl rfl)

end SessionManager
end SimpleRsyncd
