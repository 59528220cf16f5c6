import SimpleRsyncd.Auth.SessionManager

/-!
This module contains what the functions that look at the expiry of sessions have in common: a session is
valid if and only if it is listed as active, and a cleanup keeps exactly the valid ones.
-/

namespace SimpleRsyncd
namespace SessionManager

variable (mgr : SessionManager) (now : Time)

/--
The condition of `isValidSession` on an entry of the map.
-/
def alive (e : Bytes × SessionInfo) : Bool :=
  e.2.active && !e.2.expired now

theorem isValidSession_eq_any (sessionId : Bytes)
    : mgr.isValidSession now sessionId = (mgr.getSession sessionId).any fun session => alive now (sessionId, session) := by
  unfold isValidSession getSession alive
  cases mgr.sessions.lookup sessionId with
  | none => rfl
  | some session => cases session.active <;> simp

/--
The two other functions test the same condition, once the other way round and once negated.
-/
theorem getActiveSessions_eq : mgr.getActiveSessions now = (mgr.sessions.entries.filter (alive now)).map Prod.fst := by
  have hcond : ∀ session : SessionInfo, decide (Time.elapsed session.lastActivity now ≤ session.timeout)
      = !session.expired now := by
    intro session
    simp only [SessionInfo.expired, ← decide_not, Int.not_lt, gt_iff_lt]
  simp only [getActiveSessions, hcond]
  rfl

theorem stale_eq (e : Bytes × SessionInfo) : (e.2.expired now || !e.2.active) = !alive now e := by
  simp [alive, Bool.or_comm]

theorem cleanupExpiredSessions_eq
    : mgr.cleanupExpiredSessions now
        =
      (mgr.sessions.entries.countP (!alive now ·), { mgr with sessions := mgr.sessions.filter (alive now) }) := by
  simp only [cleanupExpiredSessions, stale_eq, Bool.not_not]

theorem mem_getActiveSessions_iff (sessionId : Bytes)
    : sessionId ∈ mgr.getActiveSessions now ↔ mgr.isValidSession now sessionId = true := by
  rw [isValidSession_eq_any, Option.any_eq_true]
  simp only [getActiveSessions_eq, List.mem_map, List.mem_filter, getSession, ← OrderedMap.mem_entries_iff]
  constructor
  . rintro ⟨⟨_, session⟩, ⟨hmem, halive⟩, rfl⟩
    exact ⟨session, hmem, halive⟩
  . rintro ⟨session, hmem, halive⟩
    exact ⟨(sessionId, session), ⟨hmem, halive⟩, rfl⟩

theorem getSession_cleanup (sessionId : Bytes)
    : (mgr.cleanupExpiredSessions now).2.getSession sessionId
        =
      if mgr.isValidSession now sessionId then mgr.getSession sessionId else none := by
  have hlookup : (mgr.cleanupExpiredSessions now).2.getSession sessionId
      = (mgr.getSession sessionId).filter fun session => alive now (sessionId, session) := by
    rw [cleanupExpiredSessions_eq, getSession, OrderedMap.lookup_filter, getSession]
  rw [hlookup, isValidSession_eq_any]
  cases mgr.getSession sessionId with
  | none => rfl
  | some session => rw [Option.filter_some, Option.any_some]

theorem count_cleanup
    : (mgr.cleanupExpiredSessions now).1 + (mgr.cleanupExpiredSessions now).2.getSessionCount = mgr.getSessionCount := by
  rw [cleanupExpiredSessions_eq]
  simp only [getSessionCount, OrderedMap.filter, ← List.countP_eq_length_filter]
  rw [Nat.add_comm, List.length_eq_countP_add_countP (alive now)]
  simp

theorem getActiveSessions_cleanup
    : (mgr.cleanupExpiredSessions now).2.getActiveSessions now = mgr.getActiveSessions now := by
  simp only [getActiveSessions_eq, cleanupExpiredSessions_eq, OrderedMap.filter, List.filter_filter, Bool.and_self]

theorem getSessionCount_cleanup
    : (mgr.cleanupExpiredSessions now).2.getSessionCount = (mgr.getActiveSessions now).length := by
  simp only [getActiveSessions_eq, cleanupExpiredSessions_eq, getSessionCount, OrderedMap.filter, List.length_map]

/--
The functions agree about which sessions are valid, in every state and at every time.
-/
theorem views_agree
    : (∀ sessionId, mgr.isValidSession now sessionId = true ↔ sessionId ∈ mgr.getActiveSessions now)
      ∧ (∀ sessionId, (mgr.cleanupExpiredSessions now).2.getSession sessionId
        = if mgr.isValidSession now sessionId then mgr.getSession sessionId else none)
      ∧ (mgr.cleanupExpiredSessions now).1 + (mgr.cleanupExpiredSessions now).2.getSessionCount = mgr.getSessionCount
      ∧ (mgr.cleanupExpiredSessions now).2.getSessionCount
        = ((mgr.cleanupExpiredSessions now).2.getActiveSessions now).length
      ∧ (mgr.cleanupExpiredSessions now).2.getActiveSessions now = mgr.getActiveSessions now := by
  refine ⟨fun sessionId => (mem_getActiveSessions_iff mgr now sessionId).symm, getSession_cleanup mgr now,
    count_cleanup mgr now, ?_, getActiveSessions_cleanup mgr now⟩
  rw [getActiveSessions_cleanup, getSessionCount_cleanup]

end SessionManager
end SimpleRsyncd
