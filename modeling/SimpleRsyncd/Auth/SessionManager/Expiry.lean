import SimpleRsyncd.Auth.SessionManager

/-!
This module contains when sessions that have expired stay expired. The only call that brings one back is
`updateActivity`, which does not look at the time before it overwrites the last activity.
-/

namespace SimpleRsyncd
namespace SessionManager

/--
The call records activity in a session that has expired, and whose timeout allows it to be valid again.
-/
def Revives (s : Clocked) : Action → Prop
  | .updateActivity sessionId => ∃ session, s.mgr.sessions.lookup sessionId = some session
    ∧ session.expired s.now = true ∧ 0 ≤ session.timeout
  | _ => False

/--
Sessions in the map were given out and are active.
-/
structure Consistent (s : Clocked) : Prop where
  issued : ∀ sessionId session, s.mgr.sessions.lookup sessionId = some session → sessionId ∈ s.issued
  active : ∀ sessionId session, s.mgr.sessions.lookup sessionId = some session → session.active = true

/--
The sessions that are invalid at some point of a sequence of calls are invalid at all later points.
-/
def StaysExpired (init : Clocked) (as : List Action) : Prop :=
  ∀ bs cs s s', bs ++ cs <+: as → Transition.Run step init bs s → Transition.Run step s cs s' →
    ∀ sessionId ∈ s.issued, s.isValidSession sessionId = false → s'.isValidSession sessionId = false

theorem now_le_of_step {s s' : Clocked} {a : Action} (h : step s a s') : s.now ≤ s'.now := by
  obtain ⟨-, rfl⟩ := h
  cases a with
  | wait nanoseconds => exact Int.le_add_of_nonneg_right (Int.natCast_nonneg nanoseconds)
  | createSession | updateActivity | deleteSession | cleanupExpiredSessions | query => exact Int.le_refl _

theorem issued_of_step {s s' : Clocked} {a : Action} (h : step s a s') {sessionId : Bytes} (hissued : sessionId ∈ s.issued)
    : sessionId ∈ s'.issued := by
  obtain ⟨-, rfl⟩ := h
  cases a with
  | createSession => exact List.mem_cons_of_mem _ hissued
  | wait | updateActivity | deleteSession | cleanupExpiredSessions | query => exact hissued

theorem consistent_start (defaultTimeout : Int) (now : Time) : Consistent (.start defaultTimeout now) := by
  constructor <;> simp [Clocked.start, new]

theorem consistent_step {s s' : Clocked} {a : Action} (hs : Consistent s) (h : step s a s') : Consistent s' := by
  suffices hall : ∀ sessionId session, s'.mgr.sessions.lookup sessionId = some session →
      sessionId ∈ s'.issued ∧ session.active = true by
    exact ⟨fun sessionId session h => (hall sessionId session h).1, fun sessionId session h => (hall sessionId session h).2⟩
  intro sessionId session hlookup
  -- what a step does to a session is known from its id, unless the step has just issued it
  by_cases hissued : sessionId ∈ s.issued
  . refine ⟨issued_of_step h hissued, ?_⟩
    rcases lookup_step h hissued with hsame | hnone | ⟨-, old, hold, hnew⟩
    . exact hs.active sessionId session (hsame ▸ hlookup)
    . simp [hnone] at hlookup
    . obtain rfl : { old with lastActivity := s.now } = session := by
        rw [hnew] at hlookup
        exact Option.some.inj hlookup
      exact hs.active sessionId old hold
  . -- a session that is new in the map was just created
    have hnone : s.mgr.sessions.lookup sessionId = none := by
      by_contra hsome
      obtain ⟨old, hold⟩ := Option.ne_none_iff_exists'.mp hsome
      exact hissued (hs.issued sessionId old hold)
    obtain ⟨-, rfl⟩ := h
    cases a with
    | wait | query => simp_all [perform]
    | createSession newId =>
      simp only [perform, createSession] at hlookup ⊢
      rw [OrderedMap.lookup_insert] at hlookup
      split at hlookup
      . next heq =>
        obtain rfl := Option.some.inj hlookup
        exact ⟨by simp [heq], rfl⟩
      . simp [hnone] at hlookup
    | updateActivity updated =>
      simp only [perform, updateActivity] at hlookup
      split at hlookup
      . simp [hnone] at hlookup
      . next old hold =>
        have hne : sessionId ≠ updated := by
          rintro rfl
          simp [hnone] at hold
        simp [OrderedMap.lookup_insert_of_ne _ _ hne, hnone] at hlookup
    | deleteSession deleted =>
      simp only [perform, deleteSession] at hlookup
      split at hlookup
      . simp [hnone] at hlookup
      . simp [OrderedMap.lookup_erase, hnone] at hlookup
    | cleanupExpiredSessions =>
      simp [perform, cleanupExpiredSessions, OrderedMap.lookup_filter, hnone] at hlookup

theorem invalid_step {s s' : Clocked} {a : Action} {sessionId : Bytes} (h : step s a s')
    (hkeeps : ¬Revives s a) (hissued : sessionId ∈ s.issued) (hinvalid : s.isValidSession sessionId = false)
    : s'.isValidSession sessionId = false := by
  simp only [Clocked.isValidSession, isValidSession_eq_false_iff] at hinvalid ⊢
  intro session hlookup hactive
  rcases lookup_step h hissued with hsame | hnone | ⟨rfl, old, hold, hnew⟩
  . exact SessionInfo.expired_of_le (hinvalid session (hsame ▸ hlookup) hactive) (now_le_of_step h)
  . simp [hnone] at hlookup
  . obtain rfl : { old with lastActivity := s.now } = session := by
      rw [hnew] at hlookup
      exact Option.some.inj hlookup
    have hexpired := hinvalid old hold hactive
    have htimeout : old.timeout < 0 := by
      by_contra hnonneg
      exact hkeeps ⟨old, hold, hexpired, by omega⟩
    have hfresh : SessionInfo.expired { old with lastActivity := s.now } s.now = true := by
      simpa [SessionInfo.expired] using htimeout
    exact SessionInfo.expired_of_le hfresh (now_le_of_step h)

theorem valid_of_revives {s s' : Clocked} {a : Action} (hs : Consistent s) (h : step s a s') (hrevives : Revives s a)
    : ∃ sessionId ∈ s.issued, s.isValidSession sessionId = false ∧ s'.isValidSession sessionId = true := by
  cases a with
  | wait | createSession | deleteSession | cleanupExpiredSessions | query => exact hrevives.elim
  | updateActivity sessionId =>
    obtain ⟨session, hsession, hexpired, htimeout⟩ := hrevives
    obtain ⟨-, rfl⟩ := h
    refine ⟨sessionId, hs.issued sessionId session hsession, ?_, ?_⟩
    . rw [Clocked.isValidSession, isValidSession_eq_false_iff]
      intro session' hsession' _
      obtain rfl : session = session' := by
        rw [hsession] at hsession'
        exact Option.some.inj hsession'
      exact hexpired
    . rw [Clocked.isValidSession, isValidSession_eq_true_iff]
      refine ⟨{ session with lastActivity := s.now }, ?_, hs.active sessionId session hsession, ?_⟩
      . simp [perform, updateActivity, hsession]
      . simpa [SessionInfo.expired, perform, updateActivity] using htimeout

theorem step_unique (s : Clocked) (a : Action) (t t' : Clocked) (h : step s a t) (h' : step s a t') : t = t' :=
  h.2.symm.trans h'.2

/--
A session that is invalid stays so in a run that revives none.
-/
theorem invalid_run {s s' : Clocked} {as : List Action} {sessionId : Bytes}
    (h : Transition.Run (step.restrict fun s a => ¬Revives s a) s as s') (hissued : sessionId ∈ s.issued)
    (hinvalid : s.isValidSession sessionId = false)
    : s'.isValidSession sessionId = false := by
  refine (h.invariant (I := fun s => sessionId ∈ s.issued ∧ s.isValidSession sessionId = false) ⟨hissued, hinvalid⟩ ?_).2
  rintro s a s' ⟨hissued, hinvalid⟩ ⟨hkeeps, hstep⟩
  exact ⟨issued_of_step hstep hissued, invalid_step hstep hkeeps hissued hinvalid⟩

/--
Sessions stay expired in a run if and only if no call of the run revives one.
-/
theorem staysExpired_iff {defaultTimeout : Int} {now : Time} {as : List Action} {s : Clocked}
    (h : Transition.Run step (.start defaultTimeout now) as s)
    : StaysExpired (.start defaultTimeout now) as
      ↔ Transition.Run (step.restrict fun s a => ¬Revives s a) (.start defaultTimeout now) as s := by
  constructor
  . intro hstays
    induction h with
    | nil => exact .nil
    | @snoc bs b t t' hrun hstep ih =>
      have hbefore : StaysExpired (.start defaultTimeout now) bs := by
        intro cs ds u u' hbegins
        exact hstays cs ds u u' (hbegins.trans (List.prefix_append ..))
      refine .snoc (ih hbefore) ⟨?_, hstep⟩
      intro hrevives
      have hconsistent : Consistent t :=
        hrun.invariant (consistent_start defaultTimeout now) fun _ _ _ hs hstep => consistent_step hs hstep
      obtain ⟨sessionId, hissued, hinvalid, hvalid⟩ := valid_of_revives hconsistent hstep hrevives
      have := hstays bs [b] t t' (List.prefix_refl _) hrun (.single hstep) sessionId hissued hinvalid
      simp [this] at hvalid
  . intro hkeeps cs ds t t' hbegins hcs hds sessionId hissued hinvalid
    obtain ⟨es, rfl⟩ := hbegins
    rw [List.append_assoc] at hkeeps
    obtain ⟨u, hcs', hrest⟩ := hkeeps.of_append
    obtain ⟨u', hds', -⟩ := hrest.of_append
    obtain rfl := hcs'.of_restrict.unique hcs step_unique
    obtain rfl := hds'.of_restrict.unique hds step_unique
    exact invalid_run hds' hissued hinvalid

def login : Action := .createSession (bytes "id") (bytes "alice") (bytes "10.0.0.1") 60

def loggedIn (nanoseconds : Nat) : Clocked :=
  perform (.wait nanoseconds) (perform login (.start 3600 0))

theorem run_loggedIn (nanoseconds : Nat)
    : Transition.Run (step.restrict fun s a => ¬Revives s a) (.start 3600 0) [login, .wait nanoseconds]
      (loggedIn nanoseconds) := by
  refine .cons (s := perform login (.start 3600 0)) ⟨fun h => h, ?_, rfl⟩ (.single ⟨fun h => h, trivial, rfl⟩)
  simp [Fresh, login, Clocked.start]

/--
A session with a timeout of a minute is valid again after activity two minutes later.
-/
theorem not_staysExpired_late_activity
    : Transition.Run step (.start 3600 0) [login, .wait 120000000000, .updateActivity (bytes "id")]
        (perform (.updateActivity (bytes "id")) (loggedIn 120000000000))
      ∧ ¬StaysExpired (.start 3600 0) [login, .wait 120000000000, .updateActivity (bytes "id")] := by
  have hrun := (run_loggedIn 120000000000).of_restrict
  have hstep : step (loggedIn 120000000000) (.updateActivity (bytes "id"))
      (perform (.updateActivity (bytes "id")) (loggedIn 120000000000)) := ⟨trivial, rfl⟩
  refine ⟨.snoc hrun hstep, ?_⟩
  intro hstays
  have hinvalid := hstays _ _ _ _ (List.prefix_refl _) hrun (.single hstep) (bytes "id") (by decide)
    (by decide)
  revert hinvalid
  decide

theorem staysExpired_prompt_activity
    : StaysExpired (.start 3600 0) [login, .wait 30000000000, .updateActivity (bytes "id")] := by
  have hrun : Transition.Run (step.restrict fun s a => ¬Revives s a) (.start 3600 0)
      [login, .wait 30000000000, .updateActivity (bytes "id")]
      (perform (.updateActivity (bytes "id")) (loggedIn 30000000000)) := by
    refine .snoc (run_loggedIn 30000000000) ⟨?_, trivial, rfl⟩
    rintro ⟨session, hsession, hexpired, -⟩
    have hfresh : ((loggedIn 30000000000).mgr.sessions.lookup (bytes "id")).all
        (fun session => !session.expired (loggedIn 30000000000).now) = true := by
      decide
    simp [hsession, hexpired] at hfresh
  exact (staysExpired_iff hrun.of_restrict).mpr hrun

end SessionManager
end SimpleRsyncd
