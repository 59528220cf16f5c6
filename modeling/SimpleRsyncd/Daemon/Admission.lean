import SimpleRsyncd.Daemon.Decisions
import SimpleRsyncd.Transition.Basic

/-!
This module contains how the accept loop admits connections. It asks the rate limiter first and tells it
about a connection later, so that both calls read the clock on their own.
-/

namespace SimpleRsyncd

/--
A connection that `accept` has returned, with what the loop finds when it looks: whether the access lists
admit the client, the length of `active_sessions_`, the configured maximum, and the readings of the
steady clock in `allowConnection` and in the two calls of `incrementWindow`.
-/
structure Attempt where
  clientAddress : Bytes
  hasAccess : Bool
  activeSessions : Nat
  maxConnections : Nat
  checkedAt : Time
  minuteAt : Time
  hourAt : Time

def Attempt.readings (attempt : Attempt) : List Time :=
  [attempt.checkedAt, attempt.minuteAt, attempt.hourAt]

/--
When a connection is counted.
-/
def Span.recordedAt : Span → Attempt → Time
  | .minute => Attempt.minuteAt
  | .hour => Attempt.hourAt

inductive Verdict where
  | accessDenied
  | rateLimitExceeded
  | maxConnectionsReached
  | recorded
  deriving DecidableEq

structure Admission where
  attempt : Attempt
  verdict : Verdict

namespace RSyncDaemon

variable (d : RSyncDaemon) (clientAddress : Bytes) (windows : ConnectionWindows)

def checkRateLimit (now : Time) : Bool × ConnectionWindows :=
  match d.connectionLimits with
  | none => (true, windows)
  | some limiter => limiter.allowConnection clientAddress windows now

def updateRateLimit (minuteNow hourNow : Time) : ConnectionWindows :=
  match d.connectionLimits with
  | none => windows
  | some limiter => limiter.recordConnection clientAddress windows minuteNow hourNow

/--
One round of the accept loop, up to the creation of the session.
-/
def judge (attempt : Attempt) : Verdict × ConnectionWindows :=
  if !attempt.hasAccess then
    (.accessDenied, windows)
  else
    let (allowed, windows) := d.checkRateLimit attempt.clientAddress windows attempt.checkedAt
    if !allowed then
      (.rateLimitExceeded, windows)
    else if attempt.maxConnections ≤ attempt.activeSessions then
      (.maxConnectionsReached, windows)
    else
      (.recorded, d.updateRateLimit attempt.clientAddress windows attempt.minuteAt attempt.hourAt)

def accepting : Transition ConnectionWindows Admission :=
  fun windows admission windows' => d.judge windows admission.attempt = (admission.verdict, windows')

end RSyncDaemon

/--
What becomes of the windows of one length when a connection is admitted or refused.
-/
inductive Visits (maxCount : Nat) (period : Int) (clientIp : Bytes) (checkedAt recordedAt : Time)
    (windows : OrderedMap Bytes Window) : Bool → OrderedMap Bytes Window → Prop where
  | untouched : Visits maxCount period clientIp checkedAt recordedAt windows false windows
  | checked : Visits maxCount period clientIp checkedAt recordedAt windows false
    (checkWindow maxCount period clientIp checkedAt windows).2
  | recorded : (checkWindow maxCount period clientIp checkedAt windows).1 = true
    → Visits maxCount period clientIp checkedAt recordedAt windows true
      (recordWindow maxCount period clientIp recordedAt
        (checkWindow maxCount period clientIp checkedAt windows).2)

section limits

variable {d : RSyncDaemon} {limiter : ConnectionRateLimiter} {clientIp : Bytes}
  {windows windows' : ConnectionWindows} {now minuteNow hourNow : Time}

/--
Without limits the rate limiter returns early, but it would have nothing else to do.
-/
theorem allowConnection_eq
    : limiter.allowConnection clientIp windows now
      = let minute := checkWindow limiter.maxPerMinute Window.minute clientIp now windows.minuteWindows
        let hour := checkWindow limiter.maxPerHour Window.hour clientIp now windows.hourWindows
        (minute.1 && hour.1, ⟨minute.2, if minute.1 then hour.2 else windows.hourWindows⟩) := by
  unfold ConnectionRateLimiter.allowConnection
  split
  . next hnone =>
    simp only [Bool.and_eq_true, decide_eq_true_eq] at hnone
    simp [checkWindow, hnone.1, hnone.2]
  . rcases checkWindow limiter.maxPerMinute Window.minute clientIp now windows.minuteWindows with ⟨_ | _, _⟩ <;> rfl

theorem recordConnection_eq
    : limiter.recordConnection clientIp windows minuteNow hourNow
      = {
          minuteWindows :=
            recordWindow limiter.maxPerMinute Window.minute clientIp minuteNow windows.minuteWindows
          hourWindows := recordWindow limiter.maxPerHour Window.hour clientIp hourNow windows.hourWindows
        } := by
  unfold ConnectionRateLimiter.recordConnection
  split
  . next hnone =>
    simp only [Bool.and_eq_true, decide_eq_true_eq] at hnone
    simp [recordWindow, hnone.1, hnone.2]
  . rfl

theorem visits_judge (hlimits : d.connectionLimits = some limiter) {attempt : Attempt} {verdict : Verdict}
    (h : d.judge windows attempt = (verdict, windows')) (span : Span)
    : Visits (span.limit limiter) span.period attempt.clientAddress attempt.checkedAt
        (span.recordedAt attempt) (span.windows windows) (decide (verdict = .recorded))
        (span.windows windows') := by
  simp only [RSyncDaemon.judge, RSyncDaemon.checkRateLimit, RSyncDaemon.updateRateLimit, hlimits,
    allowConnection_eq, recordConnection_eq] at h
  split at h
  . obtain ⟨rfl, rfl⟩ := Prod.mk.inj h
    exact .untouched
  . split at h
    . obtain ⟨rfl, rfl⟩ := Prod.mk.inj h
      cases span with
      | minute => exact .checked
      | hour =>
        simp only [Span.windows]
        split
        . exact .checked
        . exact .untouched
    . next hallowed =>
      simp only [Bool.not_eq_true', Bool.not_eq_false, Bool.and_eq_true] at hallowed
      simp only [hallowed.1, if_true] at h
      split at h
      . obtain ⟨rfl, rfl⟩ := Prod.mk.inj h
        cases span <;> exact .checked
      . obtain ⟨rfl, rfl⟩ := Prod.mk.inj h
        cases span with
        | minute => exact .recorded hallowed.1
        | hour => exact .recorded hallowed.2

end limits

end SimpleRsyncd
