import Mathlib.Algebra.Order.Group.Int
import SimpleRsyncd.Counter.FixedWindow
import SimpleRsyncd.Daemon.Admission

/-!
This module determines how many connections of a client the rate limiter lets in. The windows of a
client are fixed windows in the sense of `FixedWindow`, and they follow from its own connections alone.
-/

namespace SimpleRsyncd

open FixedWindow

section tracking

variable (maxCount : Nat) (period : Int) (opened ts : List Time)

/--
A window in use, which was opened no later than `now`. The list `opened` is of windows that were opened
at some time before.
-/
structure Tracked (window : Window) (now : Time) : Prop where
  started : window.start ≠ 0
  start_le : window.start ≤ now
  counts : Counts period maxCount ts window.start window.count
  opened : ∀ earlier ∈ opened, Opened period maxCount ts window.start earlier

/--
The entry of a client whose connections were recorded at these times.
-/
def Tracks (entry : Option Window) (now : Time) : Prop :=
  match entry with
  | none => opened = [] ∧ ts = []
  | some window => Tracked maxCount period opened ts window now

variable {maxCount : Nat} {period : Int} {opened ts : List Time} {entry : Option Window} {window : Window}
  {now now' : Time}

theorem Tracks.mono (h : Tracks maxCount period opened ts entry now) (hle : now ≤ now')
    : Tracks maxCount period opened ts entry now' := by
  cases entry with
  | none => exact h
  | some window => exact { h with start_le := h.start_le.trans hle }

/--
Whatever is found, a reading of the clock falls into the window it leads to.
-/
theorem Tracks.current (h : Tracks maxCount period opened ts entry now) (hperiod : 0 < period)
    (hle : now ≤ now') (hepoch : now' ≠ 0)
    : Tracked maxCount period opened ts ((entry.getD {}).current period now') now'
        ∧ now' < ((entry.getD {}).current period now').start + period := by
  cases entry with
  | none =>
    obtain ⟨rfl, rfl⟩ := h
    refine ⟨⟨hepoch, le_rfl, counts_nil _ _ _, by simp⟩, ?_⟩
    exact lt_add_of_pos_right now' hperiod
  | some window =>
    have hstart := h.start_le
    rw [Option.getD_some, Window.current]
    split
    . next hended =>
      have hended : window.start + period ≤ now' := by
        simp only [Bool.or_eq_true, decide_eq_true_eq, h.started, false_or] at hended
        exact le_sub_iff_add_le'.mp hended
      refine ⟨⟨hepoch, le_rfl, h.counts.restart hperiod.le hended, ?_⟩, ?_⟩
      . intro earlier hearlier
        exact (h.opened earlier hearlier).restart hperiod.le hended
      . exact lt_add_of_pos_right now' hperiod
    . next hrunning =>
      simp only [Bool.or_eq_true, decide_eq_true_eq, not_or, not_le] at hrunning
      exact ⟨{ h with start_le := hstart.trans hle }, sub_lt_iff_lt_add'.mp hrunning.2⟩

/--
A check that has passed leaves room for the connection, even if a new window is opened in between.
-/
theorem Tracked.increment (h : Tracked maxCount period opened ts window now) (hperiod : 0 < period)
    (hroom : window.count < maxCount) (hle : now ≤ now') (hepoch : now' ≠ 0)
    : Tracked maxCount period opened (ts ++ [now']) (window.incrementWindow maxCount period now').2 now' := by
  have htracks : Tracks maxCount period opened ts (some window) now := h
  obtain ⟨hcurrent, hinside⟩ := htracks.current hperiod hle hepoch
  rw [Option.getD_some] at hcurrent hinside
  have hroom' : (window.current period now').count < maxCount := by
    unfold Window.current
    split
    . exact Nat.zero_lt_of_lt hroom
    . exact hroom
  rw [Window.incrementWindow, if_neg (by simp [hroom'])]
  generalize window.current period now' = window' at hcurrent hinside hroom' ⊢
  refine { hcurrent with counts := hcurrent.counts.add hcurrent.start_le hinside hroom', opened := ?_ }
  intro earlier hearlier
  exact (hcurrent.opened earlier hearlier).add hcurrent.counts hcurrent.start_le hroom'

end tracking

section visits

variable {maxCount : Nat} {period : Int} {clientIp : Bytes} {checkedAt recordedAt : Time}
  {windows windows' : OrderedMap Bytes Window} {recorded : Bool}

/--
The windows of other clients are left alone.
-/
theorem Visits.lookup_of_ne {other : Bytes}
    (h : Visits maxCount period clientIp checkedAt recordedAt windows recorded windows')
    (hne : other ≠ clientIp)
    : windows'.lookup other = windows.lookup other := by
  have hcheck : (checkWindow maxCount period clientIp checkedAt windows).2.lookup other = windows.lookup other := by
    unfold checkWindow
    split
    . exact windows.lookup_insert_of_ne _ hne
    . rfl
  cases h with
  | untouched => rfl
  | checked => exact hcheck
  | recorded =>
    unfold recordWindow
    split
    . rw [OrderedMap.lookup_insert_of_ne _ _ hne, hcheck]
    . exact hcheck

theorem Visits.tracks {opened ts : List Time} {now : Time}
    (h : Visits maxCount period clientIp checkedAt recordedAt windows recorded windows')
    (hmaxCount : 0 < maxCount) (hperiod : 0 < period)
    (htracks : Tracks maxCount period opened ts (windows.lookup clientIp) now)
    (hchecked : now ≤ checkedAt) (hrecorded : checkedAt ≤ recordedAt) (hepoch : checkedAt ≠ 0)
    (hepoch' : recordedAt ≠ 0)
    : Tracks maxCount period opened (if recorded then ts ++ [recordedAt] else ts)
        (windows'.lookup clientIp) recordedAt := by
  obtain ⟨hcurrent, -⟩ := htracks.current hperiod hchecked hepoch
  cases h with
  | untouched => exact htracks.mono (hchecked.trans hrecorded)
  | checked =>
    rw [checkWindow, if_pos hmaxCount, OrderedMap.lookup_insert_self]
    exact { hcurrent with start_le := hcurrent.start_le.trans hrecorded }
  | recorded hpassed =>
    simp only [checkWindow, if_pos hmaxCount, Bool.not_eq_true', decide_eq_false_iff_not, not_le] at hpassed
    simp only [recordWindow, checkWindow, if_pos hmaxCount, windowOf, OrderedMap.lookup_insert_self,
      Option.getD_some, if_true]
    exact hcurrent.increment hperiod hpassed hrecorded hepoch'

/--
A connection that is refused adds to no count. It can lead to a new window, which holds nothing.
-/
theorem Visits.count_le (h : Visits maxCount period clientIp checkedAt recordedAt windows false windows')
    (other : Bytes)
    : (windowOf other windows').count ≤ (windowOf other windows).count := by
  by_cases hother : other = clientIp
  . subst hother
    cases h with
    | untouched => exact le_rfl
    | checked =>
      unfold checkWindow
      split
      . simp only [windowOf, OrderedMap.lookup_insert_self, Option.getD_some]
        unfold Window.current
        split
        . exact Nat.zero_le _
        . exact le_rfl
      . exact le_rfl
  . rw [windowOf, h.lookup_of_ne hother, windowOf]

end visits

namespace RSyncDaemon

variable {d : RSyncDaemon} {limiter : ConnectionRateLimiter} {events before : List Admission}
  {windows windows' : ConnectionWindows} {client : Bytes} {span : Span}

def readings (events : List Admission) : List Time :=
  events.flatMap fun e => e.attempt.readings

/--
The steady clock never goes back, and its epoch lies in the past.
-/
structure Steady (events : List Admission) : Prop where
  monotone : (readings events).Pairwise (· ≤ ·)
  afterEpoch : ∀ now ∈ readings events, now ≠ 0

def isRecorded (client : Bytes) (e : Admission) : Bool :=
  e.attempt.clientAddress = client && e.verdict = .recorded

/--
When the connections of a client were counted.
-/
def recordedTimes (span : Span) (client : Bytes) (events : List Admission) : List Time :=
  (events.filter (isRecorded client)).map fun e => span.recordedAt e.attempt

theorem recordedTimes_concat (e : Admission)
    : recordedTimes span client (events ++ [e])
      = if isRecorded client e then
          recordedTimes span client events ++ [span.recordedAt e.attempt]
        else
          recordedTimes span client events := by
  unfold recordedTimes
  split <;> simp_all

theorem readings_concat (e : Admission) : readings (events ++ [e]) = readings events ++ e.attempt.readings := by
  simp [readings]

theorem period_pos (span : Span) : 0 < span.period := by
  cases span <;> decide

theorem Steady.init {e : Admission} (h : Steady (events ++ [e])) : Steady events := by
  obtain ⟨hmonotone, hepoch⟩ := h
  rw [readings_concat] at hmonotone hepoch
  exact ⟨(List.pairwise_append.mp hmonotone).1, fun now hnow => hepoch now (List.mem_append_left _ hnow)⟩

theorem mem_readings (span : Span) (attempt : Attempt)
    : attempt.checkedAt ∈ attempt.readings ∧ span.recordedAt attempt ∈ attempt.readings := by
  cases span <;> simp [Attempt.readings, Span.recordedAt]

theorem Steady.le_checkedAt {e : Admission} (h : Steady (events ++ [e])) {now : Time}
    (hnow : now ∈ readings events)
    : now ≤ e.attempt.checkedAt := by
  have hmonotone := h.monotone
  rw [readings_concat] at hmonotone
  exact (List.pairwise_append.mp hmonotone).2.2 now hnow _ (mem_readings .minute e.attempt).1

theorem Steady.checkedAt_le {e : Admission} (h : Steady (events ++ [e])) (span : Span)
    : e.attempt.checkedAt ≤ span.recordedAt e.attempt := by
  have hmonotone := h.monotone
  rw [readings_concat] at hmonotone
  have hlast := (List.pairwise_append.mp hmonotone).2.1
  simp only [Attempt.readings, List.pairwise_cons, List.mem_cons] at hlast
  cases span with
  | minute => exact hlast.1 _ (.inl rfl)
  | hour => exact hlast.1 _ (.inr (.inl rfl))

/--
What a run preserves of a client's entry, if it has been in order after the events before the run.
-/
theorem tracks_of_run {opened : List Time} (hlimits : d.connectionLimits = some limiter)
    (hlimit : 0 < span.limit limiter)
    (hbefore : ∀ now, (∀ t ∈ readings before, t ≤ now) → Tracks (span.limit limiter) span.period opened
      (recordedTimes span client before) ((span.windows windows).lookup client) now)
    (hrun : d.accepting.Run windows events windows') (hsteady : Steady (before ++ events))
    : ∀ now, (∀ t ∈ readings (before ++ events), t ≤ now) → Tracks (span.limit limiter) span.period opened
        (recordedTimes span client (before ++ events)) ((span.windows windows').lookup client) now := by
  induction hrun with
  | nil => simpa using hbefore
  | @snoc events e windows windows' hrun hstep ih =>
    intro now hnow
    rw [← List.append_assoc] at hsteady hnow ⊢
    obtain ⟨hchecked, hrecorded⟩ := mem_readings span e.attempt
    have hvisits := visits_judge hlimits hstep span
    have htracks := ih hsteady.init e.attempt.checkedAt fun t ht => hsteady.le_checkedAt ht
    rw [readings_concat] at hnow
    rw [recordedTimes_concat]
    by_cases hclient : e.attempt.clientAddress = client
    . subst hclient
      have hafter := hvisits.tracks hlimit (period_pos span) htracks le_rfl (hsteady.checkedAt_le span)
        (hsteady.afterEpoch _ (readings_concat e ▸ List.mem_append_right _ hchecked))
        (hsteady.afterEpoch _ (readings_concat e ▸ List.mem_append_right _ hrecorded))
      have hsame : isRecorded e.attempt.clientAddress e = decide (e.verdict = .recorded) := by
        simp [isRecorded]
      rw [hsame]
      exact hafter.mono (hnow _ (List.mem_append_right _ hrecorded))
    . rw [hvisits.lookup_of_ne (Ne.symm hclient), if_neg (by simp [isRecorded, hclient])]
      exact htracks.mono (hnow _ (List.mem_append_right _ hchecked))

theorem tracks_of_start (client : Bytes) {now : Time} (hlimits : d.connectionLimits = some limiter)
    (hlimit : 0 < span.limit limiter) (hrun : d.accepting.Run {} events windows) (hsteady : Steady events)
    (hnow : ∀ t ∈ readings events, t ≤ now)
    : Tracks (span.limit limiter) span.period [] (recordedTimes span client events)
        ((span.windows windows).lookup client) now := by
  have hnothing : ∀ now, (∀ t ∈ readings [], t ≤ now) → Tracks (span.limit limiter) span.period []
      (recordedTimes span client []) ((span.windows {}).lookup client) now := by
    intro now _
    cases span <;> exact ⟨rfl, rfl⟩
  exact tracks_of_run hlimits hlimit hnothing hrun hsteady now hnow

section agree

/--
The windows of a client are the same.
-/
def Agree (client : Bytes) (windows windows' : ConnectionWindows) : Prop :=
  ∀ span : Span, (span.windows windows).lookup client = (span.windows windows').lookup client

variable {table table' : OrderedMap Bytes Window}

theorem checkWindow_agree (maxCount : Nat) (period : Int) (now : Time) (h : table.lookup client = table'.lookup client)
    : (checkWindow maxCount period client now table).1 = (checkWindow maxCount period client now table').1
        ∧ (checkWindow maxCount period client now table).2.lookup client
          = (checkWindow maxCount period client now table').2.lookup client := by
  unfold checkWindow windowOf
  split
  . simp [h]
  . exact ⟨rfl, h⟩

theorem recordWindow_agree {maxCount : Nat} {period : Int} {now : Time} (h : table.lookup client = table'.lookup client)
    : (recordWindow maxCount period client now table).lookup client
      = (recordWindow maxCount period client now table').lookup client := by
  unfold recordWindow windowOf
  split
  . simp [h]
  . exact h

theorem allowConnection_agree (limiter : ConnectionRateLimiter) (now : Time) (h : Agree client windows windows')
    : (limiter.allowConnection client windows now).1 = (limiter.allowConnection client windows' now).1
        ∧ Agree client (limiter.allowConnection client windows now).2
          (limiter.allowConnection client windows' now).2 := by
  obtain ⟨hminute, hminutes⟩ := checkWindow_agree limiter.maxPerMinute Window.minute now (h .minute)
  obtain ⟨hhour, hhours⟩ := checkWindow_agree limiter.maxPerHour Window.hour now (h .hour)
  simp only [Span.windows] at hminute hminutes hhour hhours
  simp only [allowConnection_eq]
  refine ⟨by rw [hminute, hhour], ?_⟩
  intro span
  cases span with
  | minute => exact hminutes
  | hour =>
    simp only [Span.windows, hminute]
    split
    . exact hhours
    . exact h .hour

/--
What is decided about a client depends on its own windows alone.
-/
theorem judge_agree {attempt : Attempt} (hlimits : d.connectionLimits = some limiter)
    (h : Agree attempt.clientAddress windows windows')
    : (d.judge windows attempt).1 = (d.judge windows' attempt).1
        ∧ Agree attempt.clientAddress (d.judge windows attempt).2 (d.judge windows' attempt).2 := by
  obtain ⟨hallowed, hagree⟩ := allowConnection_agree limiter attempt.checkedAt h
  simp only [judge, checkRateLimit, updateRateLimit, hlimits]
  split
  . exact ⟨rfl, h⟩
  . simp only [hallowed]
    split
    . exact ⟨rfl, hagree⟩
    . split
      . exact ⟨rfl, hagree⟩
      . refine ⟨rfl, fun span => ?_⟩
        simp only [recordConnection_eq]
        cases span with
        | minute => exact recordWindow_agree (hagree .minute)
        | hour => exact recordWindow_agree (hagree .hour)

theorem run_alone {alone : ConnectionWindows} (hlimits : d.connectionLimits = some limiter)
    (hrun : d.accepting.Run windows events windows') (h : Agree client windows alone)
    : ∃ alone', d.accepting.Run alone (events.filter (·.attempt.clientAddress = client)) alone'
        ∧ Agree client windows' alone' := by
  induction hrun with
  | nil => exact ⟨alone, .nil, h⟩
  | @snoc events e windows windows' hrun hstep ih =>
    obtain ⟨alone', hrun', hagree⟩ := ih
    by_cases hclient : e.attempt.clientAddress = client
    . subst hclient
      obtain ⟨hverdict, hagree'⟩ := judge_agree hlimits hagree
      rw [accepting] at hstep
      rw [hstep] at hverdict hagree'
      refine ⟨(d.judge alone' e.attempt).2, ?_, hagree'⟩
      rw [List.filter_append, List.filter_cons_of_pos (by simp), List.filter_nil]
      exact .snoc hrun' (Prod.ext hverdict.symm rfl)
    . refine ⟨alone', by simpa [List.filter_append, hclient] using hrun', fun span => ?_⟩
      rw [(visits_judge hlimits hstep span).lookup_of_ne (Ne.symm hclient), hagree span]

end agree

/--
What the limits mean for a client in a run that begins with the start of the daemon.
-/
structure Limited (d : RSyncDaemon) (limiter : ConnectionRateLimiter) (client : Bytes)
    (events : List Admission) (windows : ConnectionWindows) : Prop where
  /-- In an interval as long as a window there are at most twice as many connections as the limit. -/
  interval : ∀ span, 0 < span.limit limiter → ∀ since,
    countIn (recordedTimes span client events) since (since + span.period) ≤ 2 * span.limit limiter
  /-- In every window that was ever opened there are at most as many connections as the limit. -/
  window : ∀ span, 0 < span.limit limiter → ∀ before after earlier window, events = before ++ after
    → d.accepting.Run {} before earlier → (span.windows earlier).lookup client = some window
    → countIn (recordedTimes span client events) window.start (window.start + span.period)
      ≤ span.limit limiter
  /-- A window has counted what was recorded in it and nothing else. -/
  counted : ∀ span, 0 < span.limit limiter → ∀ window, (span.windows windows).lookup client = some window
    → window.count = countIn (recordedTimes span client events) window.start (window.start + span.period)
  /-- A connection that is refused adds to the count of no client. -/
  refused : ∀ before e after earlier later, events = before ++ e :: after
    → d.accepting.Run {} before earlier → d.accepting earlier e later → e.verdict ≠ .recorded
    → ∀ (span : Span) other,
      (windowOf other (span.windows later)).count ≤ (windowOf other (span.windows earlier)).count
  /-- Without the other clients all decisions about this one would have been the same. -/
  alone : ∃ windows', d.accepting.Run {} (events.filter (·.attempt.clientAddress = client)) windows'
    ∧ Agree client windows windows'

theorem accepting_unique (windows : ConnectionWindows) (e : Admission) (windows₁ windows₂ : ConnectionWindows)
    (h₁ : d.accepting windows e windows₁) (h₂ : d.accepting windows e windows₂)
    : windows₁ = windows₂ :=
  (Prod.mk.inj (h₁.symm.trans h₂)).2

theorem accepting_judge {attempt : Attempt} {verdict : Verdict} (h : (d.judge windows attempt).1 = verdict)
    : d.accepting windows ⟨attempt, verdict⟩ (d.judge windows attempt).2 :=
  Prod.ext h rfl

theorem Steady.of_append {after : List Admission} (h : Steady (before ++ after)) : Steady before := by
  induction after using List.reverseRecOn with
  | nil => simpa using h
  | append_singleton after e ih =>
    rw [← List.append_assoc] at h
    exact ih h.init

/--
Some time after all readings.
-/
theorem exists_le_readings (events : List Admission) : ∃ now, ∀ t ∈ readings events, t ≤ now := by
  induction readings events with
  | nil => exact ⟨0, by simp⟩
  | cons t ts ih =>
    obtain ⟨now, hnow⟩ := ih
    refine ⟨max t now, fun t' ht' => ?_⟩
    rcases List.mem_cons.mp ht' with rfl | ht'
    . exact le_max_left _ _
    . exact (hnow t' ht').trans (le_max_right _ _)

theorem countIn_window_le {after : List Admission} {earlier : ConnectionWindows} {window : Window}
    (hlimits : d.connectionLimits = some limiter) (hlimit : 0 < span.limit limiter)
    (hrun : d.accepting.Run {} (before ++ after) windows) (hsteady : Steady (before ++ after))
    (hbefore : d.accepting.Run {} before earlier)
    (hwindow : (span.windows earlier).lookup client = some window)
    : countIn (recordedTimes span client (before ++ after)) window.start (window.start + span.period)
      ≤ span.limit limiter := by
  obtain ⟨earlier', hbefore', hafter⟩ := hrun.of_append
  obtain rfl := hbefore.unique hbefore' accepting_unique
  obtain ⟨now, hnow⟩ := exists_le_readings (before ++ after)
  have hopened : ∀ now, (∀ t ∈ readings before, t ≤ now) → Tracks (span.limit limiter) span.period
      [window.start] (recordedTimes span client before) ((span.windows earlier).lookup client) now := by
    intro now hnow
    have htracks := tracks_of_start client hlimits hlimit hbefore hsteady.of_append hnow
    rw [hwindow] at htracks ⊢
    exact { htracks with opened := by simpa using htracks.counts.opened }
  have htracks := tracks_of_run hlimits hlimit hopened hafter hsteady now hnow
  cases hentry : (span.windows windows).lookup client with
  | none =>
    rw [hentry] at htracks
    simp [Tracks] at htracks
  | some window' =>
    rw [hentry] at htracks
    exact (htracks.opened _ (by simp)).le_limit

theorem limited_of_run (hlimits : d.connectionLimits = some limiter) (hsteady : Steady events)
    (hrun : d.accepting.Run {} events windows) (client : Bytes)
    : d.Limited limiter client events windows := by
  obtain ⟨now, hnow⟩ := exists_le_readings events
  have htracks : ∀ span : Span, 0 < span.limit limiter → _ := fun span hlimit =>
    tracks_of_start client hlimits hlimit hrun hsteady hnow
  constructor
  case interval =>
    intro span hlimit since
    have htracks := htracks span hlimit
    cases hentry : (span.windows windows).lookup client with
    | none =>
      rw [hentry] at htracks
      simp [htracks.2]
    | some window =>
      rw [hentry] at htracks
      exact htracks.counts.bounded since
  case window =>
    rintro span hlimit before after earlier window rfl hbefore hwindow
    exact countIn_window_le hlimits hlimit hrun hsteady hbefore hwindow
  case counted =>
    intro span hlimit window hwindow
    have htracks := htracks span hlimit
    rw [hwindow] at htracks
    exact htracks.counts.current.symm
  case refused =>
    intro before e after earlier later _ _ hstep hverdict span other
    have hvisits := visits_judge hlimits hstep span
    rw [decide_eq_false hverdict] at hvisits
    exact hvisits.count_le other
  case alone =>
    exact run_alone hlimits hrun fun _ => rfl

/--
Two connections a minute, and a third one within the same minute.
-/
def single : RSyncDaemon where
  config := some {}
  rateLimiter := some { maxPerMinute := 2, maxPerHour := 0 }

def attemptAt (now : Time) : Attempt where
  clientAddress := bytes "1.2.3.4"
  hasAccess := true
  activeSessions := 0
  maxConnections := 10
  checkedAt := now
  minuteAt := now
  hourAt := now

def busyMinute : List Admission :=
  [⟨attemptAt 1, .recorded⟩, ⟨attemptAt 2, .recorded⟩, ⟨attemptAt 3, .rateLimitExceeded⟩]

theorem limited_single
    : ∃ windows, single.accepting.Run {} busyMinute windows
        ∧ single.Limited ⟨2, 0⟩ (bytes "1.2.3.4") busyMinute windows := by
  have hrun : single.accepting.Run {} busyMinute _ :=
    .cons (accepting_judge rfl) (.cons (accepting_judge rfl) (.cons (accepting_judge rfl) .nil))
  exact ⟨_, hrun, limited_of_run rfl ⟨by decide, by decide⟩ hrun _⟩

end RSyncDaemon
end SimpleRsyncd
