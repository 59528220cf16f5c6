import SimpleRsyncd.Log.Logger

/-!
This module determines which calls of a `Logger` return. The call that fills the log file rotates it
while it holds the mutex, and the rotation locks the mutex again.
-/

namespace SimpleRsyncd

/--
The record that a call writes, if it is a call that logs and its message is not held back.
-/
def LogCall.entry (host : LogHost) (logger : Logger) : LogCall → Option LogEntry
  | .debug message => LogWorld.entryOf host .debug message [] .empty logger
  | .info message => LogWorld.entryOf host .info message [] .empty logger
  | .warn message => LogWorld.entryOf host .warn message [] .empty logger
  | .error message => LogWorld.entryOf host .error message [] .empty logger
  | .fatal message => LogWorld.entryOf host .fatal message [] .empty logger
  | .log level message component fields => LogWorld.entryOf host level message component fields logger
  | _ => none

namespace LogWorld

variable {host : LogHost} {g : Guarded LogWorld} {entry : LogEntry}

/--
The line of the record makes an open log file reach its maximal size.
-/
def Fills (w : LogWorld) (entry : LogEntry) : Prop :=
  w.logger.logStream.isSome = true
    ∧ w.logger.maxFileSize ≤ (w.logger.currentFileSize + (logLine w.logger entry).length) % 2 ^ 64

/--
A call that writes a record with which the log file reaches its maximal size.
-/
def ReachesLimit (w : LogWorld) (call : LogHost × LogCall) : Prop :=
  ∃ entry, call.2.entry call.1 w.logger = some entry ∧ w.Fills entry

instance (w : LogWorld) (entry : LogEntry) : Decidable (w.Fills entry) :=
  inferInstanceAs (Decidable (_ ∧ _))

instance (w : LogWorld) (call : LogHost × LogCall) : Decidable (w.ReachesLimit call) :=
  decidable_of_iff ((call.2.entry call.1 w.logger).any fun entry => w.Fills entry) (by
    simp [ReachesLimit, Option.any_eq_true])

theorem logger_write (w : LogWorld) (entry : LogEntry)
    : (w.write entry).logger.logStream = w.logger.logStream
        ∧ (w.write entry).logger.maxFileSize = w.logger.maxFileSize
        ∧ (w.logger.logStream.isSome = true →
          (w.write entry).logger.currentFileSize
            = (w.logger.currentFileSize + (logLine w.logger entry).length) % 2 ^ 64) := by
  unfold write
  cases hconsole : w.logger.consoleOutput <;> cases hstream : w.logger.logStream <;> simp [hstream]

theorem rotate_ne_hangs (w : LogWorld) : (w.rotate host).1 ≠ .hangs := by
  unfold rotate
  dsimp only
  repeat' split
  all_goals simp

/--
A call that ends and releases the mutex.
-/
def Returns (call : GuardedCall LogWorld Errno) (g : Guarded LogWorld) : Prop :=
  (call g).1 ≠ .hangs ∧ (call g).2.held = false

theorem returns_lockGuard {body : GuardedCall LogWorld Errno} (h : g.held = false)
    (hbody : (body { g with held := true }).1 ≠ .hangs)
    : Returns (lockGuard body) g := by
  obtain ⟨hends, hreleases⟩ := lockGuard_of_free body h
  have hne : (lockGuard body g).1 ≠ .hangs := by rwa [hends]
  exact ⟨hne, hreleases hne⟩

theorem returns_rotateLog (h : g.held = false) : Returns (rotateLog host) g :=
  returns_lockGuard h g.value.rotate_ne_hangs

theorem returns_guarded (change : LogWorld → LogWorld) (h : g.held = false) : Returns (guarded change) g :=
  returns_lockGuard h (by simp)

/--
A record that fills the file makes `logEntry` wait for itself, any other one is written.
-/
theorem logEntry_of_free (h : g.held = false)
    : ((logEntry host entry g).1 = .hangs ↔ g.value.Fills entry)
        ∧ ((logEntry host entry g).1 ≠ .hangs → (logEntry host entry g).2.held = false) := by
  obtain ⟨hstream, hmax, hsize⟩ := g.value.logger_write entry
  refine ⟨?_, (lockGuard_of_free _ h).2⟩
  rw [logEntry, (lockGuard_of_free _ h).1]
  dsimp only
  rw [hstream, hmax]
  unfold Fills
  cases hopen : g.value.logger.logStream.isSome with
  | false => simp
  | true =>
    rw [hsize hopen]
    generalize hwrapped : (g.value.logger.currentFileSize + (logLine g.value.logger entry).length) % 2 ^ 64 = size
    by_cases hlimit : g.value.logger.maxFileSize ≤ size
    . have hlocked : checkRotation host { value := g.value.write entry, held := true }
          = (.hangs, { value := g.value.write entry, held := true }) := by
        unfold checkRotation
        rw [if_pos (by rw [hmax, hsize hopen, hwrapped]; exact hlimit)]
        exact lockGuard_of_held _ rfl
      simp [hlimit, hlocked]
    . simp [hlimit]

theorem log_of_free {level : LogLevel} {message component : Bytes} {fields : OrderedMap Bytes Bytes}
    (h : g.held = false)
    : ((log host level message component fields g).1 = .hangs
          ↔
        ∃ entry, entryOf host level message component fields g.value.logger = some entry
          ∧ g.value.Fills entry)
        ∧ ((log host level message component fields g).1 ≠ .hangs →
          (log host level message component fields g).2.held = false) := by
  unfold log
  cases hentry : entryOf host level message component fields g.value.logger with
  | none => simp [h]
  | some entry => simpa using logEntry_of_free h

/--
A call on a free logger hangs exactly if it writes a record with which the file reaches its maximal size.
-/
theorem perform_of_free (call : LogHost × LogCall) (h : g.held = false)
    : ((perform call g).1 = .hangs ↔ g.value.ReachesLimit call)
        ∧ ((perform call g).1 ≠ .hangs → (perform call g).2.held = false) := by
  have hreturns : ∀ {call : LogHost × LogCall}, call.2.entry call.1 g.value.logger = none →
      Returns (perform call) g →
      ((perform call g).1 = .hangs ↔ g.value.ReachesLimit call)
        ∧ ((perform call g).1 ≠ .hangs → (perform call g).2.held = false) := by
    intro call hnone hcall
    exact ⟨iff_of_false hcall.1 (by simp [ReachesLimit, hnone]), fun _ => hcall.2⟩
  obtain ⟨host, call⟩ := call
  cases call with
  | debug | info | warn | error | fatal | log => exact log_of_free h
  | rotateLog => exact hreturns rfl (returns_rotateLog h)
  | setLevel | setFormat | setFile | setMaxFileSize | setMaxFiles | setCompressOldLogs | addFilter
  | removeFilter | clearFilters => exact hreturns rfl (returns_guarded _ h)

/--
A thread and its logger, with nobody inside.
-/
def caller (w : LogWorld) : Caller LogWorld :=
  { object := { value := w } }

theorem free_caller (w : LogWorld) : (caller w).Free := ⟨rfl, rfl⟩

/--
No call of a run waits for itself if and only if none writes a record with which the log file reaches
its maximal size.
-/
theorem never_locks_itself_iff {w : LogWorld} {calls : List (LogHost × LogCall)} {t : Caller LogWorld}
    (hrun : (Caller.step perform).Run (caller w) calls t)
    : (Caller.step perform).Always (caller w) (fun t => t.hangs = false) calls
        ↔
      ((Caller.step perform).restrict fun t call => ¬t.object.value.ReachesLimit call).Run (caller w) calls t :=
  Caller.never_hangs_iff (fun call _ h => perform_of_free call h) (free_caller w) hrun

/--
A new logger and an empty root directory.
-/
def single : LogWorld :=
  { logger := {}, fs := { entries := [] } }

def setFileCall : LogHost × LogCall := ({}, .setFile (bytes "/log"))

def infoCall : LogHost × LogCall := ({}, .info (bytes "hello"))

theorem never_locks_itself_single
    : (Caller.step perform).Always (caller single) (fun t => t.hangs = false) [setFileCall, infoCall] := by
  have hrun : ((Caller.step perform).restrict fun t call => ¬t.object.value.ReachesLimit call).Run
      (caller single) [setFileCall, infoCall] _ :=
    .cons ⟨by decide, Caller.step_act _ _ _⟩ (.single ⟨by decide, Caller.step_act _ _ _⟩)
  exact (never_locks_itself_iff hrun.of_restrict).mpr hrun

/--
A log file of ten bytes is full after the first record, and the call that writes it never returns.
-/
theorem locks_itself_single
    : ¬(Caller.step perform).Always (caller single) (fun t => t.hangs = false)
        [setFileCall, ({}, .setMaxFileSize 10), infoCall] := by
  intro halways
  have hreturns := halways _ _ List.prefix_rfl
    (.cons (Caller.step_act _ _ _) (.cons (Caller.step_act _ _ _) (.single (Caller.step_act _ _ _))))
  exact absurd hreturns (by decide)

end LogWorld
end SimpleRsyncd
