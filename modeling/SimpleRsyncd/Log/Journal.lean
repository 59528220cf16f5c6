import SimpleRsyncd.Log.Rotation

/-!
This module contains the journal of a logger: the lines of all records in order, cut into pages where the log
was rotated. A logger keeps its journal over any calls that leave the log file, the number of archives and
their compression as they are, until it waits for itself.
-/

namespace SimpleRsyncd

/--
What a logger is asked to keep, without its files. A journal is full once the logger waits for itself.
-/
structure Journal where
  level : LogLevel
  format : LogFormat
  filters : List Bytes
  maxFileSize : Nat
  size : Nat
  pages : List Bytes := []
  page : Bytes
  lines : List Bytes := []
  full : Bool := false

namespace Journal

/--
The journal of a logger whose log file has this content.
-/
def ofLogger (logger : Logger) (page : Bytes) : Journal where
  level := logger.level
  format := logger.format
  filters := logger.filters
  maxFileSize := logger.maxFileSize
  size := logger.currentFileSize
  page

/--
The settings that decide what is written for a record.
-/
def settings (j : Journal) : Logger :=
  { level := j.level, format := j.format, filters := j.filters }

def write (j : Journal) (line : Bytes) : Journal :=
  let size := (j.size + line.length) % 2 ^ 64
  { j with size, page := j.page ++ line, lines := j.lines ++ [line], full := j.maxFileSize ≤ size }

def record (j : Journal) (entry : Option LogEntry) : Journal :=
  match entry with
  | none => j
  | some entry => j.write (LogWorld.logLine j.settings entry)

def turn (j : Journal) : Journal :=
  { j with size := 0, pages := j.pages ++ [j.page], page := [] }

def act (j : Journal) (call : LogHost × LogCall) : Journal :=
  if j.full then
    j
  else
    match call.2 with
    | .setLevel level => { j with level }
    | .setFormat format => { j with format }
    | .setMaxFileSize maxFileSize => { j with maxFileSize }
    | .addFilter pattern => { j with filters := j.filters ++ [pattern] }
    | .removeFilter pattern => { j with filters := j.filters.filter (· ≠ pattern) }
    | .clearFilters => { j with filters := [] }
    | .rotateLog => j.turn
    | .setFile _ | .setMaxFiles _ | .setCompressOldLogs _ => j
    | .debug _ | .info _ | .warn _ | .error _ | .fatal _ | .log .. => j.record (call.2.entry call.1 j.settings)

def after (j : Journal) (calls : List (LogHost × LogCall)) : Journal :=
  calls.foldl act j

@[simp]
theorem after_concat (j : Journal) (calls : List (LogHost × LogCall)) (call : LogHost × LogCall)
    : j.after (calls ++ [call]) = (j.after calls).act call := by
  simp [after]

/--
The pages are what there was and the lines, with nothing left out, repeated or moved.
-/
def Whole (content : Bytes) (j : Journal) : Prop :=
  j.pages.flatten ++ j.page = content ++ j.lines.flatten

variable {j : Journal} {content : Bytes}

theorem Whole.record (h : Whole content j) (entry : Option LogEntry) : Whole content (j.record entry) := by
  cases entry with
  | none => exact h
  | some entry =>
    unfold Whole at h ⊢
    simp only [Journal.record, write, List.flatten_append, List.flatten_singleton]
    rw [← List.append_assoc, h, List.append_assoc]

theorem Whole.turn (h : Whole content j) : Whole content j.turn := by
  unfold Whole at h ⊢
  simpa [Journal.turn] using h

theorem Whole.act (h : Whole content j) (call : LogHost × LogCall) : Whole content (j.act call) := by
  obtain ⟨host, call⟩ := call
  unfold Journal.act
  split
  . exact h
  . cases call with
    | rotateLog => exact h.turn
    | debug | info | warn | error | fatal | log => exact h.record _
    | _ => exact h

theorem Whole.after (h : Whole content j) (calls : List (LogHost × LogCall)) : Whole content (j.after calls) := by
  induction calls using List.reverseRecOn with
  | nil => exact h
  | append_singleton calls call ih =>
    rw [after_concat]
    exact ih.act call

theorem whole_ofLogger (logger : Logger) (content : Bytes) : Whole content (ofLogger logger content) := by
  simp [Whole, ofLogger]

/--
The logger has the settings of the journal.
-/
structure Agrees (j : Journal) (logger : Logger) : Prop where
  level : logger.level = j.level
  format : logger.format = j.format
  filters : logger.filters = j.filters
  maxFileSize : logger.maxFileSize = j.maxFileSize
  size : logger.currentFileSize = j.size

variable {logger : Logger}

theorem Agrees.entry_eq (h : j.Agrees logger) (host : LogHost) (call : LogCall)
    : call.entry host logger = call.entry host j.settings := by
  have hsame : ∀ level message component fields,
      LogWorld.entryOf host level message component fields logger
        = LogWorld.entryOf host level message component fields j.settings := by
    intro level message component fields
    simp [LogWorld.entryOf, Logger.shouldLog, settings, h.level, h.filters]
  cases call <;> first | rfl | exact hsame ..

theorem Agrees.logLine_eq (h : j.Agrees logger) (entry : LogEntry)
    : LogWorld.logLine logger entry = LogWorld.logLine j.settings entry := by
  rw [LogWorld.logLine, LogWorld.logLine, h.format]
  rfl

end Journal

namespace LogWorld

variable {host : LogHost} {w : LogWorld} {g : Guarded LogWorld}

theorem settings_write (w : LogWorld) (entry : LogEntry)
    : (w.write entry).logger.level = w.logger.level ∧ (w.write entry).logger.format = w.logger.format
        ∧ (w.write entry).logger.filters = w.logger.filters := by
  unfold write
  cases hconsole : w.logger.consoleOutput <;> cases hstream : w.logger.logStream <;> simp [hstream]

section log

variable {level : LogLevel} {message component : Bytes} {fields : OrderedMap Bytes Bytes}

theorem value_log_of_none (hentry : entryOf host level message component fields g.value.logger = none)
    : (log host level message component fields g).2.value = g.value := by
  unfold log
  rw [hentry]

theorem value_log_of_some {entry : LogEntry} (h : g.held = false)
    (hentry : entryOf host level message component fields g.value.logger = some entry)
    : (log host level message component fields g).2.value = g.value.write entry := by
  unfold log
  rw [hentry]
  exact value_logEntry h entry

end log

/--
A call that logs writes its record, if it has one.
-/
theorem value_perform_of_entry (h : g.held = false) {call : LogHost × LogCall} {entry : LogEntry}
    (hentry : call.2.entry call.1 g.value.logger = some entry)
    : (perform call g).2.value = g.value.write entry := by
  obtain ⟨host, call⟩ := call
  cases call with
  | debug | info | warn | error | fatal | log => exact value_log_of_some h hentry
  | _ => contradiction

end LogWorld

namespace LogRun

/--
A logger keeps a journal: the log shows the current page, and the logger waits for itself exactly if the
journal is full.
-/
structure Shows (site : Site) (name : LogName → Name) (logger : Logger) (r : LogRun) (j : Journal)
    : Prop extends Invariant site name logger r where
  agrees : j.Agrees r.world.logger
  pages : r.rotatedOut = j.pages
  page : r.world.fs.read logger.logFile = some j.page
  full : r.caller.hangs = j.full

variable {site : Site} {name : LogName → Name} {logger : Logger} {r : LogRun} {call : LogHost × LogCall}
  {j : Journal}

theorem hangs_act (hrunning : r.caller.hangs = false) (hfree : r.caller.object.held = false)
    : (r.act call).caller.hangs = true ↔ r.world.ReachesLimit call := by
  obtain ⟨-, hhangs, -⟩ := act_of_running call hrunning
  rw [← Bool.not_eq_false, hhangs, not_not]
  exact (LogWorld.perform_of_free call hfree).1

theorem Shows.ready (h : Shows site name logger r j) (hopen : j.full = false)
    : r.caller.hangs = false ∧ r.caller.object.held = false := by
  have hrunning : r.caller.hangs = false := h.full.trans hopen
  exact ⟨hrunning, h.toInvariant.free hrunning⟩

theorem Shows.rotates_page (h : Shows site name logger r j)
    : LogWorld.Rotates site name r.world r.rotatedOut.reverse j.page := by
  obtain ⟨current, hrotates⟩ := h.toInvariant.rotates
  have hread : r.world.fs.read r.world.logger.logFile = some current :=
    hrotates.folder.read_eq (hrotates.names .log)
  rw [h.same.logFile, h.page] at hread
  obtain rfl := Option.some.inj hread
  exact hrotates

/--
A setter changes neither the files nor the pages.
-/
theorem Shows.set {changed : Logger} {j' : Journal} (h : Shows site name logger r j) (hopen : j.full = false)
    (hinvariant : Invariant site name logger (r.act call))
    (hentry : call.2.entry call.1 r.world.logger = none) (hcall : call.2.rotates = false)
    (hvalue : (LogWorld.perform call r.caller.object).2.value = { r.world with logger := changed })
    (hagrees : j'.Agrees changed) (hpages : j'.pages = j.pages) (hpage : j'.page = j.page)
    (hfull : j'.full = false)
    : Shows site name logger (r.act call) j' := by
  obtain ⟨hrunning, hfree⟩ := h.ready hopen
  obtain ⟨hworld, -, -⟩ := act_of_running call hrunning
  rw [hvalue] at hworld
  refine { hinvariant with agrees := ?_, pages := ?_, page := ?_, full := ?_ }
  . rw [hworld]
    exact hagrees
  . simp [act, content, hcall, hpages, h.pages]
  . rw [hworld, hpage]
    exact h.page
  . rw [hfull, ← Bool.not_eq_true, hangs_act hrunning hfree]
    simp [LogWorld.ReachesLimit, hentry]

theorem Shows.turn {host : LogHost} (hinj : Function.Injective name) (h : Shows site name logger r j)
    (hopen : j.full = false) (hinvariant : Invariant site name logger (r.act (host, .rotateLog)))
    (hhost : host.canWrite logger.logFile = true)
    : Shows site name logger (r.act (host, .rotateLog)) j.turn := by
  obtain ⟨hrunning, hfree⟩ := h.ready hopen
  obtain ⟨hworld, -, -⟩ := act_of_running (host, .rotateLog) hrunning
  obtain ⟨fs, l, hrotate, hrotates⟩ := LogWorld.rotate_eq host hinj h.rotates_page (by rw [h.same.logFile, hhost])
  have hvalue : (LogWorld.perform (host, .rotateLog) r.caller.object).2.value
      = { r.world with fs, logger.logStream := some l, logger.currentFileSize := 0 } := by
    rw [LogWorld.perform, LogWorld.rotateLog, value_lockGuard _ hfree]
    dsimp only
    rw [← world, hrotate]
  rw [hvalue] at hworld
  have hread : r.world.fs.read r.world.logger.logFile = some j.page := by
    rw [h.same.logFile, h.page]
  refine { hinvariant with agrees := ?_, pages := ?_, page := ?_, full := ?_ }
  . rw [hworld]
    exact ⟨h.agrees.level, h.agrees.format, h.agrees.filters, h.agrees.maxFileSize, rfl⟩
  . simp [act, content, LogCall.rotates, hrunning, hread, h.pages, Journal.turn]
  . rw [hworld, ← h.same.logFile]
    exact hrotates.folder.read_eq (hrotates.names .log)
  . rw [Journal.turn, hopen, ← Bool.not_eq_true, hangs_act hrunning hfree]
    simp [LogWorld.ReachesLimit, LogCall.entry]

/--
The record of a call is written on the current page.
-/
theorem Shows.write {entry : LogEntry} (hinj : Function.Injective name) (h : Shows site name logger r j)
    (hopen : j.full = false) (hinvariant : Invariant site name logger (r.act call))
    (hentry : call.2.entry call.1 r.world.logger = some entry)
    : Shows site name logger (r.act call) (j.write (LogWorld.logLine j.settings entry)) := by
  obtain ⟨hrunning, hfree⟩ := h.ready hopen
  obtain ⟨hworld, -, -⟩ := act_of_running call hrunning
  rw [LogWorld.value_perform_of_entry hfree hentry, ← world] at hworld
  have hcall : call.2.rotates = false := by
    obtain ⟨host, call⟩ := call
    cases call <;> first | rfl | contradiction
  have hline := h.agrees.logLine_eq entry
  obtain ⟨hrotates, hsame⟩ := LogWorld.rotates_write hinj h.rotates_page entry
  obtain ⟨hlevel, hformat, hfilters⟩ := LogWorld.settings_write r.world entry
  obtain ⟨-, hmax, hsize⟩ := LogWorld.logger_write r.world entry
  obtain ⟨l, hstream, -⟩ := h.rotates_page.stream
  have hstream' : r.world.logger.logStream.isSome = true := by simp [hstream]
  refine { hinvariant with agrees := ?_, pages := ?_, page := ?_, full := ?_ }
  . rw [hworld]
    refine ⟨hlevel.trans h.agrees.level, hformat.trans h.agrees.format, hfilters.trans h.agrees.filters,
      hmax.trans h.agrees.maxFileSize, ?_⟩
    rw [hsize hstream', hline, h.agrees.size]
    rfl
  . simp [act, content, hcall, h.pages, Journal.write]
  . have hlog : (r.world.write entry).logger.logFile = logger.logFile := hsame.logFile.trans h.same.logFile
    have hread : (r.world.write entry).fs.read (r.world.write entry).logger.logFile
        = some (j.page ++ LogWorld.logLine r.world.logger entry) :=
      hrotates.folder.read_eq (hrotates.names .log)
    rw [hworld, ← hlog, hread, hline]
    rfl
  . rw [Bool.eq_iff_iff, hangs_act hrunning hfree]
    simp [LogWorld.ReachesLimit, hentry, LogWorld.Fills, hstream', hline, h.agrees.size, h.agrees.maxFileSize,
      Journal.write]

/--
A call that writes nothing on the current page and leaves the settings alone.
-/
theorem Shows.skip (h : Shows site name logger r j) (hopen : j.full = false)
    (hinvariant : Invariant site name logger (r.act call))
    (hentry : call.2.entry call.1 r.world.logger = none) (hcall : call.2.rotates = false)
    (hvalue : (LogWorld.perform call r.caller.object).2.value = r.world)
    : Shows site name logger (r.act call) j :=
  h.set hopen hinvariant hentry hcall hvalue h.agrees rfl rfl hopen

theorem Shows.act (hinj : Function.Injective name) (h : Shows site name logger r j) (hkeeps : Keeps logger call)
    : Shows site name logger (r.act call) (j.act call) := by
  have hinvariant := invariant_act hinj h.toInvariant hkeeps
  cases hopen : j.full with
  | true =>
    have hhangs : r.caller.hangs = true := h.full.trans hopen
    have hr : r.act call = r := by
      simp [LogRun.act, content, Caller.act, hhangs]
    have hj : j.act call = j := by
      simp [Journal.act, hopen]
    rwa [hr, hj]
  | false =>
    obtain ⟨-, hfree⟩ := h.ready hopen
    obtain ⟨hlevel, hformat, hfilters, hmax, hsize⟩ := h.agrees
    have hset : ∀ change : LogWorld → LogWorld,
        (LogWorld.guarded change r.caller.object).2.value = change r.world :=
      fun change => value_lockGuard _ hfree
    unfold Journal.act
    rw [if_neg (by simp [hopen])]
    obtain ⟨host, call⟩ := call
    cases call with
    | setFile | setMaxFiles | setCompressOldLogs => exact absurd hkeeps.1 not_false
    | rotateLog => exact h.turn hinj hopen hinvariant hkeeps.2
    | setLevel =>
      exact h.set hopen hinvariant rfl rfl (hset _) ⟨rfl, hformat, hfilters, hmax, hsize⟩ rfl rfl hopen
    | setFormat =>
      exact h.set hopen hinvariant rfl rfl (hset _) ⟨hlevel, rfl, hfilters, hmax, hsize⟩ rfl rfl hopen
    | setMaxFileSize =>
      exact h.set hopen hinvariant rfl rfl (hset _) ⟨hlevel, hformat, hfilters, rfl, hsize⟩ rfl rfl hopen
    | addFilter pattern =>
      have hadded : r.world.logger.filters ++ [pattern] = j.filters ++ [pattern] := by rw [hfilters]
      exact h.set hopen hinvariant rfl rfl (hset _) ⟨hlevel, hformat, hadded, hmax, hsize⟩ rfl rfl hopen
    | removeFilter pattern =>
      have hremoved : r.world.logger.filters.filter (· ≠ pattern) = j.filters.filter (· ≠ pattern) := by
        rw [hfilters]
      exact h.set hopen hinvariant rfl rfl (hset _) ⟨hlevel, hformat, hremoved, hmax, hsize⟩ rfl rfl hopen
    | clearFilters =>
      exact h.set hopen hinvariant rfl rfl (hset _) ⟨hlevel, hformat, rfl, hmax, hsize⟩ rfl rfl hopen
    | debug | info | warn | error | fatal | log =>
      dsimp only
      rw [← h.agrees.entry_eq]
      generalize hentry : LogCall.entry host r.world.logger _ = entry
      cases entry with
      | none => exact h.skip hopen hinvariant hentry rfl (LogWorld.value_log_of_none hentry)
      | some entry => exact h.write hinj hopen hinvariant hentry

/--
A logger with an open log file and no archives keeps a journal that begins with the content of the file.
-/
theorem exists_shows {w : LogWorld} {l : Loc} {c : Bytes} (hmax : 1 ≤ w.logger.maxFiles)
    (hstream : w.logger.logStream = some l) (hlog : w.fs.resolve w.logger.logFile = .ok l)
    (hdata : w.fs.data l = some c)
    (hnone : ∀ i, i ≠ .log → w.fs.lresolve (w.logger.path i) = .error .enoent)
    : ∃ site name, Function.Injective name
        ∧ Shows site name w.logger { caller := LogWorld.caller w } (Journal.ofLogger w.logger c) := by
  obtain ⟨es, n, helems⟩ := FileSystem.exists_name_of_resolve hlog (w.fs.kind_of_data hdata)
  have hpath := Logger.elems_path helems
  obtain ⟨site, hnames, hfolder⟩ := FileSystem.exists_folder (i := LogName.log) (fun i => (hpath i).2)
    (fun i => (hpath i).1) hlog hdata hnone
  have hfiles : w.logger.archived [] c = Function.update (fun _ => none) .log (some c) := by
    funext i
    cases i <;> simp [Logger.archived]
  rw [← hfiles] at hfolder
  have hread : w.fs.read w.logger.logFile = some c := hfolder.read_eq (hnames .log)
  have hrotates : LogWorld.Rotates site (LogName.component helems) w [] c :=
    ⟨hnames, hfolder, hmax, l, hstream, hlog, .inr rfl⟩
  have hinvariant : Invariant site (LogName.component helems) w.logger { caller := LogWorld.caller w } :=
    ⟨fun _ => rfl, ⟨rfl, rfl, rfl⟩, c, hrotates⟩
  exact ⟨site, _, component_injective helems, hinvariant, ⟨rfl, rfl, rfl, rfl, rfl⟩, rfl, hread, rfl⟩

/--
After any calls the log file shows the current page of the journal and the archives its newest other pages,
in order. All pages together are the first content of the log file and the lines of the records. The logger
has begun to wait for itself exactly if the journal is full.
-/
theorem journal_kept {w : LogWorld} {l : Loc} {c : Bytes} {calls : List (LogHost × LogCall)}
    (hmax : 1 ≤ w.logger.maxFiles) (hstream : w.logger.logStream = some l)
    (hlog : w.fs.resolve w.logger.logFile = .ok l) (hdata : w.fs.data l = some c)
    (hnone : ∀ i, i ≠ .log → w.fs.lresolve (w.logger.path i) = .error .enoent)
    (hrun : (step.restrict fun _ => Keeps w.logger).Run { caller := LogWorld.caller w } calls r)
    : let j := (Journal.ofLogger w.logger c).after calls
      KeepsNewest w.logger r.world.fs j.pages ∧ r.world.fs.read w.logger.logFile = some j.page
        ∧ j.pages.flatten ++ j.page = c ++ j.lines.flatten ∧ r.caller.hangs = j.full := by
  obtain ⟨site, name, hinj, hfirst⟩ := exists_shows hmax hstream hlog hdata hnone
  have hshows : Shows site name w.logger r ((Journal.ofLogger w.logger c).after calls) := by
    induction hrun with
    | nil => exact hfirst
    | snoc _ hstep ih =>
      obtain ⟨hkeeps, rfl⟩ := hstep
      rw [Journal.after_concat]
      exact ih.act hinj hkeeps
  refine ⟨?_, hshows.page, (Journal.whole_ofLogger w.logger c).after calls, hshows.full⟩
  rw [← hshows.pages]
  exact keepsNewest_of_invariant hshows.toInvariant

/--
A record, a rotation, a message below the level and one more record.
-/
def pageCalls : List (LogHost × LogCall) := [
  ({ timestamp := bytes "2024-01-01 00:00:00" }, .info (bytes "one")),
  ({}, .rotateLog),
  ({}, .debug (bytes "hidden")),
  ({ timestamp := bytes "2024-01-01 00:00:01" }, .warn (bytes "two"))
]

theorem journal_kept_alone
    : let r := pageCalls.foldl (fun r call => act call r) { caller := LogWorld.caller alone }
      KeepsNewest alone.logger r.world.fs [bytes "x[2024-01-01 00:00:00] [INFO] one\n"]
        ∧ r.world.fs.read (bytes "/a.log") = some (bytes "[2024-01-01 00:00:01] [WARN] two\n")
        ∧ r.caller.hangs = false := by
  have hdata : alone.fs.data [⟨_, isName_log⟩] = some (bytes "x") := by decide
  have hrun : (step.restrict fun _ => Keeps alone.logger).Run { caller := LogWorld.caller alone } pageCalls
      (pageCalls.foldl (fun r call => act call r) { caller := LogWorld.caller alone }) :=
    .cons ⟨⟨trivial, rfl⟩, rfl⟩ (.cons ⟨⟨trivial, rfl⟩, rfl⟩
      (.cons ⟨⟨trivial, rfl⟩, rfl⟩ (.single ⟨⟨trivial, rfl⟩, rfl⟩)))
  obtain ⟨hnewest, hpage, -, hhangs⟩ := journal_kept (by decide) rfl (by decide) hdata alone_lresolve hrun
  have hpages : ((Journal.ofLogger alone.logger (bytes "x")).after pageCalls).pages
      = [bytes "x[2024-01-01 00:00:00] [INFO] one\n"] := by decide
  have hlast : ((Journal.ofLogger alone.logger (bytes "x")).after pageCalls).page
      = bytes "[2024-01-01 00:00:01] [WARN] two\n" := by decide
  have hopen : ((Journal.ofLogger alone.logger (bytes "x")).after pageCalls).full = false := by decide
  rw [hpages] at hnewest
  rw [hlast] at hpage
  exact ⟨hnewest, hpage, hhangs.trans hopen⟩

end LogRun
end SimpleRsyncd
