import SimpleRsyncd.Log.Archive
import SimpleRsyncd.Log.SelfLock

/-!
This module determines which archives there are after any calls on a logger that leave the log file, the number
of archives and their compression as they are: the newest contents that were rotated out, in order.
-/

namespace SimpleRsyncd

/--
The content is read from the path, or there is nothing.
-/
def FileSystem.Shows (fs : FileSystem) (p : Bytes) (content : Option Bytes) : Prop :=
  fs.exists p = .ok content.isSome ∧ fs.read p = content

/--
The settings that the rotation reads are the same.
-/
structure Logger.SameRotation (logger logger' : Logger) : Prop where
  logFile : logger'.logFile = logger.logFile
  maxFiles : logger'.maxFiles = logger.maxFiles
  compressOldLogs : logger'.compressOldLogs = logger.compressOldLogs

theorem Logger.SameRotation.path {logger logger' : Logger} (h : logger.SameRotation logger') : logger'.path = logger.path := by
  funext i
  cases i <;> simp [Logger.path, Logger.getLogFilename, h.logFile]

theorem Logger.SameRotation.archived {logger logger' : Logger} (h : logger.SameRotation logger')
    : logger'.archived = logger.archived := by
  have hcompresses : logger'.compresses = logger.compresses := by
    rw [Logger.compresses, Logger.compresses, h.compressOldLogs, h.maxFiles]
  have hcapacity : logger'.capacity = logger.capacity := by
    rw [Logger.capacity, Logger.capacity, hcompresses, h.maxFiles]
  funext old current i
  cases i <;> simp [Logger.archived, hcompresses, hcapacity, h.maxFiles]

/--
The calls that do not change these settings.
-/
def LogCall.KeepsRotation : LogCall → Prop
  | .setFile _ | .setMaxFiles _ | .setCompressOldLogs _ => False
  | _ => True

namespace LogWorld

/--
The log file is open and the names of the log and its archives show these contents, the newest archive first.
The stream may have been opened through a symbolic link as long as nothing has been archived.
-/
structure Rotates (site : Site) (name : LogName → Name) (w : LogWorld) (old : List Bytes) (current : Bytes) : Prop where
  names : ∀ i, site.Names (w.logger.path i) (name i)
  folder : Folder site name w.fs (w.logger.archived old current)
  maxFiles : 1 ≤ w.logger.maxFiles
  stream : ∃ l, w.logger.logStream = some l ∧ w.fs.resolve w.logger.logFile = .ok l
    ∧ (l = site.loc ++ [name .log] ∨ old = [])

variable {host : LogHost} {w : LogWorld} {site : Site} {name : LogName → Name} {old : List Bytes} {current : Bytes}

theorem Rotates.logFile_ne_nil (h : Rotates site name w old current) : w.logger.logFile ≠ [] :=
  Folder.ne_nil (h.names .log)

/--
A rotation archives the current log and opens an empty one.
-/
theorem rotate_eq (host : LogHost) (hinj : Function.Injective name) (h : Rotates site name w old current)
    (hhost : host.canWrite w.logger.logFile = true)
    : ∃ fs l,
        w.rotate host = (.returns, { w with fs, logger.logStream := some l, logger.currentFileSize := 0 })
          ∧ Rotates site name { w with fs, logger.logStream := some l, logger.currentFileSize := 0 } (current :: old) [] := by
  obtain ⟨l, hstream, -, -⟩ := h.stream
  obtain ⟨fs₁, fs₂, fs₃, l', hshift, hmove, hopen, hfolder, hleads, hl'⟩ :=
    Logger.rotateFiles_eq ({ w with logger.logStream := none } : LogWorld).logger hinj h.names h.maxFiles h.folder
  have hopened : (w.logger.logFile.isEmpty || w.logger.logStream.isNone) = false := by
    simp [h.logFile_ne_nil, hstream]
  refine ⟨fs₃, l', ?_, h.names, hfolder, h.maxFiles, l', rfl, hleads, .inl hl'⟩
  unfold rotate
  rw [if_neg (by simp [hopened])]
  dsimp only at hshift hmove hopen ⊢
  simp only [hshift, hmove, hhost, hopen]

theorem update_archived (logger : Logger) (old : List Bytes) (current current' : Bytes)
    : Function.update (logger.archived old current) .log (some current') = logger.archived old current' := by
  funext i
  cases i <;> rfl

/--
A record is written at the end of the current log.
-/
theorem rotates_write (hinj : Function.Injective name) (h : Rotates site name w old current) (entry : LogEntry)
    : Rotates site name (w.write entry) old (current ++ logLine w.logger entry)
        ∧ w.logger.SameRotation (w.write entry).logger := by
  obtain ⟨l, hstream, hleads, hl⟩ := h.stream
  have halone : l = site.loc ++ [name .log] ∨ ∀ i, i ≠ .log → w.logger.archived old current i = none := by
    refine hl.imp id ?_
    rintro rfl i hi
    cases i with
    | log => contradiction
    | slot k => simp [Logger.archived]
    | compressed k => simp [Logger.archived]
  obtain ⟨hfolder, hleads'⟩ := h.folder.appendData hinj (h.names .log) rfl hleads halone (logLine w.logger entry)
  rw [update_archived] at hfolder
  unfold write
  cases hconsole : w.logger.consoleOutput
  all_goals
    simp only [hstream, if_true, if_false, Bool.false_eq_true]
    exact ⟨⟨h.names, hfolder, h.maxFiles, l, rfl, hleads', hl⟩, rfl, rfl, rfl⟩

variable {g : Guarded LogWorld}

/--
A record that fills the file is written as well, before the call waits for itself.
-/
theorem value_logEntry (h : g.held = false) (entry : LogEntry)
    : (logEntry host entry g).2.value = g.value.write entry := by
  rw [logEntry, value_lockGuard _ h]
  dsimp only
  split
  . unfold checkRotation
    split
    . rw [rotateLog, lockGuard_of_held _ rfl]
    . rfl
  . rfl

theorem rotates_log (hinj : Function.Injective name) (hfree : g.held = false) (h : Rotates site name g.value old current)
    (level : LogLevel) (message component : Bytes) (fields : OrderedMap Bytes Bytes)
    : (∃ current', Rotates site name (log host level message component fields g).2.value old current')
        ∧ g.value.logger.SameRotation (log host level message component fields g).2.value.logger := by
  unfold log
  cases entryOf host level message component fields g.value.logger with
  | none => exact ⟨⟨current, h⟩, rfl, rfl, rfl⟩
  | some entry =>
    dsimp only
    rw [value_logEntry hfree]
    obtain ⟨hrotates, hsame⟩ := rotates_write hinj h entry
    exact ⟨⟨_, hrotates⟩, hsame⟩

end LogWorld

def LogCall.rotates : LogCall → Bool
  | .rotateLog => true
  | _ => false

namespace LogWorld

/--
A call on a free logger that keeps the settings of the rotation.
-/
theorem rotates_perform (hinj : Function.Injective name) (hfree : g.held = false)
    (h : Rotates site name g.value old current) {call : LogHost × LogCall} (hkeeps : call.2.KeepsRotation)
    (hhost : call.1.canWrite g.value.logger.logFile = true)
    : (∃ current', Rotates site name (perform call g).2.value (if call.2.rotates then current :: old else old) current')
        ∧ g.value.logger.SameRotation (perform call g).2.value.logger := by
  obtain ⟨host, call⟩ := call
  cases call with
  | setFile | setMaxFiles | setCompressOldLogs => exact absurd hkeeps not_false
  | debug | info | warn | error | fatal | log => exact rotates_log hinj hfree h _ _ _ _
  | rotateLog =>
    obtain ⟨fs, l, hrotate, hrotates⟩ := rotate_eq host hinj h hhost
    rw [perform, rotateLog, value_lockGuard _ hfree]
    dsimp only
    rw [hrotate]
    exact ⟨⟨[], hrotates⟩, rfl, rfl, rfl⟩
  | setLevel | setFormat | setMaxFileSize | addFilter | removeFilter | clearFilters =>
    rw [perform, guarded, value_lockGuard _ hfree]
    exact ⟨⟨current, h.names, h.folder, h.maxFiles, h.stream⟩, rfl, rfl, rfl⟩

end LogWorld

/--
A thread and its logger, and the contents that its calls have rotated out.
-/
structure LogRun where
  caller : Caller LogWorld
  rotatedOut : List Bytes := []

namespace LogRun

def world (r : LogRun) : LogWorld := r.caller.object.value

/--
What the next call rotates out: what is read from the log file before it.
-/
def content (r : LogRun) (call : LogHost × LogCall) : List Bytes :=
  if call.2.rotates && !r.caller.hangs then (r.world.fs.read r.world.logger.logFile).toList else []

def act (call : LogHost × LogCall) (r : LogRun) : LogRun :=
  { caller := r.caller.act LogWorld.perform call, rotatedOut := r.rotatedOut ++ r.content call }

def step : Transition LogRun (LogHost × LogCall) :=
  .ofFun act

variable {site : Site} {name : LogName → Name} {logger : Logger} {r : LogRun} {call : LogHost × LogCall}

/--
A call keeps the settings of the rotation of `logger`, and the log file can be opened again.
-/
def Keeps (logger : Logger) (call : LogHost × LogCall) : Prop :=
  call.2.KeepsRotation ∧ call.1.canWrite logger.logFile = true

/--
The mutex is free unless the thread waits for itself, and the names show what has been rotated out.
-/
structure Invariant (site : Site) (name : LogName → Name) (logger : Logger) (r : LogRun) : Prop where
  free : r.caller.hangs = false → r.caller.object.held = false
  same : logger.SameRotation r.world.logger
  rotates : ∃ current, LogWorld.Rotates site name r.world r.rotatedOut.reverse current

theorem act_of_running (call : LogHost × LogCall) (hrunning : r.caller.hangs = false)
    : (r.act call).world = (LogWorld.perform call r.caller.object).2.value
        ∧ ((r.act call).caller.hangs = false ↔ (LogWorld.perform call r.caller.object).1 ≠ .hangs)
        ∧ (r.act call).caller.object.held = (LogWorld.perform call r.caller.object).2.held := by
  unfold world act Caller.act
  simp only [hrunning, Bool.false_eq_true, if_false]
  rcases LogWorld.perform call r.caller.object with ⟨_ | e | _, g⟩ <;> simp

theorem invariant_act (hinj : Function.Injective name) (h : Invariant site name logger r) (hkeeps : Keeps logger call)
    : Invariant site name logger (r.act call) := by
  obtain ⟨current, hrotates⟩ := h.rotates
  cases hrunning : r.caller.hangs with
  | true =>
    have hact : r.act call = r := by
      simp [act, content, Caller.act, hrunning]
    rwa [hact]
  | false =>
    have hfree := h.free hrunning
    obtain ⟨hworld, hhangs, hheld⟩ := act_of_running call hrunning
    have hhost : call.1.canWrite r.world.logger.logFile = true := by
      rw [h.same.logFile]
      exact hkeeps.2
    obtain ⟨⟨current', hrotates'⟩, hsame⟩ := LogWorld.rotates_perform hinj hfree hrotates hkeeps.1 hhost
    have hread : r.world.fs.read r.world.logger.logFile = some current :=
      hrotates.folder.read_eq (hrotates.names .log)
    have hcontent : (r.act call).rotatedOut.reverse
        = if call.2.rotates then current :: r.rotatedOut.reverse else r.rotatedOut.reverse := by
      cases hcall : call.2.rotates <;> simp [act, content, hcall, hrunning, hread]
    refine ⟨?_, ?_, current', ?_⟩
    . rw [hhangs, hheld]
      exact (LogWorld.perform_of_free call hfree).2
    . rw [hworld]
      exact ⟨hsame.logFile.trans h.same.logFile, hsame.maxFiles.trans h.same.maxFiles,
        hsame.compressOldLogs.trans h.same.compressOldLogs⟩
    . rw [hworld, hcontent]
      exact hrotates'

/--
The names show the newest contents that have been rotated out, in order.
-/
structure KeepsNewest (logger : Logger) (fs : FileSystem) (cs : List Bytes) : Prop where
  slots : ∀ k, fs.Shows (logger.getLogFilename k)
    (if k < min cs.length logger.capacity then cs[cs.length - 1 - k]? else none)
  compressed : ∀ k, fs.Shows (logger.getLogFilename k ++ bytes ".gz")
    (if logger.compresses ∧ k + 2 = logger.maxFiles ∧ logger.maxFiles ≤ cs.length then
      cs[cs.length - logger.maxFiles]?
    else
      none)

/--
The next rotation returns and leaves an empty log file open.
-/
def RestartsEmpty (logger : Logger) (r : LogRun) : Prop :=
  ∀ host : LogHost, host.canWrite logger.logFile = true → r.caller.hangs = false →
    let after := r.act (host, .rotateLog)
    after.caller.hangs = false ∧ after.world.logger.logStream.isSome = true
      ∧ after.world.logger.currentFileSize = 0 ∧ after.world.fs.Shows logger.logFile (some [])

theorem shows_archived {w : LogWorld} {old : List Bytes} {current : Bytes}
    (h : LogWorld.Rotates site name w old current) (i : LogName)
    : w.fs.Shows (w.logger.path i) (w.logger.archived old current i) :=
  ⟨h.folder.exists_eq (h.names i), h.folder.read_eq (h.names i)⟩

theorem archived_slot (logger : Logger) (cs : List Bytes) (current : Bytes) (k : Nat)
    : logger.archived cs.reverse current (.slot k)
        = if k < min cs.length logger.capacity then cs[cs.length - 1 - k]? else none := by
  rw [Logger.archived, List.getElem?_take]
  by_cases hlength : k < cs.length
  . rw [List.getElem?_reverse hlength]
    simp [hlength]
  . have hbeyond : cs.reverse[k]? = none := by
      rw [List.getElem?_eq_none_iff, List.length_reverse]
      omega
    rw [hbeyond, if_neg (by omega : ¬k < min cs.length logger.capacity), ite_self]

theorem archived_compressed (logger : Logger) (cs : List Bytes) (current : Bytes) (k : Nat)
    : logger.archived cs.reverse current (.compressed k)
        =
      if logger.compresses ∧ k + 2 = logger.maxFiles ∧ logger.maxFiles ≤ cs.length then
        cs[cs.length - logger.maxFiles]?
      else
        none := by
  rw [Logger.archived]
  by_cases hlast : logger.compresses = true ∧ k + 2 = logger.maxFiles
  . have hcapacity : logger.capacity = k + 1 := by
      simp [Logger.capacity, hlast.1, ← hlast.2]
    rw [if_pos (by simp [hlast]), hcapacity]
    by_cases hlength : logger.maxFiles ≤ cs.length
    . rw [if_pos ⟨hlast.1, hlast.2, hlength⟩, List.getElem?_reverse (by omega)]
      congr 1
      omega
    . rw [if_neg (by simp [hlength]), List.getElem?_eq_none_iff, List.length_reverse]
      omega
  . rw [if_neg (by simpa using hlast), if_neg fun h => hlast ⟨h.1, h.2.1⟩]

theorem keepsNewest_of_invariant (h : Invariant site name logger r) : KeepsNewest logger r.world.fs r.rotatedOut := by
  obtain ⟨current, hrotates⟩ := h.rotates
  have hshows := shows_archived hrotates
  rw [h.same.path, h.same.archived] at hshows
  constructor
  . intro k
    rw [← archived_slot logger _ current]
    exact hshows (.slot k)
  . intro k
    rw [← archived_compressed logger _ current]
    exact hshows (.compressed k)

theorem restartsEmpty_of_invariant (hinj : Function.Injective name) (h : Invariant site name logger r)
    : RestartsEmpty logger r := by
  intro host hhost hrunning
  obtain ⟨current, hrotates⟩ := h.rotates
  obtain ⟨hworld, hhangs, -⟩ := act_of_running (host, .rotateLog) hrunning
  obtain ⟨fs, l, hrotate, hrotates'⟩ := LogWorld.rotate_eq host hinj hrotates (by rw [h.same.logFile, hhost])
  have hperform : LogWorld.perform (host, .rotateLog) r.caller.object
      = (.returns, { value := { r.world with
        fs
        logger.logStream := some l
        logger.currentFileSize := 0
      } }) := by
    rw [world] at hrotate
    simp [LogWorld.perform, LogWorld.rotateLog, lockGuard, h.free hrunning, hrotate, world]
  rw [hperform] at hworld hhangs
  have hshows := shows_archived hrotates' .log
  rw [Logger.path] at hshows
  refine ⟨hhangs.mpr (by simp), ?_, ?_, ?_⟩
  . rw [hworld]
    rfl
  . rw [hworld]
  . rw [hworld, ← h.same.logFile]
    exact hshows

/--
After any calls the archives are the newest contents that were rotated out, in order, and the next rotation
starts an empty log.
-/
theorem rotateLog_keeps_newest {w : LogWorld} {l : Loc} {c : Bytes} {calls : List (LogHost × LogCall)}
    (hmax : 1 ≤ w.logger.maxFiles) (hstream : w.logger.logStream = some l)
    (hlog : w.fs.resolve w.logger.logFile = .ok l) (hdata : w.fs.data l = some c)
    (hnone : ∀ i, i ≠ .log → w.fs.lresolve (w.logger.path i) = .error .enoent)
    (hrun : (step.restrict fun _ => Keeps w.logger).Run { caller := LogWorld.caller w } calls r)
    : KeepsNewest w.logger r.world.fs r.rotatedOut ∧ RestartsEmpty w.logger r := by
  obtain ⟨es, n, helems⟩ := FileSystem.exists_name_of_resolve hlog (w.fs.kind_of_data hdata)
  have hpath := Logger.elems_path helems
  have hinj := component_injective helems
  obtain ⟨site, hnames, hfolder⟩ := FileSystem.exists_folder (i := LogName.log) (fun i => (hpath i).2)
    (fun i => (hpath i).1) hlog hdata hnone
  have hinvariant : Invariant site (LogName.component helems) w.logger r := by
    refine hrun.invariant ?_ ?_
    . refine ⟨fun _ => rfl, ⟨rfl, rfl, rfl⟩, c, hnames, ?_, hmax, l, hstream, hlog, .inr rfl⟩
      have hfiles : w.logger.archived [] c = Function.update (fun _ => none) .log (some c) := by
        funext i
        cases i <;> simp [Logger.archived]
      rw [List.reverse_nil, world, LogWorld.caller, hfiles]
      exact hfolder
    . rintro r call r' hr ⟨hkeeps, rfl⟩
      exact invariant_act hinj hr hkeeps
  exact ⟨keepsNewest_of_invariant hinvariant, restartsEmpty_of_invariant hinj hinvariant⟩

theorem isName_log : IsName (bytes "a.log") := by
  decide

/--
A logger of three archives whose log file is the only entry of the root directory.
-/
def alone : LogWorld :=
  {
    logger := { logFile := bytes "/a.log", logStream := some [⟨_, isName_log⟩], maxFiles := 3 }
    fs := { entries := [(⟨_, isName_log⟩, .file (bytes "x"))] }
  }

theorem alone_lresolve (i : LogName) (hi : i ≠ .log) : alone.fs.lresolve (alone.logger.path i) = .error .enoent := by
  have hlog : Path.elems alone.logger.logFile = [] ++ [.name ⟨_, isName_log⟩] := by decide
  obtain ⟨helems, habs⟩ := Logger.elems_path hlog i
  have hroot : Path.isAbsolute (alone.logger.path i) = true := habs.trans (by decide)
  have hfile : LogName.log.component hlog = ⟨_, isName_log⟩ :=
    Name.toBytes_injective (Path.filename_of_elems hlog)
  have hne : i.component hlog ≠ LogName.log.component hlog := (component_injective hlog).ne hi
  generalize i.component hlog = n at helems hne
  have hkind : alone.fs.kind [n] = none := by
    rw [hfile] at hne
    have hentries : alone.fs.entries.lookup n = none := by
      rw [alone, List.lookup_cons, beq_eq_false_iff_ne.mpr hne]
      rfl
    simp [FileSystem.kind, FileSystem.node, FileSystem.root, Node.get, Node.entries, hentries]
  simp [FileSystem.lresolve, FileSystem.resolveElems, FileSystem.start, helems, hroot, bind, Except.bind, Except.map,
    alone.fs.isTree.root, hkind]

def rotateCall : LogHost × LogCall := ({}, .rotateLog)

theorem rotateLog_keeps_newest_alone
    : let r := act rotateCall { caller := LogWorld.caller alone }
      r.rotatedOut = [bytes "x"] ∧ KeepsNewest alone.logger r.world.fs r.rotatedOut ∧ RestartsEmpty alone.logger r := by
  have hkeeps : Keeps alone.logger rotateCall := ⟨trivial, rfl⟩
  have hdata : alone.fs.data [⟨_, isName_log⟩] = some (bytes "x") := by decide
  exact ⟨by decide, rotateLog_keeps_newest (by decide) rfl (by decide) hdata alone_lresolve (.single ⟨hkeeps, rfl⟩)⟩

end LogRun
end SimpleRsyncd
