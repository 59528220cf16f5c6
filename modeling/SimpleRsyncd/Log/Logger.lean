import Mathlib.Algebra.Group.Nat.Defs
import SimpleRsyncd.FileSystem.Basic
import SimpleRsyncd.Bytes.Order
import SimpleRsyncd.Transition.Mutex

/-!
This module contains the `Logger`: its settings, what it writes and how it rotates its file. Almost all
of its functions lock the same mutex, the ones that call each other too.
-/

namespace SimpleRsyncd

inductive LogLevel where
  | debug
  | info
  | warn
  | error
  | fatal
  deriving DecidableEq

namespace LogLevel

def toNat : LogLevel → Nat
  | .debug => 0
  | .info => 1
  | .warn => 2
  | .error => 3
  | .fatal => 4

def text : LogLevel → Bytes
  | .debug => bytes "DEBUG"
  | .info => bytes "INFO"
  | .warn => bytes "WARN"
  | .error => bytes "ERROR"
  | .fatal => bytes "FATAL"

end LogLevel

inductive LogFormat where
  | text
  | json
  deriving DecidableEq

/--
A record, its time is the text that `std::put_time` makes of it.
-/
structure LogEntry where
  timestamp : Bytes
  level : LogLevel
  message : Bytes
  component : Bytes := []
  fields : OrderedMap Bytes Bytes := .empty

namespace LogEntry

def quote (s : Bytes) : Bytes :=
  bytes "\"" ++ s ++ bytes "\""

def toJSON (entry : LogEntry) : Bytes :=
  bytes "\x7b"
    ++ bytes "\"timestamp\":" ++ quote entry.timestamp ++ bytes ","
    ++ bytes "\"level\":" ++ quote entry.level.text ++ bytes ","
    ++ bytes "\"message\":" ++ quote entry.message
    ++ (if entry.component.isEmpty then [] else bytes ",\"component\":" ++ quote entry.component)
    ++ (
      if entry.fields.entries.isEmpty then
        []
      else
        let field (e : Bytes × Bytes) : Bytes := quote e.1 ++ bytes ":" ++ quote e.2
        bytes ",\"fields\":\x7b" ++ (bytes ",").intercalate (entry.fields.entries.map field) ++ bytes "\x7d"
    )
    ++ bytes "\x7d"

def toText (entry : LogEntry) : Bytes :=
  bytes "[" ++ entry.timestamp ++ bytes "]"
    ++ bytes " [" ++ entry.level.text ++ bytes "]"
    ++ (if entry.component.isEmpty then [] else bytes " [" ++ entry.component ++ bytes "]")
    ++ bytes " " ++ entry.message
    ++ (
      if entry.fields.entries.isEmpty then
        []
      else
        let field (e : Bytes × Bytes) : Bytes := e.1 ++ bytes "=" ++ e.2
        bytes " \x7b" ++ (bytes ", ").intercalate (entry.fields.entries.map field) ++ bytes "\x7d"
    )

end LogEntry

/--
An open `log_stream_` is the location that it appends to.
-/
structure Logger where
  level : LogLevel := .info
  format : LogFormat := .text
  logFile : Bytes := []
  logStream : Option Loc := none
  maxFileSize : Nat := 10485760
  maxFiles : Nat := 5
  compressOldLogs : Bool := true
  currentFileSize : Nat := 0
  filters : List Bytes := []
  consoleOutput : Bool := true

/--
What the host answers during one call: the time as a text, which files can be opened for writing, and
whether a pattern is found in a message, `none` if it is no regular expression.
-/
structure LogHost where
  timestamp : Bytes := []
  canWrite : Bytes → Bool := fun _ => true
  regexSearch : Bytes → Bytes → Option Bool := fun _ _ => some false

/--
A logger, the file system and what has been written to the standard output.
-/
structure LogWorld where
  logger : Logger
  fs : FileSystem
  console : Bytes := []

/--
Open `p` for writing with `O_CREAT | O_APPEND`: the file and its location.
-/
def FileSystem.openAppend (fs : FileSystem) (p : Bytes) : Except Errno (FileSystem × Loc) := do
  let (l, _) ← SimpleRsyncd.resolve fs.kind true maxSymlinks (fs.start p) (Path.elems p)
  if fs.kind l = some .dir then
    .error .eisdir
  else if fs.kind l = none then
    .ok (fs.put l (.file []), l)
  else
    .ok (fs, l)

namespace Logger

variable (host : LogHost) (logger : Logger)

/--
Whether no filter is found in the message, a filter that is no regular expression is skipped.
-/
def shouldLog (message : Bytes) : Bool :=
  logger.filters.all fun pattern => host.regexSearch pattern message ≠ some true

def getLogFilename (index : Nat) : Bytes :=
  if logger.logFile.isEmpty then
    []
  else
    let dir := Path.parentPath logger.logFile
    let rotatedFile :=
      Path.stem logger.logFile ++ bytes "." ++ Bytes.ofNat index ++ Path.extension logger.logFile
    if dir.isEmpty then rotatedFile else dir ++ bytes "/" ++ rotatedFile

def renameFile (fs : FileSystem) (source target : Bytes) : Except Errno Unit × FileSystem :=
  match fs.rename source target with
  | .error e => (.error e, fs)
  | .ok fs => (.ok (), fs)

/--
A file gets another name if it is there.
-/
def moveFile (fs : FileSystem) (source target : Bytes) : Except Errno Unit × FileSystem :=
  match fs.exists source with
  | .error e => (.error e, fs)
  | .ok false => (.ok (), fs)
  | .ok true => renameFile fs source target

/--
The name only says that the file should be compressed.
-/
def compressLog (fs : FileSystem) (filename : Bytes) : Except Errno Unit × FileSystem :=
  moveFile fs filename (filename ++ bytes ".gz")

/--
`max_files_ - 1` on `size_t`.
-/
def lastIndex : Nat :=
  if logger.maxFiles = 0 then 2 ^ 64 - 1 else logger.maxFiles - 1

/--
An iteration of the loop in `rotateLog`.
-/
def shiftFile (i : Nat) (fs : FileSystem) : Except Errno Unit × FileSystem :=
  let oldFile := logger.getLogFilename (i - 1)
  match fs.exists oldFile with
  | .error e => (.error e, fs)
  | .ok false => (.ok (), fs)
  | .ok true =>
    if i = logger.lastIndex && logger.compressOldLogs then
      compressLog fs oldFile
    else
      renameFile fs oldFile (logger.getLogFilename i)

/--
The iterations from an index down to 1.
-/
def shiftFiles : Nat → FileSystem → Except Errno Unit × FileSystem
  | 0, fs => (.ok (), fs)
  | i + 1, fs =>
    match logger.shiftFile (i + 1) fs with
    | (.error e, fs) => (.error e, fs)
    | (.ok (), fs) => shiftFiles i fs

end Logger

namespace LogWorld

variable (host : LogHost)

/--
What `rotateLog` does once it has locked the mutex.
-/
def rotate (w : LogWorld) : Ending Errno × LogWorld :=
  if w.logger.logFile.isEmpty || w.logger.logStream.isNone then
    (.returns, w)
  else
    let w := { w with logger.logStream := none }
    match w.logger.shiftFiles w.logger.lastIndex w.fs with
    | (.error e, fs) => (.throws e, { w with fs })
    | (.ok (), fs) =>
      match Logger.moveFile fs w.logger.logFile (w.logger.getLogFilename 0) with
      | (.error e, fs) => (.throws e, { w with fs })
      | (.ok (), fs) =>
        match host.canWrite w.logger.logFile, fs.openWrite w.logger.logFile with
        | true, .ok (fs, l) => (.returns, { w with fs, logger.logStream := some l, logger.currentFileSize := 0 })
        | _, _ => (.returns, { w with fs, logger.currentFileSize := 0 })

def setFile (filename : Bytes) (w : LogWorld) : LogWorld :=
  let w := { w with logger.logFile := filename, logger.logStream := none }
  if filename.isEmpty then
    w
  else
    match host.canWrite filename, w.fs.openAppend filename with
    | true, .ok (fs, l) =>
      {
        w with
        fs
        logger.logStream := some l
        logger.currentFileSize := ((fs.data l).getD []).length
      }
    | _, _ => w

def logLine (logger : Logger) (entry : LogEntry) : Bytes :=
  (if logger.format = .json then entry.toJSON else entry.toText) ++ bytes "\n"

/--
What `logEntry` writes. The size is a `size_t`.
-/
def write (entry : LogEntry) (w : LogWorld) : LogWorld :=
  let line := logLine w.logger entry
  let w := if w.logger.consoleOutput then { w with console := w.console ++ line } else w
  match w.logger.logStream with
  | none => w
  | some l =>
    {
      w with
      fs := w.fs.appendData l line
      logger.currentFileSize := (w.logger.currentFileSize + line.length) % 2 ^ 64
    }

def rotateLog : GuardedCall LogWorld Errno :=
  lockGuard fun g =>
    let (ending, value) := g.value.rotate host
    (ending, { g with value })

def checkRotation : GuardedCall LogWorld Errno :=
  fun g =>
    if g.value.logger.maxFileSize ≤ g.value.logger.currentFileSize then rotateLog host g else (.returns, g)

def logEntry (entry : LogEntry) : GuardedCall LogWorld Errno :=
  lockGuard fun g =>
    let g := { g with value := g.value.write entry }
    if g.value.logger.logStream.isSome
        && g.value.logger.maxFileSize ≤ g.value.logger.currentFileSize then
      checkRotation host g
    else
      (.returns, g)

/--
The record of a message, `none` if its level is too low or a filter is found in it. The level and the
filters are read without the mutex.
-/
def entryOf (level : LogLevel) (message component : Bytes) (fields : OrderedMap Bytes Bytes) (logger : Logger)
    : Option LogEntry :=
  if level.toNat < logger.level.toNat then
    none
  else if !logger.shouldLog host message then
    none
  else
    some { timestamp := host.timestamp, level, message, component, fields }

def log (level : LogLevel) (message component : Bytes) (fields : OrderedMap Bytes Bytes)
    : GuardedCall LogWorld Errno :=
  fun g =>
    match entryOf host level message component fields g.value.logger with
    | none => (.returns, g)
    | some entry => logEntry host entry g

/--
A setter: it locks the mutex and changes the logger.
-/
def guarded (change : LogWorld → LogWorld) : GuardedCall LogWorld Errno :=
  lockGuard fun g => (.returns, { g with value := change g.value })

end LogWorld

/--
The public functions of a `Logger` that lock its mutex.
-/
inductive LogCall where
  | setLevel (level : LogLevel)
  | setFormat (format : LogFormat)
  | setFile (filename : Bytes)
  | setMaxFileSize (maxSize : Nat)
  | setMaxFiles (maxFiles : Nat)
  | setCompressOldLogs (compress : Bool)
  | debug (message : Bytes)
  | info (message : Bytes)
  | warn (message : Bytes)
  | error (message : Bytes)
  | fatal (message : Bytes)
  | log (level : LogLevel) (message component : Bytes) (fields : OrderedMap Bytes Bytes)
  | addFilter (pattern : Bytes)
  | removeFilter (pattern : Bytes)
  | clearFilters
  | rotateLog

namespace LogWorld

def perform : LogHost × LogCall → GuardedCall LogWorld Errno
  | (_, .setLevel level) => guarded fun w => { w with logger.level := level }
  | (_, .setFormat format) => guarded fun w => { w with logger.format := format }
  | (host, .setFile filename) => guarded (setFile host filename)
  | (_, .setMaxFileSize maxSize) => guarded fun w => { w with logger.maxFileSize := maxSize }
  | (_, .setMaxFiles maxFiles) => guarded fun w => { w with logger.maxFiles := maxFiles }
  | (_, .setCompressOldLogs compress) => guarded fun w => { w with logger.compressOldLogs := compress }
  | (host, .debug message) => log host .debug message [] .empty
  | (host, .info message) => log host .info message [] .empty
  | (host, .warn message) => log host .warn message [] .empty
  | (host, .error message) => log host .error message [] .empty
  | (host, .fatal message) => log host .fatal message [] .empty
  | (host, .log level message component fields) => log host level message component fields
  | (_, .addFilter pattern) => guarded fun w => { w with logger.filters := w.logger.filters ++ [pattern] }
  | (_, .removeFilter pattern) =>
    guarded fun w => { w with logger.filters := w.logger.filters.filter (· ≠ pattern) }
  | (_, .clearFilters) => guarded fun w => { w with logger.filters := [] }
  | (host, .rotateLog) => rotateLog host

end LogWorld
end SimpleRsyncd
