import SimpleRsyncd.Daemon.Startup
import SimpleRsyncd.Program.Arguments

/-!
This module contains `main`: the commands of the program, and the start of a daemon between the command
line and the end of its process.
-/

namespace SimpleRsyncd
namespace Program

/--
Whom a process acts for.
-/
structure Credentials where
  euid : Nat
  gid : Nat
  groups : List Nat
  deriving DecidableEq

/--
`dropProcessPrivileges`. A call that fails leaves what the calls before it have changed.
-/
def Credentials.dropProcessPrivileges (host : StartHost) (c : Credentials) (user group : Bytes) : Bool × Credentials :=
  if user.isEmpty && group.isEmpty then
    (true, c)
  else if c.euid ≠ 0 then
    (true, c)
  else
    match joinGroup c with
    | (false, c) => (false, c)
    | (true, c) => becomeUser c
where
  joinGroup (c : Credentials) : Bool × Credentials :=
    if group.isEmpty then
      (true, c)
    else
      match host.getgrnam group with
      | none => (false, c)
      | some gid => if host.setgid gid then (true, { c with gid }) else (false, c)
  becomeUser (c : Credentials) : Bool × Credentials :=
    if user.isEmpty then
      (true, c)
    else
      match host.getpwnam user with
      | none => (false, c)
      | some uid =>
        if !host.setgroups then
          (false, c)
        else
          let c := { c with groups := [] }
          if host.setuid uid then (true, { c with euid := uid }) else (false, c)

/--
The system as a process finds it. Whether an address and a port can be bound depends on the user.
-/
structure Kernel where
  host : StartHost := {}
  bind : Nat → Bytes → UInt16 → Bool := fun _ _ _ => true
  canWrite : Bytes → Bool := fun _ => true
  pid : Nat := 1

def Kernel.hostFor (kernel : Kernel) (c : Credentials) : StartHost :=
  { kernel.host with isRoot := c.euid = 0, bind := kernel.bind c.euid }

/--
The process of the program, with the daemon once there is one.
-/
structure Process where
  machine : Machine
  credentials : Credentials
  daemon : Option DaemonProcess := none

/--
How a process ends: with an exit code, or by an exception that nobody catches.
-/
inductive Ending where
  | exit (code : Int)
  | terminate
  deriving DecidableEq

section files

variable (fs : FileSystem)

def configPaths : List Bytes :=
  [
    bytes "/etc/simple-rsyncd/rsyncd.conf",
    bytes "/usr/local/etc/simple-rsyncd/rsyncd.conf",
    bytes "/opt/simple-rsyncd/etc/rsyncd.conf",
    bytes "./rsyncd.conf",
    bytes "./config/rsyncd.conf"
  ]

/--
The first of some files that exists.
-/
def firstExisting : List Bytes → Except Errno (Option Bytes)
  | [] => .ok none
  | path :: paths => do
    if ← fs.exists path then .ok (some path) else firstExisting paths

def getDefaultConfigFile (configFile : Bytes) : Except Errno Bytes :=
  if !configFile.isEmpty then
    .ok configFile
  else do
    let found ← firstExisting fs configPaths
    .ok (found.getD (bytes "/etc/simple-rsyncd/rsyncd.conf"))

def writePidFile (kernel : Kernel) (pidFile : Bytes) : Bool × FileSystem :=
  if pidFile.isEmpty then
    (true, fs)
  else
    match kernel.canWrite pidFile, fs.openWrite pidFile with
    | true, .ok (fs, l) => (true, fs.appendData l (Bytes.ofNat kernel.pid ++ bytes "\n"))
    | _, _ => (false, fs)

/--
Whether the file exists is asked outside of the `try` block.
-/
def removePidFile (pidFile : Bytes) : Except Errno FileSystem :=
  if pidFile.isEmpty then
    .ok fs
  else do
    if ← fs.exists pidFile then .ok (fs.removePath pidFile).2 else .ok fs

end files

variable (kernel : Kernel) (args : Arguments) (configFile : Bytes) (p : Process)

/--
The configuration of a command, `none` if it cannot be loaded or is not valid.
-/
def loadConfiguration : Except Ending Configuration :=
  match ({} : Configuration).loadFromFile p.machine configFile with
  | (.error _, _) => .error .terminate
  | (.ok false, _) => .error (.exit 1)
  | (.ok true, c) =>
    match c.validate p.machine.fs with
    | (.error _, _) => .error .terminate
    | (.ok false, _) => .error (.exit 1)
    | (.ok true, c) => .ok c

/--
The pid file is removed, then the process ends.
-/
def endProcess (code : Int) : Option Ending × Process :=
  match removePidFile p.machine.fs args.pidFile with
  | .error _ => (some .terminate, p)
  | .ok fs => (some (.exit code), { p with machine := { p.machine with fs } })

/--
The start of the daemon itself. Once the socket is there, the process becomes the user of the configuration.
-/
def startDaemon (c : Configuration) : Except Errno Bool × Process :=
  let host := kernel.hostFor p.credentials
  let daemon : DaemonProcess := { daemon := .new p.machine (some c) }
  let (started, daemon) := daemon.start p.machine host
  let credentials :=
    if started = .ok true ∨ daemon.listenSocket.isSome then
      (p.credentials.dropProcessPrivileges host c.security.user c.security.group).2
    else
      p.credentials
  (started, { p with daemon := some daemon, credentials })

/--
The command `start` up to its main loop, `none` if it gets there.
-/
def handleStart : Option Ending × Process :=
  match loadConfiguration configFile p with
  | .error ending => (some ending, p)
  | .ok c =>
    match p.credentials.dropProcessPrivileges (kernel.hostFor p.credentials) args.user args.group with
    | (false, credentials) => (some (.exit 1), { p with credentials })
    | (true, credentials) =>
      let (_, fs) := writePidFile p.machine.fs kernel args.pidFile
      let p := { p with credentials, machine := { p.machine with fs } }
      match startDaemon kernel p c with
      | (.ok true, p) => (none, p)
      | (_, p) => endProcess args p 1

/--
The modules are only printed, but it may throw to look for their paths.
-/
def handleTest : Ending :=
  match loadConfiguration configFile p with
  | .error ending => ending
  | .ok c =>
    let looked := c.modules.entries.forM (m := Except Errno) fun e => do
      if ← p.machine.fs.exists e.2.path then
        let _ ← p.machine.fs.isDirectory e.2.path
      .ok ()
    match looked with
    | .error _ => .terminate
    | .ok _ => .exit 0

/--
The commands that only say what they would do.
-/
def stubs : List Bytes :=
  [bytes "stop", bytes "status", bytes "reload", bytes "modules", bytes "logs", bytes "metrics"]

def main (argv : List Bytes) : Option Ending × Process :=
  match parseArguments argv with
  | .error _ => (some (.exit 0), p)
  | .ok args =>
    match getDefaultConfigFile p.machine.fs args.configFile with
    | .error _ => (some .terminate, p)
    | .ok configFile =>
      if args.command = bytes "start" ∨ args.command = bytes "restart" then
        handleStart kernel args configFile p
      else if args.command = bytes "test" then
        (some (handleTest configFile p), p)
      else if stubs.contains args.command then
        (some (.exit 0), p)
      else
        (some (.exit 1), p)

end Program
end SimpleRsyncd
