import SimpleRsyncd.Auth.AuthenticationManager
import SimpleRsyncd.Config.Configuration
import SimpleRsyncd.Module.FileSystemModule
import SimpleRsyncd.Security.RateLimiter

/-!
This module contains the construction, the start and the reload of an `RSyncDaemon`. Next to the
configuration it shares, the daemon keeps objects that have been made from it at one of these times.
-/

namespace SimpleRsyncd

structure SSLContext where
  initialized : Bool := false
  deriving DecidableEq

structure RSyncDaemon where
  config : Option Configuration
  modules : OrderedMap Bytes Module := .empty
  authManager : Option AuthenticationManager := none
  sslContext : Option SSLContext := none
  rateLimiter : Option ConnectionRateLimiter := none
  running : Bool := false

/--
What the system does during a start: whether OpenSSL accepts the TLS settings, whether the listening
socket can be set up, and whether `chroot` and the change of the user succeed.
-/
structure StartOutcome where
  initializesSSL : SSLConfig → Bool := fun _ => true
  initializesNetwork : Bool := true
  dropsPrivileges : Bool := true

/--
The files as the databases of the daemon read them.
-/
def Machine.disk (machine : Machine) : Disk where
  content := machine.fs.read
  readable := machine.canRead
  writable := fun _ => false

namespace RSyncDaemon

/--
The constructor.
-/
def new (machine : Machine) (config : Option Configuration) : RSyncDaemon where
  config
  authManager :=
    match config with
    | some c => if c.auth.enabled then some (.new c.auth machine.disk) else none
    | none => none

variable (machine : Machine) (d : RSyncDaemon)

def validateConfiguration : Except Errno Bool × RSyncDaemon :=
  match d.config with
  | none => (.ok false, d)
  | some c =>
    let (valid, c) := c.validate machine.fs
    (valid, { d with config := some c })

/--
The module of a section, with the link policy of the configuration.
-/
def securedModule (c : Configuration) (m : ModuleConfig) : Module where
  config := { m with
    allowSymlinks := c.security.allowSymlinks
    allowHardlinks := c.security.allowHardlinks
  }

/--
A module whose validation fails or throws is left out.
-/
def loadedModules (c : Configuration) : OrderedMap Bytes Module :=
  c.modules.entries.foldl
    (fun modules e =>
      let m := securedModule c e.2
      if m.validate machine.fs = .ok true then modules.insert e.1 m else modules)
    .empty

def loadModules : Bool × RSyncDaemon :=
  match d.config with
  | none => (false, d)
  | some c =>
    let modules := loadedModules machine c
    (!modules.entries.isEmpty, { d with modules })

def reloadModules : Bool × RSyncDaemon :=
  d.loadModules machine

def initializeSSL (outcome : StartOutcome) : Bool × RSyncDaemon :=
  match d.config with
  | none => (true, d)
  | some c =>
    if !c.ssl.enabled then
      (true, d)
    else
      let initialized := outcome.initializesSSL c.ssl
      (initialized, { d with sslContext := some { initialized } })

/--
The last steps of a start, after which the daemon runs.
-/
def beginRunning : RSyncDaemon :=
  match d.config with
  | none => { d with running := true }
  | some c =>
    if c.rateLimit.enabled then
      {
        d with
        rateLimiter := some {
          maxPerMinute := c.rateLimit.maxConnectionsPerMinute
          maxPerHour := c.rateLimit.maxConnectionsPerHour
        }
        running := true
      }
    else
      { d with running := true }

def start (outcome : StartOutcome) : Except Errno Bool × RSyncDaemon :=
  if d.running then
    (.ok true, d)
  else
    match d.validateConfiguration machine with
    | (.error e, d) => (.error e, d)
    | (.ok false, d) => (.ok false, d)
    | (.ok true, d) =>
      match d.loadModules machine with
      | (false, d) => (.ok false, d)
      | (true, d) =>
        match d.initializeSSL outcome with
        | (false, d) => (.ok false, d)
        | (true, d) =>
          if outcome.initializesNetwork && outcome.dropsPrivileges then
            (.ok true, d.beginRunning)
          else
            (.ok false, d)

def reloadConfig : Except LoadError Bool × RSyncDaemon :=
  match d.config with
  | none => (.ok false, d)
  | some c =>
    match c.reload machine with
    | (.error e, c) => (.error e, { d with config := some c })
    | (.ok false, c) => (.ok false, { d with config := some c })
    | (.ok true, c) =>
      match ({ d with config := some c } : RSyncDaemon).validateConfiguration machine with
      | (.error e, d) => (.error (.system e), d)
      | (.ok false, d) => (.ok false, d)
      | (.ok true, d) =>
        let (loaded, d) := d.reloadModules machine
        (.ok loaded, d)

end RSyncDaemon
end SimpleRsyncd
