import SimpleRsyncd.Daemon.Lifetime

/-!
This module determines what a start that fails leaves behind. The listening socket is set up before the process
changes its root directory and its user, and where one of these two fails nobody closes the socket.
-/

namespace SimpleRsyncd

/--
The fields of a `SecurityConfig` that only `start()` reads, no configuration file sets them.
-/
structure PrivilegeConfig where
  chrootEnabled : Bool := false
  chrootDirectory : Bytes := []
  dropPrivileges : Bool := true

/--
What OpenSSL and the system calls of a start answer. A call that can only succeed or fail is a `Bool`.
-/
structure StartHost where
  initializesSSL : SSLConfig → Bool := fun _ => true
  socket : Option Nat := some 3
  setsockopt : Bool := true
  getFlags : Bool := true
  setFlags : Bool := true
  inetAton : Bytes → Bool := fun _ => true
  bind : Bytes → UInt16 → Bool := fun _ _ => true
  listen : Int32 → Bool := fun _ => true
  isRoot : Bool := true
  chroot : Bytes → Bool := fun _ => true
  chdir : Bool := true
  getgrnam : Bytes → Option Nat := fun _ => none
  setgid : Nat → Bool := fun _ => true
  getpwnam : Bytes → Option Nat := fun _ => none
  setgroups : Bool := true
  setuid : Nat → Bool := fun _ => true

namespace StartHost

variable (host : StartHost)

def dropProcessPrivileges (user group : Bytes) : Bool :=
  if user.isEmpty && group.isEmpty then
    true
  else if !host.isRoot then
    true
  else
    (group.isEmpty || (host.getgrnam group).any host.setgid)
      && (user.isEmpty || (host.getpwnam user).any fun uid => host.setgroups && host.setuid uid)

/--
Whether an address is left open or is one that `inet_aton` reads.
-/
def readsAddress (address : Bytes) : Bool :=
  address = bytes "0.0.0.0" || address.isEmpty || host.inetAton address

def enterChroot (path : Bytes) : Bool :=
  if path.isEmpty then
    true
  else if !host.isRoot then
    false
  else
    host.chroot path && host.chdir

end StartHost

/--
The process of a daemon with the members that a start acquires: the listening socket, `none` is -1, and the threads
that can be joined. The sockets that are open are those of the process, whether a member refers to them or not.
-/
structure DaemonProcess where
  daemon : RSyncDaemon
  privileges : PrivilegeConfig := {}
  bindAddress : Bytes := bytes "0.0.0.0"
  bindPort : UInt16 := 873
  listenSocket : Option Nat := none
  openSockets : List Nat := []
  acceptThread : Bool := false
  workerThreads : Nat := 0
  configMonitorThread : Bool := false
  shutdownRequested : Bool := false

namespace DaemonProcess

open Configuration

variable (machine : Machine) (host : StartHost) (p : DaemonProcess)

def closeListenSocket : DaemonProcess :=
  match p.listenSocket with
  | none => p
  | some fd => { p with listenSocket := none, openSockets := p.openSockets.erase fd }

def listenBacklog (network : NetworkConfig) : Int32 :=
  if 0 < network.backlog then network.backlog else 128

def initializeNetwork : Bool × DaemonProcess :=
  match p.daemon.config with
  | none => (false, p)
  | some c =>
    let p := { p with bindAddress := c.network.bindAddress, bindPort := c.network.bindPort }
    match host.socket with
    | none => (false, { p with listenSocket := none })
    | some fd =>
      let p := { p with listenSocket := some fd, openSockets := fd :: p.openSockets }
      if !host.setsockopt then
        (false, p.closeListenSocket)
      else if !(host.getFlags && host.setFlags) then
        (false, p.closeListenSocket)
      else if !host.readsAddress p.bindAddress then
        (false, p.closeListenSocket)
      else if !host.bind p.bindAddress p.bindPort then
        (false, p.closeListenSocket)
      else if !host.listen (listenBacklog c.network) then
        (false, p.closeListenSocket)
      else
        (true, p)

/--
Whether the process can enter the root directory of the configuration.
-/
def changesRoot : Bool :=
  if p.privileges.chrootEnabled && !p.privileges.chrootDirectory.isEmpty then
    host.enterChroot p.privileges.chrootDirectory
  else
    true

/--
Whether the process can become the user and the group of the configuration.
-/
def changesUser : Bool :=
  match p.daemon.config with
  | none => true
  | some c => if p.privileges.dropPrivileges then host.dropProcessPrivileges c.security.user c.security.group else true

/--
The last steps of a start: the rate limiter and the threads.
-/
def beginRunning : DaemonProcess :=
  {
    p with
    daemon := p.daemon.beginRunning
    acceptThread := true
    workerThreads := p.workerThreads + (p.daemon.config.map (·.network.workerThreads)).getD 4
    configMonitorThread := p.configMonitorThread || p.daemon.config.any (·.autoReload)
  }

/--
The rest of a start once the listening socket is set up.
-/
def changePrivileges : Except Errno Bool × DaemonProcess :=
  if !p.changesRoot host then
    (.ok false, p)
  else if !p.changesUser host then
    (.ok false, p)
  else
    (.ok true, p.beginRunning)

def start : Except Errno Bool × DaemonProcess :=
  if p.daemon.running then
    (.ok true, p)
  else
    match p.daemon.validateConfiguration machine with
    | (.error e, daemon) => (.error e, { p with daemon })
    | (.ok false, daemon) => (.ok false, { p with daemon })
    | (.ok true, daemon) =>
      match daemon.loadModules machine with
      | (false, daemon) => (.ok false, { p with daemon })
      | (true, daemon) =>
        match daemon.initializeSSL { initializesSSL := host.initializesSSL } with
        | (false, daemon) => (.ok false, { p with daemon })
        | (true, daemon) =>
          match { p with daemon }.initializeNetwork host with
          | (false, p) => (.ok false, p)
          | (true, p) => p.changePrivileges host

/--
`stop()`, which is also all that the destructor does.
-/
def stop : DaemonProcess :=
  if p.daemon.running then
    {
      p.closeListenSocket with
      daemon := { p.daemon with running := false }.unloadModules
      shutdownRequested := true
      acceptThread := false
      workerThreads := 0
      configMonitorThread := false
    }
  else
    p

/--
Whether the listening socket can be set up.
-/
def listens : Bool :=
  p.daemon.config.any fun c =>
    host.socket.isSome && host.setsockopt && (host.getFlags && host.setFlags)
      && host.readsAddress c.network.bindAddress && host.bind c.network.bindAddress c.network.bindPort
      && host.listen (listenBacklog c.network)

/--
The start as the steps of the daemon see it.
-/
def outcome : StartOutcome where
  initializesSSL := host.initializesSSL
  initializesNetwork := p.listens host
  dropsPrivileges := p.changesRoot host && p.changesUser host

variable {machine} {host} {p}

/--
The network step sets up the socket, or it leaves none behind.
-/
theorem initializeNetwork_eq (h : p.listenSocket = none)
    : p.initializeNetwork host
        =
      (p.listens host, {
        p with
        bindAddress := (p.daemon.config.map (·.network.bindAddress)).getD p.bindAddress
        bindPort := (p.daemon.config.map (·.network.bindPort)).getD p.bindPort
        listenSocket := if p.listens host then host.socket else none
        openSockets := if p.listens host then host.socket.toList ++ p.openSockets else p.openSockets
      }) := by
  unfold initializeNetwork listens
  cases hconfig : p.daemon.config with
  | none =>
    obtain ⟨⟩ := p
    simp_all
  | some c =>
    cases hsocket : host.socket with
    | none => simp
    | some fd =>
      -- one call after the other may fail
      cases host.setsockopt with
      | false => simp [closeListenSocket]
      | true =>
        cases host.getFlags && host.setFlags with
        | false => simp [closeListenSocket]
        | true =>
          cases haddress : host.readsAddress c.network.bindAddress with
          | false => simp [closeListenSocket, haddress]
          | true =>
            cases hbind : host.bind c.network.bindAddress c.network.bindPort with
            | false => simp [closeListenSocket, haddress, hbind]
            | true =>
              cases hlisten : host.listen (listenBacklog c.network) with
              | false => simp [closeListenSocket, haddress, hbind, hlisten]
              | true => simp [haddress, hbind, hlisten]

/--
The members of a daemon that does not run and holds nothing that a start acquires.
-/
structure Stopped (p : DaemonProcess) : Prop where
  running : p.daemon.running = false
  listenSocket : p.listenSocket = none
  acceptThread : p.acceptThread = false
  workerThreads : p.workerThreads = 0
  configMonitorThread : p.configMonitorThread = false

/--
The daemon is stopped and the process has the same sockets open, also once the daemon has been destroyed.
-/
structure LeavesNothing (p p' : DaemonProcess) : Prop where
  stopped : p'.Stopped
  openSockets : p'.openSockets = p.openSockets
  destroyed : p'.stop.openSockets = p.openSockets

/--
All steps of a start up to the listening socket succeed.
-/
def CanListen (machine : Machine) (host : StartHost) (p : DaemonProcess) : Prop :=
  p.daemon.CanStart machine { initializesSSL := host.initializesSSL, initializesNetwork := p.listens host }

/--
How a start of a stopped daemon ends: without a socket, running, or with a socket that nobody closes.
-/
inductive StartEnd (machine : Machine) (host : StartHost) (p : DaemonProcess) : Except Errno Bool × DaemonProcess → Prop where
  | early {r : Except Errno Bool} {p' : DaemonProcess}
      (hcannot : ¬p.CanListen machine host)
      (hfails : r ≠ .ok true)
      (hnothing : LeavesNothing p p')
    : StartEnd machine host p (r, p')
  | started {p' : DaemonProcess}
      (hcan : p.CanListen machine host)
      (hprivileges : (p.changesRoot host && p.changesUser host) = true)
    : StartEnd machine host p (.ok true, p')
  | late {p' : DaemonProcess}
      (hcan : p.CanListen machine host)
      (hprivileges : (p.changesRoot host && p.changesUser host) = false)
      (hrunning : p'.daemon.running = false)
      (hsocket : p'.listenSocket = host.socket)
      (hopen : p'.openSockets = host.socket.toList ++ p.openSockets)
    : StartEnd machine host p (.ok false, p')

theorem leavesNothing_of_stopped {p' : DaemonProcess} (h : p'.Stopped) (hopen : p'.openSockets = p.openSockets)
    : LeavesNothing p p' := by
  refine ⟨h, hopen, ?_⟩
  rw [stop, if_neg (by simp [h.running]), hopen]

theorem canListen_iff (machine : Machine) (host : StartHost) {c : Configuration} (hconfig : p.daemon.config = some c)
    : p.CanListen machine host
        ↔
      (c.validate machine.fs).1 = .ok true
        ∧ (RSyncDaemon.loadedModules machine (c.validate machine.fs).2).entries ≠ []
        ∧ (!c.ssl.enabled || host.initializesSSL c.ssl) = true
        ∧ p.listens host = true := by
  simp [CanListen, RSyncDaemon.CanStart, hconfig]

/--
The steps after the listening socket.
-/
theorem startEnd_of_listening {p' : DaemonProcess} (hcan : p.CanListen machine host) (hrunning : p'.daemon.running = false)
    (hroot : p'.changesRoot host = p.changesRoot host) (huser : p'.changesUser host = p.changesUser host)
    (hsocket : p'.listenSocket = host.socket) (hopen : p'.openSockets = host.socket.toList ++ p.openSockets)
    : StartEnd machine host p (p'.changePrivileges host)
        ∧ ((p'.changePrivileges host).1, (p'.changePrivileges host).2.daemon)
          = if p.changesRoot host && p.changesUser host then (.ok true, p'.daemon.beginRunning) else (.ok false, p'.daemon) := by
  rw [changePrivileges, hroot, huser]
  cases hentered : p.changesRoot host with
  | false => exact ⟨.late hcan (by simp [hentered]) hrunning hsocket hopen, rfl⟩
  | true =>
    cases hdropped : p.changesUser host with
    | false => exact ⟨.late hcan (by simp [hdropped]) hrunning hsocket hopen, rfl⟩
    | true => exact ⟨.started hcan (by simp [hentered, hdropped]), rfl⟩

/--
The network step and what follows it, on a daemon whose configuration says the same about the network and the
user.
-/
theorem startEnd_of_initialized (h : p.Stopped) {daemon : RSyncDaemon} {c c' : Configuration}
    (hconfig : p.daemon.config = some c) (hconfig' : daemon.config = some c') (hnetwork : c'.network = c.network)
    (hsecurity : c'.security = c.security) (hrunning : daemon.running = false)
    (hcan : p.CanListen machine host ↔ p.listens host = true) {result : Except Errno Bool × DaemonProcess}
    (hresult : (
      match ({ p with daemon } : DaemonProcess).initializeNetwork host with
      | (false, p) => (.ok false, p)
      | (true, p) => p.changePrivileges host
    ) = result)
    : StartEnd machine host p result
        ∧ (result.1, result.2.daemon)
          =
        if p.listens host && (p.changesRoot host && p.changesUser host) then
          (.ok true, daemon.beginRunning)
        else
          (.ok false, daemon) := by
  have hlistens : ({ p with daemon } : DaemonProcess).listens host = p.listens host := by
    simp only [listens, hconfig, hconfig', Option.any_some, hnetwork]
  have hnetworkStep : initializeNetwork host { p with daemon } = _ := initializeNetwork_eq h.listenSocket
  rw [hnetworkStep, hlistens] at hresult
  cases hsocket : p.listens host with
  | false =>
    rw [hsocket] at hresult
    subst hresult
    exact ⟨.early (by simp [hcan, hsocket]) (by simp)
      (leavesNothing_of_stopped ⟨hrunning, rfl, h.acceptThread, h.workerThreads, h.configMonitorThread⟩ rfl), rfl⟩
  | true =>
    rw [hsocket] at hresult
    subst hresult
    have huser : ({ p with daemon } : DaemonProcess).changesUser host = p.changesUser host := by
      simp only [changesUser, hconfig, hconfig', hsecurity]
    exact startEnd_of_listening (hcan.mpr hsocket) hrunning rfl huser rfl rfl

/--
Every start of a stopped daemon ends in one of these ways, and the daemon itself starts as it does where the
system calls are a single outcome.
-/
theorem start_of_stopped (h : p.Stopped)
    : StartEnd machine host p (p.start machine host)
        ∧ ((p.start machine host).1, (p.start machine host).2.daemon) = p.daemon.start machine (p.outcome host) := by
  have hearly : ∀ {r : Except Errno Bool} {daemon : RSyncDaemon}, ¬p.CanListen machine host → r ≠ .ok true →
      daemon.running = false → StartEnd machine host p (r, { p with daemon }) := fun hcannot hfails hrunning =>
    .early hcannot hfails
      (leavesNothing_of_stopped ⟨hrunning, h.listenSocket, h.acceptThread, h.workerThreads, h.configMonitorThread⟩ rfl)
  have hrunning := h.running
  unfold start RSyncDaemon.start
  simp only [hrunning, Bool.false_eq_true, if_false]
  rcases hdaemon : p.daemon with ⟨config, modules, authManager, sslContext, rateLimiter, running⟩
  rw [hdaemon] at hrunning
  cases config with
  | none =>
    refine ⟨hearly ?_ (by simp) hrunning, rfl⟩
    rintro ⟨c, hc, -⟩
    simp [hdaemon] at hc
  | some c =>
    have hcan := canListen_iff (p := p) (c := c) machine host (by rw [hdaemon])
    simp only [RSyncDaemon.validateConfiguration_mk]
    -- up to the socket a start fails before anything is acquired
    rcases hvalid : (c.validate machine.fs).1 with e | _ | _
    . exact ⟨hearly (by simp [hcan, hvalid]) (by simp) hrunning, rfl⟩
    . exact ⟨hearly (by simp [hcan, hvalid]) (by simp) hrunning, rfl⟩
    . simp only [RSyncDaemon.loadModules_mk]
      cases hmodules : (RSyncDaemon.loadedModules machine (c.validate machine.fs).2).entries.isEmpty with
      | true => exact ⟨hearly (by simp [hcan, List.isEmpty_iff.mp hmodules]) (by simp) hrunning, rfl⟩
      | false =>
        have hentries : (RSyncDaemon.loadedModules machine (c.validate machine.fs).2).entries ≠ [] := by
          simpa [List.isEmpty_iff] using hmodules
        have hssl : (c.validate machine.fs).2.ssl = c.ssl := rfl
        have houtcome : (p.outcome host).initializesSSL = host.initializesSSL := rfl
        simp only [Bool.not_false, RSyncDaemon.initializeSSL_mk, hssl, houtcome]
        cases hinitialized : !c.ssl.enabled || host.initializesSSL c.ssl with
        | false => exact ⟨hearly (by simp [hcan, hinitialized]) (by simp) hrunning, rfl⟩
        | true =>
          have hready : p.CanListen machine host ↔ p.listens host = true := by
            rw [hcan]
            exact ⟨fun hall => hall.2.2.2, fun hlistens => ⟨hvalid, hentries, hinitialized, hlistens⟩⟩
          generalize hmade : RSyncDaemon.mk (some (c.validate machine.fs).2) _ _ _ _ _ = daemon
          have hconfig : daemon.config = some (c.validate machine.fs).2 := by rw [← hmade]
          have hstill : daemon.running = false := by
            rw [← hmade]
            exact hrunning
          have hconfig' : p.daemon.config = some c := by rw [hdaemon]
          exact startEnd_of_initialized h hconfig' hconfig rfl rfl hstill hready rfl

theorem exists_socket_of_canListen (h : p.CanListen machine host) : ∃ fd, host.socket = some fd := by
  obtain ⟨c, hc, -, -, -, hnetwork⟩ := h
  rw [Bool.and_true, listens, hc, Option.any_some] at hnetwork
  simp only [Bool.and_eq_true] at hnetwork
  exact Option.isSome_iff_exists.mp hnetwork.1.1.1.1.1

/--
A start that returns false leaves nothing behind if and only if the process can change its root directory and
its user wherever the listening socket has been set up before.
-/
theorem failed_start_leaves_nothing_iff (h : p.Stopped)
    : ((p.start machine host).1 = .ok false → LeavesNothing p (p.start machine host).2)
        ↔
      (p.CanListen machine host → p.changesRoot host = true ∧ p.changesUser host = true) := by
  have hend : StartEnd machine host p (p.start machine host) := (start_of_stopped h).1
  generalize p.start machine host = result at hend
  cases hend with
  | early hcannot _ hnothing => exact iff_of_true (fun _ => hnothing) (fun hcan => absurd hcan hcannot)
  | started _ hprivileges =>
    rw [Bool.and_eq_true] at hprivileges
    exact iff_of_true (by simp) (fun _ => hprivileges)
  | late hcan hprivileges _ hsocket _ =>
    obtain ⟨fd, hfd⟩ := exists_socket_of_canListen hcan
    refine iff_of_false ?_ ?_
    . intro hleaves
      have := (hleaves rfl).stopped.listenSocket
      rw [hsocket, hfd] at this
      contradiction
    . intro hchanges
      rw [(hchanges hcan).1, (hchanges hcan).2] at hprivileges
      contradiction

/--
The socket of such a start is still open when the daemon is gone.
-/
theorem openSockets_stop_of_late (h : p.Stopped) (hcan : p.CanListen machine host)
    (hprivileges : (p.changesRoot host && p.changesUser host) = false)
    : (p.start machine host).2.stop.openSockets = host.socket.toList ++ p.openSockets := by
  have hend : StartEnd machine host p (p.start machine host) := (start_of_stopped h).1
  generalize p.start machine host = result at hend
  cases hend with
  | early hcannot => exact absurd hcan hcannot
  | started _ hchanges =>
    rw [hprivileges] at hchanges
    contradiction
  | late _ _ hrunning _ hopen => rw [stop, if_neg (by simp [hrunning]), hopen]

/--
A configuration with a module and a user to become.
-/
def userProcess : DaemonProcess where
  daemon := .new (machineWith "") (some {
    security := { user := bytes "rsync" }
    modules := .insert .empty (bytes "a") { name := bytes "a", path := bytes "/m" }
  })

theorem stopped_userProcess : userProcess.Stopped :=
  ⟨rfl, rfl, rfl, rfl, rfl⟩

theorem failed_start_leaves_nothing_userProcess
    : let failed := userProcess.start (machineWith "") { bind := fun _ _ => false, getpwnam := fun _ => some 1000 }
      failed.1 = .ok false ∧ LeavesNothing userProcess failed.2 := by
  have hfails : (userProcess.start (machineWith "")
      { bind := fun _ _ => false, getpwnam := fun _ => some 1000 }).1 = .ok false := by decide +kernel
  exact ⟨hfails, (failed_start_leaves_nothing_iff stopped_userProcess).mpr
    (fun _ => ⟨by decide +kernel, by decide +kernel⟩) hfails⟩

/--
Where the system knows no such user, the daemon does not run and the socket stays open.
-/
theorem failed_start_leaves_socket
    : ¬∀ (machine : Machine) (host : StartHost) (p : DaemonProcess), p.Stopped →
        (p.start machine host).1 = .ok false → LeavesNothing p (p.start machine host).2 := by
  intro hleaves
  have hfails : (userProcess.start (machineWith "") {}).1 = .ok false := by decide +kernel
  have hsocket : (userProcess.start (machineWith "") {}).2.listenSocket = some 3 := by decide +kernel
  have := (hleaves _ _ _ stopped_userProcess hfails).stopped.listenSocket
  rw [hsocket] at this
  contradiction

end DaemonProcess
end SimpleRsyncd
