import SimpleRsyncd.Auth.PasswordHasher
import SimpleRsyncd.Module.Basic

/-!
This module contains the settings of a `Configuration` with their defaults. Settings that no modelled
function uses are left out.
-/

namespace SimpleRsyncd

@[ext]
structure SSLConfig where
  enabled : Bool := false
  certificateFile : Bytes := []
  privateKeyFile : Bytes := []
  caFile : Bytes := []
  cipherSuite : Bytes := bytes "ECDHE-RSA-AES256-GCM-SHA384"
  tlsVersion : Bytes := bytes "1.2"
  deriving DecidableEq

@[ext]
structure AuthConfig where
  enabled : Bool := false
  method : Bytes := bytes "password"
  realm : Bytes := bytes "simple-rsyncd"
  passwordFile : Bytes := []
  publicKeyFile : Bytes := []
  anonymousAccess : Bool := false
  allowedUsers : List Bytes := []
  deniedUsers : List Bytes := []
  rejectPlaintextPasswords : Bool := false
  passwordPolicy : PasswordPolicy := {}
  sessionTimeout : Nat := 3600
  deriving DecidableEq

structure RateLimitConfig where
  enabled : Bool := true
  maxConnectionsPerMinute : Nat := 60
  maxConnectionsPerHour : Nat := 1000
  deriving DecidableEq

@[ext]
structure LogConfig where
  level : Bytes := bytes "info"
  file : Bytes := []
  format : Bytes := bytes "{timestamp} [{level}] {message}"
  fileOutput : Bool := false
  maxFileSize : Nat := 10485760
  maxFiles : Nat := 5
  compressOldLogs : Bool := true
  deriving DecidableEq

@[ext]
structure NetworkConfig where
  bindAddress : Bytes := bytes "0.0.0.0"
  bindPort : UInt16 := 873
  maxConnections : Nat := 100
  backlog : Int32 := 128
  workerThreads : Nat := 4
  deriving DecidableEq

@[ext]
structure SecurityConfig where
  user : Bytes := []
  group : Bytes := []
  allowSymlinks : Bool := false
  allowHardlinks : Bool := false
  deriving DecidableEq

/--
A new `Configuration` has the settings of `setDefaults`.
-/
structure Configuration where
  ssl : SSLConfig := {}
  auth : AuthConfig := {}
  rateLimit : RateLimitConfig := {}
  log : LogConfig := {}
  network : NetworkConfig := {}
  security : SecurityConfig := {}
  modules : OrderedMap Bytes ModuleConfig := .empty
  pidFile : Bytes := []
  user : Bytes := []
  group : Bytes := []
  configFilePath : Bytes := []
  lastModified : Time := 0
  autoReload : Bool := false
  reloadInterval : Nat := 30
  errors : List Bytes := []
  isValid : Bool := false
  hasChanged : Bool := false
  deriving DecidableEq

/--
The settings with a single value. The last five belong to no section.
-/
inductive Setting where
  | bindAddress
  | bindPort
  | maxConnections
  | backlog
  | workerThreads
  | sslEnabled
  | certificateFile
  | privateKeyFile
  | caFile
  | cipherSuite
  | tlsVersion
  | authEnabled
  | method
  | realm
  | passwordFile
  | publicKeyFile
  | anonymousAccess
  | rejectPlaintextPasswords
  | minLength
  | requireUppercase
  | requireLowercase
  | requireDigits
  | requireSpecial
  | expirationHours
  | sessionTimeout
  | logLevel
  | logFile
  | logFormat
  | fileOutput
  | maxFileSize
  | maxFiles
  | compressOldLogs
  | securityUser
  | securityGroup
  | securitySymlinks
  | securityHardlinks
  | pidFile
  | user
  | group
  | autoReload
  | reloadInterval
  deriving DecidableEq

namespace Setting

/--
Whether a setting belongs to no section.
-/
def isGlobal : Setting → Bool
  | .pidFile | .user | .group | .autoReload | .reloadInterval => true
  | _ => false

def Value : Setting → Type
  | .bindAddress | .certificateFile | .privateKeyFile | .caFile | .cipherSuite | .tlsVersion => Bytes
  | .method | .realm | .passwordFile | .publicKeyFile | .logLevel | .logFile | .logFormat => Bytes
  | .securityUser | .securityGroup | .pidFile | .user | .group => Bytes
  | .bindPort => UInt16
  | .backlog => Int32
  | .maxConnections | .workerThreads | .minLength | .sessionTimeout => Nat
  | .maxFileSize | .maxFiles | .reloadInterval => Nat
  | .expirationHours => Int
  | .sslEnabled | .authEnabled | .anonymousAccess | .rejectPlaintextPasswords => Bool
  | .requireUppercase | .requireLowercase | .requireDigits | .requireSpecial => Bool
  | .fileOutput | .compressOldLogs | .securitySymlinks | .securityHardlinks | .autoReload => Bool

def get (c : Configuration) : (s : Setting) → s.Value
  | .bindAddress => c.network.bindAddress
  | .bindPort => c.network.bindPort
  | .maxConnections => c.network.maxConnections
  | .backlog => c.network.backlog
  | .workerThreads => c.network.workerThreads
  | .sslEnabled => c.ssl.enabled
  | .certificateFile => c.ssl.certificateFile
  | .privateKeyFile => c.ssl.privateKeyFile
  | .caFile => c.ssl.caFile
  | .cipherSuite => c.ssl.cipherSuite
  | .tlsVersion => c.ssl.tlsVersion
  | .authEnabled => c.auth.enabled
  | .method => c.auth.method
  | .realm => c.auth.realm
  | .passwordFile => c.auth.passwordFile
  | .publicKeyFile => c.auth.publicKeyFile
  | .anonymousAccess => c.auth.anonymousAccess
  | .rejectPlaintextPasswords => c.auth.rejectPlaintextPasswords
  | .minLength => c.auth.passwordPolicy.minLength
  | .requireUppercase => c.auth.passwordPolicy.requireUppercase
  | .requireLowercase => c.auth.passwordPolicy.requireLowercase
  | .requireDigits => c.auth.passwordPolicy.requireDigits
  | .requireSpecial => c.auth.passwordPolicy.requireSpecial
  | .expirationHours => c.auth.passwordPolicy.expirationHours
  | .sessionTimeout => c.auth.sessionTimeout
  | .logLevel => c.log.level
  | .logFile => c.log.file
  | .logFormat => c.log.format
  | .fileOutput => c.log.fileOutput
  | .maxFileSize => c.log.maxFileSize
  | .maxFiles => c.log.maxFiles
  | .compressOldLogs => c.log.compressOldLogs
  | .securityUser => c.security.user
  | .securityGroup => c.security.group
  | .securitySymlinks => c.security.allowSymlinks
  | .securityHardlinks => c.security.allowHardlinks
  | .pidFile => c.pidFile
  | .user => c.user
  | .group => c.group
  | .autoReload => c.autoReload
  | .reloadInterval => c.reloadInterval

def set (c : Configuration) : (s : Setting) → s.Value → Configuration
  | .bindAddress, v => { c with network.bindAddress := v }
  | .bindPort, v => { c with network.bindPort := v }
  | .maxConnections, v => { c with network.maxConnections := v }
  | .backlog, v => { c with network.backlog := v }
  | .workerThreads, v => { c with network.workerThreads := v }
  | .sslEnabled, v => { c with ssl.enabled := v }
  | .certificateFile, v => { c with ssl.certificateFile := v }
  | .privateKeyFile, v => { c with ssl.privateKeyFile := v }
  | .caFile, v => { c with ssl.caFile := v }
  | .cipherSuite, v => { c with ssl.cipherSuite := v }
  | .tlsVersion, v => { c with ssl.tlsVersion := v }
  | .authEnabled, v => { c with auth.enabled := v }
  | .method, v => { c with auth.method := v }
  | .realm, v => { c with auth.realm := v }
  | .passwordFile, v => { c with auth.passwordFile := v }
  | .publicKeyFile, v => { c with auth.publicKeyFile := v }
  | .anonymousAccess, v => { c with auth.anonymousAccess := v }
  | .rejectPlaintextPasswords, v => { c with auth.rejectPlaintextPasswords := v }
  | .minLength, v => { c with auth.passwordPolicy.minLength := v }
  | .requireUppercase, v => { c with auth.passwordPolicy.requireUppercase := v }
  | .requireLowercase, v => { c with auth.passwordPolicy.requireLowercase := v }
  | .requireDigits, v => { c with auth.passwordPolicy.requireDigits := v }
  | .requireSpecial, v => { c with auth.passwordPolicy.requireSpecial := v }
  | .expirationHours, v => { c with auth.passwordPolicy.expirationHours := v }
  | .sessionTimeout, v => { c with auth.sessionTimeout := v }
  | .logLevel, v => { c with log.level := v }
  | .logFile, v => { c with log.file := v }
  | .logFormat, v => { c with log.format := v }
  | .fileOutput, v => { c with log.fileOutput := v }
  | .maxFileSize, v => { c with log.maxFileSize := v }
  | .maxFiles, v => { c with log.maxFiles := v }
  | .compressOldLogs, v => { c with log.compressOldLogs := v }
  | .securityUser, v => { c with security.user := v }
  | .securityGroup, v => { c with security.group := v }
  | .securitySymlinks, v => { c with security.allowSymlinks := v }
  | .securityHardlinks, v => { c with security.allowHardlinks := v }
  | .pidFile, v => { c with pidFile := v }
  | .user, v => { c with user := v }
  | .group, v => { c with group := v }
  | .autoReload, v => { c with autoReload := v }
  | .reloadInterval, v => { c with reloadInterval := v }

variable (c : Configuration) (s : Setting)

@[simp]
theorem get_set_self (v : s.Value) : s.get (s.set c v) = v := by
  cases s <;> rfl

theorem get_set_of_ne {s s' : Setting} (h : s ≠ s') (v : s'.Value) : s.get (s'.set c v) = s.get c := by
  cases s' <;> cases s <;> first | rfl | exact absurd rfl h

end Setting

end SimpleRsyncd
