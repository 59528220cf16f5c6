import SimpleRsyncd.Log.Logger

/-!
This module contains `RSyncError`, the errors of the daemon and the records that are made of them.
-/

namespace SimpleRsyncd

inductive ErrorCategory where
  | configuration
  | authentication
  | authorization
  | network
  | fileSystem
  | protocol
  | module
  | internal
  | external
  deriving DecidableEq

inductive ErrorCode where
  | configFileNotFound
  | configInvalidFormat
  | configValidationFailed
  | configReloadFailed
  | authFailed
  | authUserNotFound
  | authPasswordInvalid
  | authAccountLocked
  | authPasswordExpired
  | authSessionExpired
  | authzAccessDenied
  | authzInsufficientPermissions
  | authzIpDenied
  | networkConnectionFailed
  | networkBindFailed
  | networkListenFailed
  | networkAcceptFailed
  | networkTimeout
  | fsFileNotFound
  | fsPermissionDenied
  | fsDiskFull
  | fsPathTraversal
  | fsInvalidPath
  | protocolInvalidMessage
  | protocolUnsupportedVersion
  | protocolParseError
  | moduleNotFound
  | moduleInvalidConfig
  | moduleOperationFailed
  | internalError
  | internalMemoryError
  | internalThreadError
  | externalDependencyError
  | externalSslError
  deriving DecidableEq

namespace ErrorCode

def toNat : ErrorCode → Nat
  | .configFileNotFound => 1001
  | .configInvalidFormat => 1002
  | .configValidationFailed => 1003
  | .configReloadFailed => 1004
  | .authFailed => 2001
  | .authUserNotFound => 2002
  | .authPasswordInvalid => 2003
  | .authAccountLocked => 2004
  | .authPasswordExpired => 2005
  | .authSessionExpired => 2006
  | .authzAccessDenied => 3001
  | .authzInsufficientPermissions => 3002
  | .authzIpDenied => 3003
  | .networkConnectionFailed => 4001
  | .networkBindFailed => 4002
  | .networkListenFailed => 4003
  | .networkAcceptFailed => 4004
  | .networkTimeout => 4005
  | .fsFileNotFound => 5001
  | .fsPermissionDenied => 5002
  | .fsDiskFull => 5003
  | .fsPathTraversal => 5004
  | .fsInvalidPath => 5005
  | .protocolInvalidMessage => 6001
  | .protocolUnsupportedVersion => 6002
  | .protocolParseError => 6003
  | .moduleNotFound => 7001
  | .moduleInvalidConfig => 7002
  | .moduleOperationFailed => 7003
  | .internalError => 8001
  | .internalMemoryError => 8002
  | .internalThreadError => 8003
  | .externalDependencyError => 9001
  | .externalSslError => 9002

def getErrorCodeString : ErrorCode → Bytes
  | .configFileNotFound => bytes "CONFIG_FILE_NOT_FOUND"
  | .configInvalidFormat => bytes "CONFIG_INVALID_FORMAT"
  | .configValidationFailed => bytes "CONFIG_VALIDATION_FAILED"
  | .configReloadFailed => bytes "CONFIG_RELOAD_FAILED"
  | .authFailed => bytes "AUTH_FAILED"
  | .authUserNotFound => bytes "AUTH_USER_NOT_FOUND"
  | .authPasswordInvalid => bytes "AUTH_PASSWORD_INVALID"
  | .authAccountLocked => bytes "AUTH_ACCOUNT_LOCKED"
  | .authPasswordExpired => bytes "AUTH_PASSWORD_EXPIRED"
  | .authSessionExpired => bytes "AUTH_SESSION_EXPIRED"
  | .authzAccessDenied => bytes "AUTHZ_ACCESS_DENIED"
  | .authzInsufficientPermissions => bytes "AUTHZ_INSUFFICIENT_PERMISSIONS"
  | .authzIpDenied => bytes "AUTHZ_IP_DENIED"
  | .networkConnectionFailed => bytes "NETWORK_CONNECTION_FAILED"
  | .networkBindFailed => bytes "NETWORK_BIND_FAILED"
  | .networkListenFailed => bytes "NETWORK_LISTEN_FAILED"
  | .networkAcceptFailed => bytes "NETWORK_ACCEPT_FAILED"
  | .networkTimeout => bytes "NETWORK_TIMEOUT"
  | .fsFileNotFound => bytes "FS_FILE_NOT_FOUND"
  | .fsPermissionDenied => bytes "FS_PERMISSION_DENIED"
  | .fsDiskFull => bytes "FS_DISK_FULL"
  | .fsPathTraversal => bytes "FS_PATH_TRAVERSAL"
  | .fsInvalidPath => bytes "FS_INVALID_PATH"
  | .protocolInvalidMessage => bytes "PROTOCOL_INVALID_MESSAGE"
  | .protocolUnsupportedVersion => bytes "PROTOCOL_UNSUPPORTED_VERSION"
  | .protocolParseError => bytes "PROTOCOL_PARSE_ERROR"
  | .moduleNotFound => bytes "MODULE_NOT_FOUND"
  | .moduleInvalidConfig => bytes "MODULE_INVALID_CONFIG"
  | .moduleOperationFailed => bytes "MODULE_OPERATION_FAILED"
  | .internalError => bytes "INTERNAL_ERROR"
  | .internalMemoryError => bytes "INTERNAL_MEMORY_ERROR"
  | .internalThreadError => bytes "INTERNAL_THREAD_ERROR"
  | .externalDependencyError => bytes "EXTERNAL_DEPENDENCY_ERROR"
  | .externalSslError => bytes "EXTERNAL_SSL_ERROR"

end ErrorCode

namespace ErrorCategory

def getCategoryString : ErrorCategory → Bytes
  | .configuration => bytes "CONFIGURATION"
  | .authentication => bytes "AUTHENTICATION"
  | .authorization => bytes "AUTHORIZATION"
  | .network => bytes "NETWORK"
  | .fileSystem => bytes "FILE_SYSTEM"
  | .protocol => bytes "PROTOCOL"
  | .module => bytes "MODULE"
  | .internal => bytes "INTERNAL"
  | .external => bytes "EXTERNAL"

end ErrorCategory

/--
An error, its time is the text that `std::put_time` makes of it.
-/
structure RSyncError where
  code : ErrorCode
  category : ErrorCategory := .internal
  message : Bytes
  context : Bytes := []
  fields : OrderedMap Bytes Bytes := .empty
  timestamp : Bytes

namespace RSyncError

open LogEntry (quote)

def toJSON (error : RSyncError) : Bytes :=
  bytes "\x7b"
    ++ bytes "\"timestamp\":" ++ quote error.timestamp ++ bytes ","
    ++ bytes "\"code\":" ++ Bytes.ofNat error.code.toNat ++ bytes ","
    ++ bytes "\"code_string\":" ++ quote error.code.getErrorCodeString ++ bytes ","
    ++ bytes "\"category\":" ++ quote error.category.getCategoryString ++ bytes ","
    ++ bytes "\"message\":" ++ quote error.message
    ++ (if error.context.isEmpty then [] else bytes ",\"context\":" ++ quote error.context)
    ++ (
      if error.fields.entries.isEmpty then
        []
      else
        let field (e : Bytes × Bytes) : Bytes := quote e.1 ++ bytes ":" ++ quote e.2
        bytes ",\"fields\":\x7b" ++ (bytes ",").intercalate (error.fields.entries.map field) ++ bytes "\x7d"
    )
    ++ bytes "\x7d"

end RSyncError
end SimpleRsyncd
