import CsmsPlatform.Framework.Decimal
import CsmsPlatform.Framework.Duration
import CsmsPlatform.Framework.Net
import CsmsPlatform.Framework.Program
import CsmsPlatform.Framework.Text

/-!
# Configuration of the runtime

`loadConfig` reads each setting from its environment variable, in the order of the source, and keeps
the default of a variable that is not set. The first setting out of order ends the reading.
-/

namespace CsmsPlatform.Runtime

open Text

inductive LogLevel where
  | debug
  | info
  | warn
  | error
deriving DecidableEq, Repr

inductive ProtocolVersion where
  | ocpp16
  | ocpp201
  | ocpp21
deriving DecidableEq, Repr

structure Config where
  httpAddr : String := ":8080"
  heartbeatInterval : Int := 300
  shutdownTimeout : Int64 := 30000000000
  versions : List ProtocolVersion := [.ocpp16,.ocpp201,.ocpp21]
  logLevel : LogLevel := .info
  mysqlDSN : String := ""
  mysqlMaxOpenConns : Int := 25
  handshakeRateLimit : Int := 30
  redisURL : String := ""
  apiKeys : List String := []
  commandRateLimit : Int := 60
  instanceID : String := ""
  sessionLeaseTTL : Int64 := 30000000000
  sessionRenew : Int64 := 10000000000
  tlsCertFile : String := "/etc/csms/tls/server/tls.crt"
  tlsKeyFile : String := "/etc/csms/tls/server/tls.key"
  tlsClientCAFile : String := "/etc/csms/tls/ca/ca.crt"
  trustedProxyCIDRs : List String := []
deriving DecidableEq, Repr

inductive ConfigError where
  | invalid (name requirement : String)
  | invalidCIDR (cidr : String)
deriving DecidableEq, Repr

/-- A network that cannot be read is quoted as it is. -/
def ConfigError.message : ConfigError → String
  | .invalid name requirement => name ++ " " ++ requirement
  | .invalidCIDR cidr => "CSMS_TRUSTED_PROXY_CIDRS contains invalid CIDR \"" ++ cidr ++
      "\": invalid CIDR address: " ++ cidr

abbrev Environment := String → Option String

def splitNonEmpty (value : String) : List String :=
  (split value ',').filterMap fun candidate =>
    if trimSpace candidate ≠ "" then some (trimSpace candidate) else none

def positiveInteger (lookup : Environment) (name : String) (byDefault : Int) : Except ConfigError Int :=
  match lookup name with
  | none => .ok byDefault
  | some value =>
    match Decimal.parseInt value with
    | none => .error (.invalid name "must be a positive integer")
    | some n => if n ≤ 0 then .error (.invalid name "must be a positive integer") else .ok n

def positiveDuration (lookup : Environment) (name : String) (byDefault : Int64) :
    Except ConfigError Int64 :=
  match lookup name with
  | none => .ok byDefault
  | some value =>
    match Duration.parseDuration value with
    | none => .error (.invalid name "must be a positive duration")
    | some duration =>
      if duration.toInt ≤ 0 then .error (.invalid name "must be a positive duration") else .ok duration

def trimmedText (lookup : Environment) (name byDefault : String) : String :=
  match lookup name with
  | none => byDefault
  | some value => trimSpace value

def loadHTTPAddr (lookup : Environment) (byDefault : String) : Except ConfigError String :=
  match lookup "CSMS_HTTP_ADDR" with
  | none => .ok byDefault
  | some value =>
    if trimSpace value = "" then .error (.invalid "CSMS_HTTP_ADDR" "must not be empty") else .ok value

/-- Lower case, as far as it yields an ASCII letter: besides `A` to `Z`, the dotted capital `I` and the
Kelvin sign. -/
def lowerASCII (c : Char) : Char :=
  if c.toNat = 0x130 then 'i' else if c.toNat = 0x212A then 'k' else c.toLower

def loadLogLevel (lookup : Environment) (byDefault : LogLevel) : Except ConfigError LogLevel :=
  match lookup "CSMS_LOG_LEVEL" with
  | none => .ok byDefault
  | some value =>
    match String.ofList ((trimSpace value).toList.map lowerASCII) with
    | "debug" => .ok .debug
    | "info" => .ok .info
    | "warn" => .ok .warn
    | "error" => .ok .error
    | _ => .error (.invalid "CSMS_LOG_LEVEL" "must be one of debug, info, warn, error")

/-- The one variable with several keys comes before the one with a single key. -/
def loadAPIKeys (lookup : Environment) : List String :=
  match lookup "CSMS_API_KEYS" with
  | some value => splitNonEmpty value
  | none =>
    match lookup "CSMS_API_KEY" with
    | some value => if trimSpace value ≠ "" then [trimSpace value] else []
    | none => []

def loadTrustedProxyCIDRs (lookup : Environment) : Except ConfigError (List String) :=
  match lookup "CSMS_TRUSTED_PROXY_CIDRS" with
  | none => .ok []
  | some value =>
    match (splitNonEmpty value).find? fun cidr => (Net.parseCIDR cidr).isNone with
    | some cidr => .error (.invalidCIDR cidr)
    | none => .ok (splitNonEmpty value)

def loadConfig (lookup : Environment) : Except ConfigError Config := do
  let config : Config := {}
  let httpAddr ← loadHTTPAddr lookup config.httpAddr
  let heartbeatInterval ← positiveInteger lookup "CSMS_HEARTBEAT_INTERVAL" config.heartbeatInterval
  let shutdownTimeout ← positiveDuration lookup "CSMS_SHUTDOWN_TIMEOUT" config.shutdownTimeout
  let logLevel ← loadLogLevel lookup config.logLevel
  let mysqlDSN := trimmedText lookup "CSMS_MYSQL_DSN" config.mysqlDSN
  let mysqlMaxOpenConns ← positiveInteger lookup "CSMS_MYSQL_MAX_OPEN_CONNS" config.mysqlMaxOpenConns
  let handshakeRateLimit ← positiveInteger lookup "CSMS_HANDSHAKE_RATE_LIMIT" config.handshakeRateLimit
  let redisURL := trimmedText lookup "CSMS_REDIS_URL" config.redisURL
  let apiKeys := loadAPIKeys lookup
  let commandRateLimit ← positiveInteger lookup "CSMS_COMMAND_RATE_LIMIT" config.commandRateLimit
  let instanceID := trimmedText lookup "CSMS_INSTANCE_ID" config.instanceID
  let sessionLeaseTTL ← positiveDuration lookup "CSMS_SESSION_LEASE_TTL" config.sessionLeaseTTL
  let sessionRenew ← positiveDuration lookup "CSMS_SESSION_RENEW_INTERVAL" config.sessionRenew
  if sessionLeaseTTL.toInt ≤ sessionRenew.toInt then
    throw (.invalid "CSMS_SESSION_RENEW_INTERVAL" "must be shorter than CSMS_SESSION_LEASE_TTL")
  let tlsCertFile := trimmedText lookup "CSMS_TLS_CERT_FILE" config.tlsCertFile
  let tlsKeyFile := trimmedText lookup "CSMS_TLS_KEY_FILE" config.tlsKeyFile
  let tlsClientCAFile := trimmedText lookup "CSMS_TLS_CLIENT_CA_FILE" config.tlsClientCAFile
  let trustedProxyCIDRs ← loadTrustedProxyCIDRs lookup
  return { config with
    httpAddr,heartbeatInterval,shutdownTimeout,logLevel,mysqlDSN,mysqlMaxOpenConns,handshakeRateLimit,
    redisURL,apiKeys,commandRateLimit,instanceID,sessionLeaseTTL,sessionRenew,tlsCertFile,tlsKeyFile,
    tlsClientCAFile,trustedProxyCIDRs }

section Loaded

variable {lookup : Environment} {config : Config}

theorem positiveDuration_pos {name : String} {byDefault duration : Int64}
    (h : positiveDuration lookup name byDefault = .ok duration) (hdefault : 0 < byDefault.toInt) :
    0 < duration.toInt := by
  unfold positiveDuration at h
  split at h
  · cases h
    exact hdefault
  · split at h
    · cases h
    · split at h
      · cases h
      · next hpos =>
        cases h
        exact not_le.mp hpos

structure Loaded (lookup : Environment) (config : Config) : Prop where
  apiKeys : config.apiKeys = loadAPIKeys lookup
  sessionLeaseTTL : positiveDuration lookup "CSMS_SESSION_LEASE_TTL" 30000000000 =
    .ok config.sessionLeaseTTL
  sessionRenew : positiveDuration lookup "CSMS_SESSION_RENEW_INTERVAL" 10000000000 =
    .ok config.sessionRenew
  renewsInTime : config.sessionRenew.toInt < config.sessionLeaseTTL.toInt

theorem loaded_of_loadConfig (h : loadConfig lookup = .ok config) : Loaded lookup config := by
  unfold loadConfig at h
  obtain ⟨httpAddr,_,h⟩ := Program.except_bind_eq_ok.mp h
  obtain ⟨heartbeatInterval,_,h⟩ := Program.except_bind_eq_ok.mp h
  obtain ⟨shutdownTimeout,_,h⟩ := Program.except_bind_eq_ok.mp h
  obtain ⟨logLevel,_,h⟩ := Program.except_bind_eq_ok.mp h
  obtain ⟨mysqlMaxOpenConns,_,h⟩ := Program.except_bind_eq_ok.mp h
  obtain ⟨handshakeRateLimit,_,h⟩ := Program.except_bind_eq_ok.mp h
  obtain ⟨commandRateLimit,_,h⟩ := Program.except_bind_eq_ok.mp h
  obtain ⟨sessionLeaseTTL,httl,h⟩ := Program.except_bind_eq_ok.mp h
  obtain ⟨sessionRenew,hrenew,h⟩ := Program.except_bind_eq_ok.mp h
  split at h
  · cases h
  · next hless =>
    obtain ⟨trustedProxyCIDRs,_,h⟩ := Program.except_bind_eq_ok.mp h
    cases h
    exact ⟨rfl,httl,hrenew,not_le.mp hless⟩

end Loaded

end CsmsPlatform.Runtime
