import SocksServer.Config.ServerConfig
import SocksServer.Policy.FromStr

/-!
# `ServerConfig::from_settings`

`config/settings_model.rs`, `config/config_error.rs` and the validation of
`config/server_config.rs`. The settings are what `serde_yaml` has read: the types of the values
and the names of the keys are right, the values may be anything.
-/

namespace SocksServer

open Infra Text

/-! ## Settings -/

/-- One entry of `users`: a username and a password as they stand in the file. -/
structure UserSettingsModel where
  username : String
  password : String

/-- Contents of `~/.mysocksserver`. Every key except `users` is optional. -/
structure SettingsModel where
  listenAddress : Option String := none
  users : List UserSettingsModel
  maxConnections : Option UInt32 := none
  handshakeTimeoutSec : Option UInt64 := none
  connectTimeoutSec : Option UInt64 := none
  idleTimeoutSec : Option UInt64 := none
  shutdownGraceSec : Option UInt64 := none
  statsIntervalSec : Option UInt64 := none
  clientWhitelist : Option (List String) := none
  blockedPorts : Option (List UInt16) := none
  allowInternal : Option Bool := none
  internalWhitelist : Option (List String) := none
  banMaxFailures : Option UInt32 := none
  banWindowSec : Option UInt64 := none
  banDurationSec : Option UInt64 := none

/-- Settings problem found at startup. Foreign errors are their texts. -/
inductive ConfigError where
  | homeNotSet
  | read (path error : String)
  | parse (path error : String)
  | invalid (key reason : String)
  deriving DecidableEq, Repr

/-- Every interface, on the port registered for SOCKS. -/
def defaultListenAddress : String := "0.0.0.0:1080"
/-- Simultaneous client connections without `max_connections`. -/
def defaultMaxConnections : UInt32 := 4096
/-- Largest value of `max_connections`. -/
def maxConnectionsLimit : UInt32 := 1000000
/-- Greeting, authentication and request. -/
def defaultHandshakeTimeoutSec : UInt64 := 10
/-- DNS resolution and connect to the target. -/
def defaultConnectTimeoutSec : UInt64 := 15
/-- No traffic in either direction while relaying. -/
def defaultIdleTimeoutSec : UInt64 := 300
/-- Time active connections get after the signal. -/
def defaultShutdownGraceSec : UInt64 := 10
/-- Period of the stats log line. -/
def defaultStatsIntervalSec : UInt64 := 60
/-- SMTP. -/
def defaultBlockedPorts : List UInt16 := [25]
/-- Failed authentications within the window that ban a client. -/
def defaultBanMaxFailures : UInt32 := 5
/-- Ten minutes. -/
def defaultBanWindowSec : UInt64 := 600
/-- One hour. -/
def defaultBanDurationSec : UInt64 := 3600
/-- Clients the ban list keeps at most; no setting changes it. -/
def banMaxTracked : Nat := 100000

/-- Upper bound of every `*_sec` setting (one year). -/
def maxDurationSec : UInt64 := 365 * 24 * 60 * 60

/-! ## What `std` does -/

/-- A number up to `max` as `std::net` reads it: digits only, with zeros before it or not. -/
def readNumber (max : Nat) (s : Str) : Option Nat :=
  if s = [] then none else (fromDigits 10 s).filter (· ≤ max)

/--
`SocketAddr::from_str`: `a.b.c.d:port`, `[x::y]:port` or `[x::y%scope]:port`. Neither kind of
address holds one of the delimiters, so the text is cut at the first of each.
-/
def SocketAddr.fromStr (std : IpText) (s : Str) : Option SocketAddr :=
  match stripPrefix '[' s with
  | none => do
    let (host, port) ← splitOnce ':' s
    let port ← readNumber 65535 port
    match ← std.fromStr host with
    | .v4 ip => some (.v4 ip (UInt16.ofNat port))
    | .v6 _ => none
  | some bracketed => do
    let (host, rest) ← splitOnce ']' bracketed
    let port ← readNumber 65535 (← stripPrefix ':' rest)
    let (host, scopeId) ←
      match splitOnce '%' host with
      | some (host, scopeId) => (readNumber 4294967295 scopeId).map fun scopeId => (host, scopeId)
      | none => some (host, 0)
    match ← std.fromStr host with
    | .v4 _ => none
    | .v6 ip => some (.v6 ip (UInt16.ofNat port) 0 (UInt32.ofNat scopeId))

/-! ## Validation -/

/-- A `*_sec` setting or its default: one second to one year. -/
def seconds (key : String) (value : Option UInt64) (default : UInt64) : Except ConfigError Nat :=
  let value := value.getD default
  if value = 0 ∨ value > maxDurationSec then
    .error (.invalid key ("must be 1..=" ++ toString maxDurationSec ++ " seconds"))
  else .ok (durationFromSecs value.toNat)

/-- A list setting, read entry by entry up to the first one `fromStr` rejects. -/
def parseList {α : Type} (fromStr : Str → Except PolicyParseError α) (key : String)
    (values : Option (List String)) : Except ConfigError (List α) :=
  (values.getD []).mapM fun value =>
    (fromStr value.toList).mapError fun error => .invalid key error.fmt

namespace ServerConfig

/-- `listen_address`, or all interfaces on port 1080. -/
def readListenAddress (std : IpText) (value : Option String) : Except ConfigError SocketAddr :=
  match SocketAddr.fromStr std (value.getD defaultListenAddress).toList with
  | some addr => .ok addr
  | none => .error (.invalid "listen_address" "expected ip:port, e.g. 0.0.0.0:1080")

/-- `users`, checked by `UserStore::new`. -/
def readUsers (users : List UserSettingsModel) : Except ConfigError UserStore :=
  let credentials := users.map fun user => ⟨user.username, user.password⟩
  (UserStore.new credentials).mapError fun error => .invalid "users" error.fmt

/-- `max_connections`, or its default, from 1 to the limit. -/
def readMaxConnections (value : Option UInt32) : Except ConfigError UInt32 :=
  let maxConnections := value.getD defaultMaxConnections
  if ¬(1 ≤ maxConnections ∧ maxConnections ≤ maxConnectionsLimit) then
    .error (.invalid "max_connections" ("must be 1..=" ++ toString maxConnectionsLimit))
  else .ok maxConnections

/-- `blocked_ports`, or port 25 alone. Port 0 is refused. -/
def readBlockedPorts (value : Option (List UInt16)) : Except ConfigError (List UInt16) :=
  let blockedPorts := value.getD defaultBlockedPorts
  if blockedPorts.contains 0 then .error (.invalid "blocked_ports" "0 is not a port")
  else .ok blockedPorts

/-- The keys are checked in this order, and the first invalid one is reported. -/
def fromSettings (std : IpText) (settings : SettingsModel) : Except ConfigError ServerConfig := do
  let listenAddress ← readListenAddress std settings.listenAddress
  let users ← readUsers settings.users
  let maxConnections ← readMaxConnections settings.maxConnections
  let timeouts : Timeouts := {
    handshake := ← seconds "handshake_timeout_sec" settings.handshakeTimeoutSec
      defaultHandshakeTimeoutSec
    connect := ← seconds "connect_timeout_sec" settings.connectTimeoutSec
      defaultConnectTimeoutSec
    idle := ← seconds "idle_timeout_sec" settings.idleTimeoutSec defaultIdleTimeoutSec
    shutdownGrace := ← seconds "shutdown_grace_sec" settings.shutdownGraceSec
      defaultShutdownGraceSec }
  let statsInterval ← seconds "stats_interval_sec" settings.statsIntervalSec
    defaultStatsIntervalSec
  let clientAcl : ClientAcl :=
    ⟨← parseList (Cidr.fromStr std) "client_whitelist" settings.clientWhitelist⟩
  let blockedPorts ← readBlockedPorts settings.blockedPorts
  let destinationPolicy : DestinationPolicy :=
    ⟨blockedPorts, settings.allowInternal.getD false,
      ← parseList (InternalWhitelistEntry.fromStr std) "internal_whitelist"
        settings.internalWhitelist⟩
  let ban : BanConfig := {
    maxFailures := settings.banMaxFailures.getD defaultBanMaxFailures
    window := ← seconds "ban_window_sec" settings.banWindowSec defaultBanWindowSec
    duration := ← seconds "ban_duration_sec" settings.banDurationSec defaultBanDurationSec
    maxTracked := banMaxTracked }
  return {
    listenAddress, users, maxConnections, timeouts, statsInterval, clientAcl, destinationPolicy,
    ban }

end ServerConfig

end SocksServer
