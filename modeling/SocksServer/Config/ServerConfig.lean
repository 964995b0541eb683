import SocksServer.Auth.UserStore
import SocksServer.Policy.BanListInner
import SocksServer.Policy.DestinationPolicy

/-!
# `config/server_config.rs`

Validated settings. Durations are nanoseconds.
-/

namespace SocksServer

structure Timeouts where
  /-- Greeting + authentication + request. -/
  handshake : Nat
  /-- DNS resolution + TCP connect to the target. -/
  connect : Nat
  /-- No bytes in either direction while relaying. -/
  idle : Nat
  /-- How long active connections may finish after a shutdown. -/
  shutdownGrace : Nat
  deriving DecidableEq, Repr

structure ServerConfig where
  listenAddress : SocketAddr
  users : UserStore
  maxConnections : UInt32
  timeouts : Timeouts
  statsInterval : Nat
  clientAcl : ClientAcl
  destinationPolicy : DestinationPolicy
  ban : BanConfig

end SocksServer
