import SocksServer.Infra.Bits
import SocksServer.Infra.Bytes
import SocksServer.Infra.Text
import SocksServer.Infra.Task
import SocksServer.Infra.Stream
import SocksServer.Infra.Table
import SocksServer.Infra.Machine
import SocksServer.Infra.Log
import SocksServer.Infra.Semaphore
import SocksServer.Infra.Wp
import SocksServer.Infra.Shape
import SocksServer.Infra.Deadline
import SocksServer.Infra.DeadlineWp
import SocksServer.Infra.Serve
import SocksServer.Infra.Duplex
import SocksServer.Infra.Validation
import SocksServer.Net
import SocksServer.Policy.IpClass
import SocksServer.Policy.Cidr
import SocksServer.Policy.CidrMembership
import SocksServer.Policy.DestinationPolicy
import SocksServer.Policy.PolicyTable
import SocksServer.Policy.FromStr
import SocksServer.Policy.IpLiteral
import SocksServer.Policy.WhitelistGrammar
import SocksServer.Socks.Wire
import SocksServer.Socks.Messages
import SocksServer.Socks.Roundtrip
import SocksServer.Socks.Frames
import SocksServer.Socks.Client
import SocksServer.Socks.ClientSafety
import SocksServer.Policy.BanListInner
import SocksServer.Policy.BanHistory
import SocksServer.Policy.BanDurability
import SocksServer.Policy.BanTable
import SocksServer.Auth.UserStore
import SocksServer.Auth.Credentials
import SocksServer.Config.ServerConfig
import SocksServer.Config.FromSettings
import SocksServer.Config.SettingsValidation
import SocksServer.Relay.Bidirectional
import SocksServer.Relay.Integrity
import SocksServer.Relay.IdleDeadline
import SocksServer.Relay.Attribution
import SocksServer.Relay.Termination
import SocksServer.Server.Connector
import SocksServer.Server.ConnectContract
import SocksServer.Server.Connection
import SocksServer.Server.Shapes
import SocksServer.Server.ConnectionSpec
import SocksServer.Server.ConnectionSafety
import SocksServer.Server.Agreement
import SocksServer.Server.ServerState
import SocksServer.Server.Run
import SocksServer.Server.HandshakeLanguage
import SocksServer.Server.Accounting
import SocksServer.Server.Moves
import SocksServer.Server.ClosedLine
import SocksServer.Server.AccessControl
import SocksServer.Server.Failures
import SocksServer.Server.Lockout
import SocksServer.Server.TimedConnection
import SocksServer.Server.Shutdown
import SocksServer.Server.EndToEnd
import SocksServer.Server.Descriptors
