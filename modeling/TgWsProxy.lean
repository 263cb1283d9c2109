import TgWsProxy.Lib.Keystream
import TgWsProxy.Lib.Framing
import TgWsProxy.Lib.Text
import TgWsProxy.Lib.Loops
import TgWsProxy.Lib.Collect
import TgWsProxy.Lib.Hex
import TgWsProxy.Lib.Slices
import TgWsProxy.Lib.Prog
import TgWsProxy.Lib.Tasks
import TgWsProxy.Lib.History
import TgWsProxy.Lib.Totals
import TgWsProxy.Lib.RoundRobin
import TgWsProxy.Lib.Custody
import TgWsProxy.Lib.Clocked
import TgWsProxy.Lib.Costs
import TgWsProxy.Lib.Fields
import TgWsProxy.Crypto.Basic
import TgWsProxy.Crypto.Reference
import TgWsProxy.Crypto.Agreement
import TgWsProxy.Crypto.Relay
import TgWsProxy.Splitter.Basic
import TgWsProxy.Splitter.Runs
import TgWsProxy.Splitter.Packets
import TgWsProxy.Splitter.Representation
import TgWsProxy.Bridge
import TgWsProxy.WsClient.Records
import TgWsProxy.Links
import TgWsProxy.Domains
import TgWsProxy.Http.Syntax
import TgWsProxy.Http.Reader
import TgWsProxy.Http.Body
import TgWsProxy.Http.Safety
import TgWsProxy.Http.Chunked
import TgWsProxy.Http.RoundTrip
import TgWsProxy.Http.Response
import TgWsProxy.Http.Decoding
import TgWsProxy.Http.ReadSizes
import TgWsProxy.FakeTls.Records
import TgWsProxy.FakeTls.Writer
import TgWsProxy.FakeTls.Inbound
import TgWsProxy.FakeTls.Layout
import TgWsProxy.FakeTls.HelloParser
import TgWsProxy.FakeTls.Sni
import TgWsProxy.FakeTls.ClientHello
import TgWsProxy.FakeTls.ServerHello
import TgWsProxy.Lib.Pump
import TgWsProxy.FakeTls.Arrivals
import TgWsProxy.Bridge.Tasks
import TgWsProxy.Bridge.Accounts
import TgWsProxy.Bridge.Atomic
import TgWsProxy.Upstream
import TgWsProxy.Chain.Wire
import TgWsProxy.Chain.Basic
import TgWsProxy.Chain.Opening
import TgWsProxy.Chain.Invariant
import TgWsProxy.Chain.Transparent
import TgWsProxy.World
import TgWsProxy.Deadlines
import TgWsProxy.Limits
import TgWsProxy.WsClient.Connect
import TgWsProxy.WsClient.Attempts
import TgWsProxy.WsClient.Turns
import TgWsProxy.WsClient.ConfiguredRecords
import TgWsProxy.WsClient.Retries
import TgWsProxy.Pool.Basic
import TgWsProxy.Pool.Progress
import TgWsProxy.Proxy.Route
import TgWsProxy.Proxy.TierRules
import TgWsProxy.Server
import TgWsProxy.Proxy.Ladder
import TgWsProxy.Proxy.DirectRules
import TgWsProxy.Proxy.TierOps
import TgWsProxy.Proxy.Direct
import TgWsProxy.Proxy.Guarantees
import TgWsProxy.Pool.Capacity
import TgWsProxy.Pool.Budget
import TgWsProxy.Pool.Freshest
import TgWsProxy.AcceptLoop
import TgWsProxy.Proxy.DirectPool
import TgWsProxy.Proxy.CooldownMaps
import TgWsProxy.Proxy.IpCooldown
import TgWsProxy.Proxy.FrontingCooldown
import TgWsProxy.Proxy.Messages
import TgWsProxy.Proxy.Framing
import TgWsProxy.Pool.Demand
import TgWsProxy.Proxy.CfPool
import TgWsProxy.Proxy.ZoneSpares
import TgWsProxy.Proxy.Balance
import TgWsProxy.Proxy.Ownership
import TgWsProxy.Proxy.Egress
import TgWsProxy.Proxy.Destinations
import TgWsProxy.Proxy.SelectionCost
import TgWsProxy.Outbound.Config
import TgWsProxy.Outbound.NoProxy
import TgWsProxy.Outbound.Sources
import TgWsProxy.Outbound.Connector
import TgWsProxy.Outbound.Phases
import TgWsProxy.Outbound.Reasons
import TgWsProxy.Outbound.Traffic
import TgWsProxy.Panics
import TgWsProxy.Lib.Costs
import TgWsProxy.Lib.Fields
import TgWsProxy.Outbound.Config
import TgWsProxy.Outbound.Connector
import TgWsProxy.Outbound.NoProxy
import TgWsProxy.Outbound.Phases
import TgWsProxy.Outbound.Reasons
import TgWsProxy.Outbound.Sources
import TgWsProxy.Outbound.Traffic
