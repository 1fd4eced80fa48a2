import Meshrustic.Core.LTS
import Meshrustic.Core.Bytes
import Meshrustic.Core.Clock
import Meshrustic.Radio.Config
import Meshrustic.Store.Config
import Meshrustic.Store.Layout
import Meshrustic.Store.Migration
import Meshrustic.Store.Journal
import Meshrustic.Core.Protobuf
import Meshrustic.Core.Table
import Meshrustic.Core.ProtobufWriter
import Meshrustic.Core.Paths
import Meshrustic.Radio.Timing
import Meshrustic.Admin.NodeInfo
import Meshrustic.Admin.Codec
import Meshrustic.Admin.Encode
import Meshrustic.Admin.RoundTrip
import Meshrustic.Admin.Handler
import Meshrustic.Admin.Session
import Meshrustic.Admin.Edit
import Meshrustic.RateLimit.Bucket
import Meshrustic.RateLimit.Windows
import Meshrustic.RateLimit.Limiter
import Meshrustic.RateLimit.Runs
import Meshrustic.Graph.Capability
import Meshrustic.Graph.Edge
import Meshrustic.Graph.Search
import Meshrustic.Graph.Route
import Meshrustic.Graph.Coverage
import Meshrustic.Relay.Window
import Meshrustic.Relay.Plan
import Meshrustic.Relay.Agreement
import Meshrustic.Relay.Ladder
import Meshrustic.Core.Slots
import Meshrustic.Routing.Packet
import Meshrustic.Routing.History
import Meshrustic.Routing.Reliable
import Meshrustic.Routing.Ledger
import Meshrustic.Routing.State
import Meshrustic.Routing.Inbound
import Meshrustic.Routing.Forward
import Meshrustic.Routing.Calm
import Meshrustic.Routing.Tables
import Meshrustic.Routing.Runs
import Meshrustic.Routing.Echo
import Meshrustic.Routing.Insurance
import Meshrustic.Admin.Floor
import Meshrustic.Admin.Reboot
import Meshrustic.Core.Arena
import Meshrustic.Routing.Pool
import Meshrustic.Routing.Commands
import Meshrustic.Core.Ring
import Meshrustic.Radio.Slot
import Meshrustic.Radio.Conservation
import Meshrustic.Radio.Listening
import Meshrustic.Topology.Downstream
import Meshrustic.Topology.Store
import Meshrustic.Topology.Admission
import Meshrustic.Topology.Arrays
import Meshrustic.Topology.Representation
import Meshrustic.Topology.Codec
import Meshrustic.Topology.Versions
import Meshrustic.Topology.Merge
import Meshrustic.Topology.Stale
import Meshrustic.Topology.EmptyList
import Meshrustic.Topology.Reassembly
import Meshrustic.Topology.Publish
import Meshrustic.Routing.Holdings
import Meshrustic.Channel.Sealing
import Meshrustic.Channel.Node
import Meshrustic.Channel.Reconfigure
import Meshrustic.Wire.Data
import Meshrustic.Wire.CounterMode
import Meshrustic.Wire.Frame
import Meshrustic.Topology.Transfer
import Meshrustic.Topology.Handover
import Meshrustic.Topology.Ageing
import Meshrustic.Topology.Layout
import Meshrustic.Topology.Routes
import Meshrustic.Topology.Observe
import Meshrustic.Topology.Losses
import Meshrustic.Topology.CachedLinks
import Meshrustic.Admin.Refusals
import Meshrustic.Relay.Prices
import Meshrustic.Relay.Rungs
import Meshrustic.Relay.Fallback
import Meshrustic.Relay.Absorb
import Meshrustic.Core.Ranking
import Meshrustic.Relay.Sorting
import Meshrustic.Graph.Reorder
import Meshrustic.Relay.Elections
import Meshrustic.RateLimit.Youth
import Meshrustic.RateLimit.Gate
import Meshrustic.RateLimit.Charges
import Meshrustic.RateLimit.Peeks
import Meshrustic.RateLimit.Established
import Meshrustic.RateLimit.Bans
import Meshrustic.Relay.Unicast
import Meshrustic.Relay.UnicastLadder
import Meshrustic.Topology.Chains
import Meshrustic.Topology.Excluded
import Meshrustic.Topology.Moves
import Meshrustic.Core.Visit
import Meshrustic.Topology.Pruning
import Meshrustic.Topology.Evidence
import Meshrustic.Topology.Renaming
import Meshrustic.Topology.Stamps
import Meshrustic.Topology.RelayIdentity
import Meshrustic.Topology.HearsUs
import Meshrustic.Routing.Retries
import Meshrustic.Routing.CallBack
import Meshrustic.Core.Buckets
import Meshrustic.Radio.AirTime
import Meshrustic.Radio.DutyCycle
import Meshrustic.Radio.Queue
import Meshrustic.Radio.AirLedger
import Meshrustic.Routing.Retention
import Meshrustic.Routing.HopHealth
import Meshrustic.Wire.RouteDiscovery
import Meshrustic.Wire.Traceroute
import Meshrustic.Core.ProtobufFields
import Meshrustic.Wire.Rebuild
import Meshrustic.Crypto.Ccm
import Meshrustic.Crypto.Pki
import Meshrustic.Wire.Summary
import Meshrustic.Core.ProtobufWalk
import Meshrustic.Admin.Walkers
import Meshrustic.Wire.Decoders
import Meshrustic.Graph.Silence
import Meshrustic.Relay.ChannelAccess
import Meshrustic.Wire.HostCommand
import Meshrustic.Graph.Publishers
import Meshrustic.Routing.Network
import Meshrustic.Wire.TracePath
import Meshrustic.Wire.Acks
import Meshrustic.Core.FixedWindow
import Meshrustic.Admin.Inbound
import Meshrustic.Admin.Direct
import Meshrustic.Core.Recency
import Meshrustic.Relay.Transmissions
import Meshrustic.Admin.Peers
import Meshrustic.Routing.Covered
import Meshrustic.Admin.Answers
import Meshrustic.Core.Trail
import Meshrustic.Routing.Bridge
