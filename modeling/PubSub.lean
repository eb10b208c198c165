import PubSub.Cli.Flags
import PubSub.Cli.Tool
import PubSub.Condition
import PubSub.Config
import PubSub.Digest.Fnv
import PubSub.Digest.Md5
import PubSub.Double
import PubSub.Endpoint.Participant
import PubSub.Endpoint.Reader
import PubSub.Endpoint.Writer
import PubSub.Entity
import PubSub.Fault
import PubSub.History.Change
import PubSub.History.Net
import PubSub.History.Reader
import PubSub.History.Writer
import PubSub.Instance
import PubSub.Json.Basic
import PubSub.Json.Number
import PubSub.Json.Printer
import PubSub.Json.Reader
import PubSub.Json.Record
import PubSub.Json.Token
import PubSub.Lifecycle
import PubSub.Loopback.Domain
import PubSub.Loopback.World
import PubSub.Main
import PubSub.Middleware
import PubSub.Proofs.Agreement
import PubSub.Proofs.Aligned
import PubSub.Proofs.Atomic
import PubSub.Proofs.Board.Epoch
import PubSub.Proofs.Board.Hooked
import PubSub.Proofs.Board.Hooks
import PubSub.Proofs.Board.Kept
import PubSub.Proofs.Chronicle
import PubSub.Proofs.Commuting
import PubSub.Proofs.Condition
import PubSub.Proofs.Counters
import PubSub.Proofs.Deletion
import PubSub.Proofs.Endpoint.Account
import PubSub.Proofs.Endpoint.Changes
import PubSub.Proofs.Endpoint.Deletion
import PubSub.Proofs.Endpoint.Medium
import PubSub.Proofs.Endpoint.Mirror
import PubSub.Proofs.Endpoint.Report
import PubSub.Proofs.Endpoint.Step
import PubSub.Proofs.Endpoint.Take
import PubSub.Proofs.Endpoint.Wake
import PubSub.Proofs.History.Eviction
import PubSub.Proofs.History.Instance
import PubSub.Proofs.History.Loss
import PubSub.Proofs.History.Net
import PubSub.Proofs.History.Pending
import PubSub.Proofs.History.Proxy
import PubSub.Proofs.History.Reader
import PubSub.Proofs.History.Record
import PubSub.Proofs.History.Retention
import PubSub.Proofs.History.Run
import PubSub.Proofs.History.Unread
import PubSub.Proofs.History.Writer
import PubSub.Proofs.Interference
import PubSub.Proofs.Json.Number
import PubSub.Proofs.Json.Reader
import PubSub.Proofs.Json.Record
import PubSub.Proofs.Json.Size
import PubSub.Proofs.Json.Token
import PubSub.Proofs.Json.Value
import PubSub.Proofs.Lifecycle
import PubSub.Proofs.Lifetime
import PubSub.Proofs.Link
import PubSub.Proofs.Loopback.Act
import PubSub.Proofs.Loopback.Binding
import PubSub.Proofs.Loopback.Call
import PubSub.Proofs.Loopback.Census
import PubSub.Proofs.Loopback.Creation
import PubSub.Proofs.Loopback.Deletion
import PubSub.Proofs.Loopback.Duet.Basic
import PubSub.Proofs.Loopback.Duet.Delivery
import PubSub.Proofs.Loopback.Duet.Departure
import PubSub.Proofs.Loopback.Duet.Duty
import PubSub.Proofs.Loopback.Duet.Endpoint
import PubSub.Proofs.Loopback.Duet.Entrance
import PubSub.Proofs.Loopback.Duet.Medium
import PubSub.Proofs.Loopback.Duet.Wait
import PubSub.Proofs.Loopback.Effect
import PubSub.Proofs.Loopback.Endpoint
import PubSub.Proofs.Loopback.Lane
import PubSub.Proofs.Loopback.Listing
import PubSub.Proofs.Loopback.Lossless
import PubSub.Proofs.Loopback.Matching
import PubSub.Proofs.Loopback.Overtaking
import PubSub.Proofs.Loopback.Roster
import PubSub.Proofs.Loopback.Run
import PubSub.Proofs.Loopback.Step
import PubSub.Proofs.Loopback.Traffic
import PubSub.Proofs.Procedure
import PubSub.Proofs.Progress
import PubSub.Proofs.Reconnect
import PubSub.Proofs.Repair
import PubSub.Proofs.Residents
import PubSub.Proofs.Roster
import PubSub.Proofs.Scenario.Contract
import PubSub.Proofs.Scenario.Course
import PubSub.Proofs.Scenario.Interleaving
import PubSub.Proofs.Scenario.Pair
import PubSub.Proofs.Scenario.Play
import PubSub.Proofs.Scenario.Publisher
import PubSub.Proofs.Scenario.Subscriber
import PubSub.Proofs.Session
import PubSub.Proofs.Settings
import PubSub.Proofs.Table
import PubSub.Proofs.Udp.Act
import PubSub.Proofs.Udp.Address
import PubSub.Proofs.Udp.Arrival
import PubSub.Proofs.Udp.Datagram
import PubSub.Proofs.Udp.Deletion
import PubSub.Proofs.Udp.Discovery
import PubSub.Proofs.Udp.Duo
import PubSub.Proofs.Udp.Exact
import PubSub.Proofs.Udp.Matching
import PubSub.Proofs.Udp.Node
import PubSub.Proofs.Udp.Peers
import PubSub.Proofs.Udp.Roster
import PubSub.Proofs.Udp.Standing
import PubSub.Proofs.Udp.Step
import PubSub.Proofs.Udp.Stranger
import PubSub.Proofs.Udp.Turn
import PubSub.Proofs.Value
import PubSub.Proofs.Verifier
import PubSub.Proofs.WaitSet
import PubSub.Proofs.Wire.Passage
import PubSub.Proofs.Wire.Record
import PubSub.Proofs.Wire.RoundTrip
import PubSub.Qos
import PubSub.Report
import PubSub.Sample
import PubSub.Scenario.Basic
import PubSub.Scenario.Catalogue
import PubSub.Scenario.Phase
import PubSub.Scenario.Program
import PubSub.Scenario.Publisher
import PubSub.Scenario.Runner
import PubSub.Scenario.Script
import PubSub.Scenario.Subscriber
import PubSub.Span
import PubSub.Status
import PubSub.Table
import PubSub.Text.Blank
import PubSub.Text.Hidden
import PubSub.Text.Quoted
import PubSub.Udp.Node
import PubSub.Udp.World
import PubSub.Value
import PubSub.Wait
import PubSub.WaitSet
import PubSub.Wire
