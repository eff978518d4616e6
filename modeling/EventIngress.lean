import EventIngress.Broker
import EventIngress.Cache.Access
import EventIngress.Cache.Basic
import EventIngress.Cache.Classify
import EventIngress.Command.Arguments
import EventIngress.Command.Outcome
import EventIngress.Command.Routes
import EventIngress.Command.Run
import EventIngress.Command.Send
import EventIngress.Config.Basic
import EventIngress.Config.Bounds
import EventIngress.Config.Document
import EventIngress.Config.File
import EventIngress.Config.Resolve
import EventIngress.Decimal.Binary64
import EventIngress.Decimal.Shortest
import EventIngress.Encoding.Binary
import EventIngress.Event.Basic
import EventIngress.Event.Document
import EventIngress.Failure
import EventIngress.Files.Path
import EventIngress.Files.Tree
import EventIngress.Json.Brackets
import EventIngress.Json.Fault
import EventIngress.Json.Number
import EventIngress.Json.Read
import EventIngress.Json.Scan
import EventIngress.Json.Shape
import EventIngress.Json.Skip
import EventIngress.Json.Value
import EventIngress.Json.Write
import EventIngress.Log
import EventIngress.Log.Filter
import EventIngress.Log.Line
import EventIngress.Main
import EventIngress.Message
import EventIngress.Routing.Document
import EventIngress.Routing.File
import EventIngress.Routing.Memory
import EventIngress.Routing.Refresh
import EventIngress.Routing.Route
import EventIngress.Sink.Basic
import EventIngress.Sink.Bench
import EventIngress.Sink.World
import EventIngress.SortedMap
import EventIngress.Text.Alternatives
import EventIngress.Text.Base64
import EventIngress.Text.Blank
import EventIngress.Text.Cut
import EventIngress.Text.Hex
import EventIngress.Text.Quoted
import EventIngress.Text.Ranges
import EventIngress.Text.Utf8
import EventIngress.Time.Calendar
import EventIngress.Time.Span
import EventIngress.Time.Timestamp
import EventIngress.Toml.Document
import EventIngress.Toml.Scalar
import EventIngress.Toml.Shape
import EventIngress.Toml.Text
import EventIngress.Toml.Value
import EventIngress.Topic
import EventIngress.Trace
import EventIngress.Transport.Channel
import EventIngress.Transport.Journal
import EventIngress.Transport.Progress
import EventIngress.Transport.PubSub
import EventIngress.Transport.Recorder
import EventIngress.Url.Basic
import EventIngress.Url.Host
import EventIngress.Url.Percent
import EventIngress.Proofs.Cache.Calls
import EventIngress.Proofs.Cache.Accounting
import EventIngress.Proofs.Cache.Freshness
import EventIngress.Proofs.Cache.Convergence
import EventIngress.Proofs.Sink.OpenHandles
import EventIngress.Proofs.Sink.Histories
import EventIngress.Proofs.Encoding.Lossless
import EventIngress.Proofs.Encoding.TraceContexts
import EventIngress.Proofs.Topic.Grammar
import EventIngress.Proofs.Trace.Headers
import EventIngress.Proofs.Transport.Steps
import EventIngress.Proofs.Transport.Delivery
import EventIngress.Proofs.Json.Scalars
import EventIngress.Proofs.Json.Values
import EventIngress.Proofs.Json.Records
import EventIngress.Proofs.Time.Calendar
import EventIngress.Proofs.Time.Timestamps
import EventIngress.Proofs.Event.Documents
import EventIngress.Proofs.Config.Projects
import EventIngress.Proofs.Config.UnknownKeys
import EventIngress.Proofs.Config.Paths
import EventIngress.Proofs.Routing.Renewals
import EventIngress.Proofs.Routing.Overlaps
import EventIngress.Proofs.Routing.RoundTrips
import EventIngress.Proofs.Transport.Journals
import EventIngress.Proofs.Config.Endpoints
import EventIngress.Proofs.Transport.Addresses
import EventIngress.Proofs.Cache.Confinement
import EventIngress.Proofs.Cache.Errands
import EventIngress.Proofs.Cache.Removals
import EventIngress.Proofs.Cache.Breakdowns
import EventIngress.Proofs.Transport.Carriers
import EventIngress.Proofs.Transport.Closings
import EventIngress.Proofs.Event.Bodies
import EventIngress.Proofs.Routing.Listings
import EventIngress.Proofs.Routing.Schedules
import EventIngress.Proofs.Sink.Sends
import EventIngress.Proofs.Sink.Background
import EventIngress.Proofs.Command.Checks
import EventIngress.Proofs.Command.Acks
import EventIngress.Proofs.Command.AllOrNothing
import EventIngress.Proofs.Broker.Texts
import EventIngress.Proofs.Config.PathChecks
import EventIngress.Proofs.Json.Entries
import EventIngress.Proofs.Routing.Occurrences
