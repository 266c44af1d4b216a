import Pipeworks.Coordinator.Call
import Pipeworks.Coordinator.Hook
import Pipeworks.Coordinator.Lookup
import Pipeworks.Coordinator.Memory
import Pipeworks.Coordinator.Report
import Pipeworks.Coordinator.Router
import Pipeworks.Decimal.Binary64
import Pipeworks.Decimal.Layout
import Pipeworks.Decimal.Shortest
import Pipeworks.Definition.Basic
import Pipeworks.Definition.Reader
import Pipeworks.Digest.Sha256
import Pipeworks.Http.Exchange
import Pipeworks.Http.Header
import Pipeworks.Http.MediaType
import Pipeworks.Http.Route
import Pipeworks.Http.Server
import Pipeworks.Json.Fault
import Pipeworks.Json.Node
import Pipeworks.Json.Reader
import Pipeworks.Json.Shape
import Pipeworks.Json.Value
import Pipeworks.Pipeline.Record
import Pipeworks.Pipeline.Report
import Pipeworks.Pipeline.Status
import Pipeworks.Pipeline.Wire
import Pipeworks.Program
import Pipeworks.Proofs.Coordinator.Admission
import Pipeworks.Proofs.Coordinator.CommandLog
import Pipeworks.Proofs.Coordinator.Confinement
import Pipeworks.Proofs.Coordinator.Convergence
import Pipeworks.Proofs.Coordinator.Delivery
import Pipeworks.Proofs.Coordinator.Forward
import Pipeworks.Proofs.Coordinator.Hook
import Pipeworks.Proofs.Coordinator.Independence
import Pipeworks.Proofs.Coordinator.Interleaving
import Pipeworks.Proofs.Coordinator.Ledger
import Pipeworks.Proofs.Coordinator.Retry
import Pipeworks.Proofs.Coordinator.Router
import Pipeworks.Proofs.Definition.Format
import Pipeworks.Proofs.Definition.Jobs
import Pipeworks.Proofs.EndToEnd
import Pipeworks.Proofs.Json.Record
import Pipeworks.Proofs.Json.Size
import Pipeworks.Proofs.Pipeline.Details
import Pipeworks.Proofs.Pipeline.Report
import Pipeworks.Proofs.Pipeline.Wire
import Pipeworks.Proofs.Program.Outcome
import Pipeworks.Proofs.Program.Path
import Pipeworks.Proofs.Provider.Signature
import Pipeworks.Proofs.Pushed
import Pipeworks.Proofs.Queue.Database
import Pipeworks.Proofs.Queue.Lease
import Pipeworks.Proofs.Queue.Memory
import Pipeworks.Proofs.Queue.Reader
import Pipeworks.Proofs.Queue.Shared
import Pipeworks.Proofs.Redelivery
import Pipeworks.Proofs.Runner.BestEffort
import Pipeworks.Proofs.Runner.Cleanup
import Pipeworks.Proofs.Runner.Completion
import Pipeworks.Proofs.Runner.Consumer
import Pipeworks.Proofs.Runner.Ending
import Pipeworks.Proofs.Runner.Execution
import Pipeworks.Proofs.Runner.Journal
import Pipeworks.Proofs.Runner.Lease
import Pipeworks.Proofs.Runner.Limit
import Pipeworks.Proofs.Runner.Phases
import Pipeworks.Proofs.Runner.Plan
import Pipeworks.Proofs.Runner.Pool
import Pipeworks.Proofs.Runner.Reports
import Pipeworks.Proofs.Runner.Script
import Pipeworks.Proofs.Runner.Section
import Pipeworks.Proofs.Runner.Single
import Pipeworks.Proofs.Runner.Timeline
import Pipeworks.Proofs.Runner.Unfinished
import Pipeworks.Proofs.Runner.Unread
import Pipeworks.Proofs.Settings.Runner
import Pipeworks.Proofs.Storage.Course
import Pipeworks.Proofs.Storage.Database
import Pipeworks.Proofs.Storage.Memory
import Pipeworks.Proofs.System
import Pipeworks.Proofs.Text.Replace
import Pipeworks.Proofs.Tool.Git
import Pipeworks.Proofs.Tool.Secrecy
import Pipeworks.Proofs.Transcript.Agreement
import Pipeworks.Proofs.Transcript.Directory
import Pipeworks.Proofs.Url.Endpoint
import Pipeworks.Proofs.Url.Percent
import Pipeworks.Proofs.Url.Reader
import Pipeworks.Proofs.Yaml.Tree
import Pipeworks.Provider.Event
import Pipeworks.Provider.Hosts
import Pipeworks.Queue.Database
import Pipeworks.Queue.Delivery
import Pipeworks.Queue.Memory
import Pipeworks.Queue.Reader
import Pipeworks.Runner.Action
import Pipeworks.Runner.Client
import Pipeworks.Runner.Consumer
import Pipeworks.Runner.Execution
import Pipeworks.Runner.Fault
import Pipeworks.Runner.Script
import Pipeworks.Runner.Section
import Pipeworks.Runner.Timeline
import Pipeworks.Runner.Trial
import Pipeworks.Runner.Worker
import Pipeworks.Settings.Coordinator
import Pipeworks.Settings.Environment
import Pipeworks.Settings.Runner
import Pipeworks.Sql.Database
import Pipeworks.Sql.Query
import Pipeworks.Storage.Call
import Pipeworks.Storage.Database
import Pipeworks.Storage.Memory
import Pipeworks.Text.Blank
import Pipeworks.Text.Digits
import Pipeworks.Text.Quoted
import Pipeworks.Text.Start
import Pipeworks.Text.Utf8
import Pipeworks.Time.Instant
import Pipeworks.Time.Reader
import Pipeworks.Time.Span
import Pipeworks.Time.Written
import Pipeworks.Tool.Container
import Pipeworks.Tool.Git
import Pipeworks.Tool.Invocation
import Pipeworks.Transcript.Directory
import Pipeworks.Transcript.Memory
import Pipeworks.Url.Basic
import Pipeworks.Url.Endpoint
import Pipeworks.Url.Host
import Pipeworks.Url.Percent
import Pipeworks.Url.Punycode
import Pipeworks.Url.Reader
import Pipeworks.Yaml.Block
import Pipeworks.Yaml.Cursor
import Pipeworks.Yaml.Document
import Pipeworks.Yaml.Fault
import Pipeworks.Yaml.Flow
import Pipeworks.Yaml.Node
import Pipeworks.Yaml.Plain
import Pipeworks.Yaml.Shape
import Pipeworks.Yaml.Tag
import Pipeworks.Yaml.Token
import Pipeworks.Yaml.Value
