import Runbook.Assertion.Basic
import Runbook.Assertion.Duration
import Runbook.Assertion.Evaluate
import Runbook.Assertion.Reader
import Runbook.Command.Adhoc
import Runbook.Command.Basic
import Runbook.Command.Conduct
import Runbook.Command.Invocation
import Runbook.Command.Reading
import Runbook.Command.Record
import Runbook.Command.Switch
import Runbook.Command.Usage
import Runbook.Command.Verb
import Runbook.Command.Workspace
import Runbook.Config.Basic
import Runbook.Config.Document
import Runbook.Config.Project
import Runbook.Delivery.Basic
import Runbook.Dict
import Runbook.Document.Decode
import Runbook.Document.Encode
import Runbook.Document.Readable
import Runbook.Double.Basic
import Runbook.Double.Decimal
import Runbook.Double.Layout
import Runbook.Double.Shortest
import Runbook.Environment
import Runbook.Exchange
import Runbook.Failure
import Runbook.Files.Basic
import Runbook.Files.Pathname
import Runbook.Files.Tree
import Runbook.Graph
import Runbook.History.Entry
import Runbook.History.Log
import Runbook.History.Recorder
import Runbook.History.Replay
import Runbook.History.Row
import Runbook.History.Store
import Runbook.Host.Basic
import Runbook.Host.Machine
import Runbook.Json.Basic
import Runbook.Json.Number
import Runbook.Json.Printer
import Runbook.Json.Reader
import Runbook.Main
import Runbook.Method
import Runbook.Path.Basic
import Runbook.Path.Extract
import Runbook.Plan
import Runbook.Progress.Channel
import Runbook.Progress.Event
import Runbook.Progress.Stream
import Runbook.Proofs.Document.Parts
import Runbook.Proofs.Assertion.Sides
import Runbook.Proofs.Assertion.Source
import Runbook.Proofs.Batch.Alike
import Runbook.Proofs.Batch.Isolation
import Runbook.Proofs.Batch.Moves
import Runbook.Proofs.Batch.Untimed
import Runbook.Proofs.Control
import Runbook.Proofs.Dict
import Runbook.Proofs.Double.Range
import Runbook.Proofs.History.Store
import Runbook.Proofs.Json.Compact
import Runbook.Proofs.Json.Text
import Runbook.Proofs.Observer.Audience
import Runbook.Proofs.Observer.Frame
import Runbook.Proofs.Plan.Cycle
import Runbook.Proofs.Plan.Frontier
import Runbook.Proofs.Plan.Graph
import Runbook.Proofs.Plan.Greedy
import Runbook.Proofs.Plan.Inbound
import Runbook.Proofs.Plan.Valid
import Runbook.Proofs.Plan.Wiring
import Runbook.Proofs.Progress.Stream
import Runbook.Proofs.Run.Abort
import Runbook.Proofs.Run.Chain
import Runbook.Proofs.Run.Cancellation
import Runbook.Proofs.Run.Cascade
import Runbook.Proofs.Run.Course
import Runbook.Proofs.Run.Events
import Runbook.Proofs.Run.Interrupt
import Runbook.Proofs.Run.Provenance
import Runbook.Proofs.Run.Resolution
import Runbook.Proofs.Run.Runs
import Runbook.Proofs.Run.Step
import Runbook.Proofs.Run.Terminal
import Runbook.Proofs.Scope.Captures
import Runbook.Proofs.Script.Accepted
import Runbook.Proofs.Script.Written
import Runbook.Proofs.Script.Prose
import Runbook.Proofs.Script.Reading
import Runbook.Proofs.Script.Refused
import Runbook.Proofs.Script.RoundTrip
import Runbook.Proofs.Script.Scanned
import Runbook.Proofs.Script.Sections
import Runbook.Proofs.Script.Title
import Runbook.Proofs.Text.Blank
import Runbook.Proofs.Text.Decimal
import Runbook.Proofs.Text.Lines
import Runbook.Proofs.Time.Reading
import Runbook.Report.Collection
import Runbook.Report.Console
import Runbook.Report.File
import Runbook.Run.Basic
import Runbook.Run.Batch
import Runbook.Run.Engine
import Runbook.Run.Interaction
import Runbook.Scenario.Basic
import Runbook.Scenario.Capture
import Runbook.Scenario.Error
import Runbook.Scenario.Load
import Runbook.Scenario.Slug
import Runbook.Scope
import Runbook.Script.Basic
import Runbook.Script.Block
import Runbook.Script.Request
import Runbook.Template.Basic
import Runbook.Template.Builtin
import Runbook.Template.Resolve
import Runbook.Text.Ascii
import Runbook.Text.Blank
import Runbook.Text.Digit
import Runbook.Text.Invisible
import Runbook.Text.Pieces
import Runbook.Text.Quoted
import Runbook.Text.Utf8
import Runbook.Time.Calendar
import Runbook.Time.Instant
import Runbook.Time.Reader
import Runbook.Transport.Address
import Runbook.Transport.Basic
import Runbook.Transport.Message
import Runbook.Url.Basic
import Runbook.Url.Host
import Runbook.Url.Punycode
import Runbook.Yaml.Node
import Runbook.Yaml.Printer
import Runbook.Yaml.Readable
import Runbook.Yaml.Scalar
import Runbook.Yaml.Scan
import Runbook.Yaml.Style
import Runbook.Yaml.Token
import Runbook.Proofs.Assertion.Coherence
import Runbook.Proofs.Files.Tree
import Runbook.Proofs.History.Recorder
import Runbook.Proofs.History.Operations
import Runbook.Proofs.History.AppendOnly
import Runbook.Proofs.Run.Telling
import Runbook.Proofs.Observer.Recorded
import Runbook.Proofs.Script.Heading
import Runbook.Proofs.Script.Layout
import Runbook.Proofs.Script.Blocks
import Runbook.Proofs.Template.Placeholder
import Runbook.Proofs.Template.Substitution
import Runbook.Proofs.Template.Filled
import Runbook.Proofs.Json.Finite
import Runbook.Proofs.Assertion.Captured
import Runbook.Proofs.Run.Sending
import Runbook.Proofs.Run.Ending
import Runbook.Proofs.History.Query
import Runbook.Proofs.Json.Parts
import Runbook.Proofs.Document.RoundTrip
import Runbook.Proofs.Host.Files
import Runbook.Proofs.Observer.Course
import Runbook.Proofs.Command.Exit
import Runbook.Proofs.Path.Compose
import Runbook.Proofs.Path.Grammar
import Runbook.Proofs.Path.Render
import Runbook.Proofs.History.Overrides
import Runbook.Proofs.History.Replay
import Runbook.Proofs.Double.Nearest
import Runbook.Proofs.Assertion.Integer
import Runbook.Proofs.Script.Edits
import Runbook.Proofs.Script.RequestLine
import Runbook.Proofs.Double.Order
import Runbook.Proofs.Assertion.Ordering
import Runbook.Proofs.Assertion.Threshold
import Runbook.Proofs.Assertion.Words
import Runbook.Proofs.Double.Grid
import Runbook.Proofs.Double.Shortest
import Runbook.Proofs.Double.Written
import Runbook.Proofs.Json.Reals
import Runbook.Proofs.Assertion.Structure
import Runbook.Proofs.Assertion.Itself
import Runbook.Proofs.Exchange.Headers
import Runbook.Proofs.Exchange.Target
import Runbook.Proofs.Scenario.Loading
import Runbook.Proofs.Scenario.Slug
import Runbook.Proofs.Delivery.Submission
import Runbook.Proofs.Files.Directory
import Runbook.Proofs.Run.Warning
import Runbook.Proofs.Double.Thousandth
import Runbook.Proofs.Assertion.Seconds
import Runbook.Proofs.Files.Kinds
import Runbook.Proofs.History.LogName
import Runbook.Proofs.History.LogFiles
