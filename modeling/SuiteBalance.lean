import SuiteBalance.Text.Blank
import SuiteBalance.Text.Cased
import SuiteBalance.Text.Digit
import SuiteBalance.Text.Lower
import SuiteBalance.Text.Likeness
import SuiteBalance.Text.Lines
import SuiteBalance.Text.Utf8
import SuiteBalance.Text.Word
import SuiteBalance.Number.Fixed
import SuiteBalance.Number.Notation
import SuiteBalance.Number.Reading
import SuiteBalance.Json.Parser
import SuiteBalance.Json.Printer
import SuiteBalance.Allocation
import SuiteBalance.Plan
import SuiteBalance.Workspace
import SuiteBalance.Timing.File
import SuiteBalance.Discovery
import SuiteBalance.Planner
import SuiteBalance.Value.Number
import SuiteBalance.Value.Text
import SuiteBalance.Snapshot.File
import SuiteBalance.Terminal.Control
import SuiteBalance.Terminal.Table
import SuiteBalance.Timing.Given
import SuiteBalance.Yaml.Tokens
import SuiteBalance.Yaml.Node
import SuiteBalance.Yaml.Graph
import SuiteBalance.Yaml.Meaning
import SuiteBalance.Yaml.Object
import SuiteBalance.Yaml.Document
import SuiteBalance.Settings.File
import SuiteBalance.Command.Run
import SuiteBalance.Terminal.Plain
import SuiteBalance.Command.Report
import SuiteBalance.Main
import SuiteBalance.Proofs.Number.Rounding
import SuiteBalance.Proofs.Number.Unpacked
import SuiteBalance.Proofs.Number.Packed
import SuiteBalance.Proofs.Number.Arithmetic
import SuiteBalance.Proofs.Sorting
import SuiteBalance.Proofs.Timing.History
import SuiteBalance.Proofs.Schedule.Cost
import SuiteBalance.Proofs.Schedule.Run
import SuiteBalance.Proofs.Schedule.Bound
import SuiteBalance.Proofs.Schedule.Cover
import SuiteBalance.Proofs.Schedule.Balance
import SuiteBalance.Proofs.Schedule.Comparison
import SuiteBalance.Proofs.Schedule.Tasks
import SuiteBalance.Proofs.Schedule.Lockstep
import SuiteBalance.Proofs.Schedule.Reordering
import SuiteBalance.Proofs.Fork.Lifecycle
import SuiteBalance.Proofs.Planner.Discovery
import SuiteBalance.Proofs.Planner.Partition
import SuiteBalance.Proofs.Planner.Replay
import SuiteBalance.Proofs.Planner.Session
import SuiteBalance.Proofs.Planner.Reordering
import SuiteBalance.Proofs.Planner.Estimate
import SuiteBalance.Proofs.Number.Product
import SuiteBalance.Proofs.Number.Decimal
import SuiteBalance.Proofs.Number.Notation
import SuiteBalance.Proofs.Json.Number
import SuiteBalance.Proofs.Json.Quoted
import SuiteBalance.Proofs.Json.Token
import SuiteBalance.Proofs.Json.RoundTrip
import SuiteBalance.Proofs.Text.Ascii
import SuiteBalance.Proofs.Json.Plain
import SuiteBalance.Proofs.Snapshot.Document
import SuiteBalance.Proofs.Workspace
import SuiteBalance.Proofs.Snapshot.RoundTrip
import SuiteBalance.Proofs.Snapshot.Kept
import SuiteBalance.Proofs.Workspace.Calls
import SuiteBalance.Proofs.Command.Calls
import SuiteBalance.Proofs.Command.Arguments
import SuiteBalance.Proofs.Command.Project
import SuiteBalance.Proofs.Summary
import SuiteBalance.Proofs.Terminal.Control
import SuiteBalance.Proofs.Command.Answers
import SuiteBalance.Proofs.Command.Views
import SuiteBalance.Proofs.Traversal
import SuiteBalance.Proofs.Number.Overflow
import SuiteBalance.Proofs.Json.Depth
import SuiteBalance.Proofs.Command.Misfit
import SuiteBalance.Proofs.Command.PlanFiles
import SuiteBalance.Proofs.Planner.Failures
import SuiteBalance.Proofs.Command.Failures
import SuiteBalance.Proofs.Text.Utf8
import SuiteBalance.Proofs.Text.Blank
import SuiteBalance.Proofs.Schedule.Refusal
import SuiteBalance.Proofs.Planner.Contacts
import SuiteBalance.Proofs.Number.Reading
import SuiteBalance.Proofs.Csv.RoundTrip
import SuiteBalance.Proofs.Timing.File
import SuiteBalance.Proofs.Timing.RoundTrip
import SuiteBalance.Proofs.Text.Lines
import SuiteBalance.Proofs.Discovery
import SuiteBalance.Proofs.Snapshot.Numbering
import SuiteBalance.Proofs.Snapshot.Names
import SuiteBalance.Proofs.Planner.Summary
import SuiteBalance.Proofs.Number.Sums
import SuiteBalance.Proofs.Timing.Nesting
import SuiteBalance.Proofs.Schedule.Overlap
import SuiteBalance.Proofs.Schedule.Sharing
import SuiteBalance.Proofs.Schedule.Rounding
import SuiteBalance.Proofs.Number.Quotient
import SuiteBalance.Proofs.Terminal.Bar
import SuiteBalance.Proofs.Terminal.Shown
import SuiteBalance.Proofs.Terminal.Loads
import SuiteBalance.Proofs.Terminal.Tags
import SuiteBalance.Proofs.Terminal.Escape
import SuiteBalance.Proofs.Terminal.Groups
import SuiteBalance.Proofs.Settings.Split
import SuiteBalance.Proofs.Settings.Expansion
import SuiteBalance.Proofs.Settings.Taking
import SuiteBalance.Proofs.Settings.File
import SuiteBalance.Proofs.Value
import SuiteBalance.Proofs.Settings.Blank
import SuiteBalance.Proofs.Settings.Aside
import SuiteBalance.Proofs.Path
import SuiteBalance.Proofs.Workspace.Twins
import SuiteBalance.Proofs.Command.Together
import SuiteBalance.Proofs.Command.Overridden
import SuiteBalance.Proofs.Command.Shadowing
