import ApprovalFlow.SortedMap
import ApprovalFlow.Text.Blank
import ApprovalFlow.Text.Quoted
import ApprovalFlow.Number.Shortest
import ApprovalFlow.Json.Printer
import ApprovalFlow.Json.Reader
import ApprovalFlow.Json.Record
import ApprovalFlow.Diagram.Kind
import ApprovalFlow.EventName
import ApprovalFlow.Settings.Duration
import ApprovalFlow.Error
import ApprovalFlow.Diagram.Adjacency
import ApprovalFlow.Definition.Compile
import ApprovalFlow.Definition.Format
import ApprovalFlow.Task.Ledger
import ApprovalFlow.Task.Format
import ApprovalFlow.Topology.Basic
import ApprovalFlow.Progress
import ApprovalFlow.Dispatch.Decide
import ApprovalFlow.Engine.Store
import ApprovalFlow.Engine.Fault
import ApprovalFlow.Engine.Deploy
import ApprovalFlow.Dispatcher.Clock
import ApprovalFlow.Dispatcher.Service
import ApprovalFlow.Rehearsal
import ApprovalFlow.Settings.File
import ApprovalFlow.CommandLine.Command
import ApprovalFlow.Main
import ApprovalFlow.Proofs.SortedMap
import ApprovalFlow.Proofs.Definition.Table
import ApprovalFlow.Proofs.Diagram.Adjacency
import ApprovalFlow.Proofs.Definition.Bridges
import ApprovalFlow.Proofs.Definition.Compile
import ApprovalFlow.Proofs.Definition.Links
import ApprovalFlow.Proofs.Topology.Compiled
import ApprovalFlow.Proofs.Dispatch.Verdict
import ApprovalFlow.Proofs.Engine.Settling
import ApprovalFlow.Proofs.Dispatch.Commands
import ApprovalFlow.Proofs.Dispatcher.Effects
import ApprovalFlow.Proofs.History.Moves
import ApprovalFlow.Proofs.History.Outcomes
import ApprovalFlow.Proofs.Definition.Subscriptions
import ApprovalFlow.Proofs.History.Decisions
import ApprovalFlow.Proofs.History.Branches
import ApprovalFlow.Proofs.History.Secured
import ApprovalFlow.Proofs.Task.Live
import ApprovalFlow.Proofs.Dispatch.Cosigning
import ApprovalFlow.Proofs.Definition.Cleanup
import ApprovalFlow.Proofs.History.Siblings
import ApprovalFlow.Proofs.History.Rejected
import ApprovalFlow.Proofs.Definition.OwnProxy
import ApprovalFlow.Proofs.Definition.SystemNodes
import ApprovalFlow.Proofs.Definition.Completion
import ApprovalFlow.Proofs.Definition.Causes
import ApprovalFlow.Proofs.Engine.Coherent
import ApprovalFlow.Proofs.Engine.Registry
import ApprovalFlow.Proofs.Definition.Decoded
import ApprovalFlow.Proofs.History.Redelivery
import ApprovalFlow.Proofs.History.Instances
import ApprovalFlow.Proofs.History.OpenTasks
import ApprovalFlow.Proofs.History.Deployment
import ApprovalFlow.Proofs.Json.Canonical
import ApprovalFlow.Proofs.Json.Record
import ApprovalFlow.Proofs.Json.Stable
import ApprovalFlow.Proofs.Diagram.Reading
import ApprovalFlow.Proofs.Json.RoundTrip
import ApprovalFlow.Proofs.Dispatch.Order
import ApprovalFlow.Proofs.AutoPass.Acts
import ApprovalFlow.Proofs.AutoPass.Exclusive
import ApprovalFlow.Proofs.Definition.Lifecycle
import ApprovalFlow.Proofs.Definition.Repeated
import ApprovalFlow.Proofs.Dispatch.Closing
import ApprovalFlow.Proofs.Dispatch.WellFormed
import ApprovalFlow.Proofs.Topology.Frontier
import ApprovalFlow.Proofs.Topology.Shortest
import ApprovalFlow.Proofs.Topology.Unwinding
import ApprovalFlow.Proofs.Definition.Interleaving
import ApprovalFlow.Proofs.Progress.Shown
import ApprovalFlow.Proofs.Topology.Through
import ApprovalFlow.Proofs.Diagram.Unknown
import ApprovalFlow.Proofs.Diagram.Bags
import ApprovalFlow.Proofs.AutoPass.Course
import ApprovalFlow.Proofs.Text.Blank
import ApprovalFlow.Proofs.Settings.Duration
import ApprovalFlow.Proofs.Settings.Checked
import ApprovalFlow.Proofs.Definition.Conditions
import ApprovalFlow.Proofs.Dispatcher.Failures
import ApprovalFlow.Proofs.History.TaskIds
