import SetScaler.Api.Channel
import SetScaler.Api.Exchange
import SetScaler.Api.Http
import SetScaler.Api.Path
import SetScaler.Api.Resource
import SetScaler.Bookie.Admin
import SetScaler.Bookie.Cleanup
import SetScaler.Bookie.Command
import SetScaler.Bookie.Disk
import SetScaler.Bookie.Report
import SetScaler.Bookie.Task
import SetScaler.Broker.Load
import SetScaler.Broker.Task
import SetScaler.Calendar
import SetScaler.Cluster.Manifest
import SetScaler.Cluster.Metadata
import SetScaler.Cluster.Resource
import SetScaler.Cluster.Schema
import SetScaler.Cluster.Spec
import SetScaler.CommandLine.Commands
import SetScaler.CommandLine.Grammar
import SetScaler.CommandLine.Help
import SetScaler.CommandLine.Outcome
import SetScaler.Controller.Loop
import SetScaler.Controller.Reconcile
import SetScaler.Decimal.Numeral
import SetScaler.Decimal.Positional
import SetScaler.Decimal.Shortest
import SetScaler.Decision
import SetScaler.Failure
import SetScaler.Json.Basic
import SetScaler.Json.MergePatch
import SetScaler.Json.Number
import SetScaler.Json.Reader
import SetScaler.Json.Writer
import SetScaler.Kubeconfig
import SetScaler.Main
import SetScaler.Ordinal
import SetScaler.Pod
import SetScaler.Proofs.Bookie.Course
import SetScaler.Proofs.Bookie.Downscale
import SetScaler.Proofs.Bookie.Plan
import SetScaler.Proofs.Bookie.Safety
import SetScaler.Proofs.Ordinal
import SetScaler.Proofs.Removal.Accounting
import SetScaler.Proofs.Removal.Course
import SetScaler.Proofs.Removal.Deletion
import SetScaler.Proofs.Removal.Phases
import SetScaler.Proofs.Removal.Safety
import SetScaler.Proofs.Run.Composition
import SetScaler.Proofs.Run.Conversation
import SetScaler.Proofs.Schedule.Exclusion
import SetScaler.Proofs.Schedule.Handles
import SetScaler.Proofs.Schedule.Steps
import SetScaler.Proofs.Schedule.Task
import SetScaler.Proofs.Survey
import SetScaler.Quantity
import SetScaler.Readiness
import SetScaler.Removal.Candidate
import SetScaler.Removal.Protocol
import SetScaler.Removal.Summary
import SetScaler.Run.Backend
import SetScaler.Run.Execution
import SetScaler.Run.Program
import SetScaler.Run.Rows
import SetScaler.Run.Suspension
import SetScaler.Run.Task
import SetScaler.Schedule.Machine
import SetScaler.Schedule.Registry
import SetScaler.Schedule.Work
import SetScaler.SetKey
import SetScaler.Settings.Basic
import SetScaler.Settings.Format
import SetScaler.Simulation.Script
import SetScaler.Simulation.Store
import SetScaler.Spec.Autoscaler
import SetScaler.Spec.Bookie
import SetScaler.Spec.Broker
import SetScaler.Survey
import SetScaler.Text.Blank
import SetScaler.Text.Search
import SetScaler.Text.Utf8
import SetScaler.Toml.Document
import SetScaler.Toml.Lexeme
import SetScaler.Toml.Table
import SetScaler.Toml.Writer
import SetScaler.Yaml.Flow
import SetScaler.Yaml.Reader
import SetScaler.Yaml.Writer
import SetScaler.Proofs.Removal.Rollback
import SetScaler.Proofs.Bookie.Cancellation
import SetScaler.Proofs.Schedule.Orders
import SetScaler.Proofs.Schedule.Live
import SetScaler.Proofs.Schedule.Retirement
import SetScaler.Proofs.Schedule.Lookup
import SetScaler.Proofs.Schedule.Observation
import SetScaler.Proofs.Evaluation.Stages
import SetScaler.Proofs.Evaluation.Acts
import SetScaler.Proofs.Evaluation.Gate
import SetScaler.Proofs.Evaluation.Bounds
import SetScaler.Proofs.Evaluation.Pacing
import SetScaler.Proofs.Evaluation.Listing
import SetScaler.Proofs.Cluster.Counts
import SetScaler.Proofs.Cluster.Recording
import SetScaler.Proofs.Double
import SetScaler.Proofs.Bookie.Headroom
import SetScaler.Proofs.Bookie.Stability
import SetScaler.Proofs.Run.Listing
import SetScaler.Proofs.Schedule.Elsewhere
import SetScaler.Proofs.Cluster.Reporting
import SetScaler.Proofs.Cluster.Scaling
import SetScaler.Proofs.SetKey
import SetScaler.Proofs.Controller.Convergence
import SetScaler.Proofs.Cluster.Numbers
import SetScaler.Proofs.Bookie.Growth
import SetScaler.Proofs.Bookie.Monotone
import SetScaler.Proofs.Broker.Votes
import SetScaler.Proofs.Broker.Scaling
import SetScaler.Proofs.Bookie.Snapshot
import SetScaler.Proofs.Bookie.Unanswered
import SetScaler.Proofs.Run.Recording
import SetScaler.Proofs.Bookie.Flags
import SetScaler.Proofs.Run.Delay
import SetScaler.Proofs.Bookie.Orphans
import SetScaler.Proofs.Schedule.Predecessors
import SetScaler.Proofs.Schedule.Progress
import SetScaler.Proofs.Schedule.Clock
import SetScaler.Proofs.Schedule.Spacing
import SetScaler.Words
import SetScaler.Proofs.Removal.Stages
import SetScaler.Proofs.Sorting
import SetScaler.Proofs.Words
import SetScaler.Proofs.Cluster.Resource
import SetScaler.Proofs.Naming
import SetScaler.Proofs.Schedule.Rounds
import SetScaler.Proofs.Run.Suspension
import SetScaler.Proofs.Schedule.Workload
import SetScaler.Proofs.Schedule.Evaluations
