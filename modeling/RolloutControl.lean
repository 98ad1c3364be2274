import RolloutControl.Text.Blank
import RolloutControl.Json.Parser
import RolloutControl.Document.Merge
import RolloutControl.Document.Diff
import RolloutControl.Status.Codec
import RolloutControl.Settings.Codec
import RolloutControl.Digest.Dependencies
import RolloutControl.Loop.Script
import RolloutControl.Event
import RolloutControl.Yaml.Printer
import RolloutControl.Cluster.Deployment
import RolloutControl.Cluster.Manifest
import RolloutControl.Cache.View
import RolloutControl.Encryption.Config
import RolloutControl.Encryption.Convergence
import RolloutControl.Net.Address
import RolloutControl.Observe.Sources
import RolloutControl.Availability
import RolloutControl.Workload.Rollout
import RolloutControl.Workload.Conditions
import RolloutControl.Observe.Cycle
import RolloutControl.Workload.Cycle
import RolloutControl.Simulation.Operator
import RolloutControl.Proofs.Encryption.Unanimity
import RolloutControl.Proofs.Digest.Dependencies
import RolloutControl.Proofs.Digest.Detection
import RolloutControl.Proofs.Digest.Encoding
import RolloutControl.Proofs.Effect.Contract
import RolloutControl.Proofs.Effect.Trace
import RolloutControl.Proofs.Workload.Ledger
import RolloutControl.Proofs.Workload.Turn
import RolloutControl.Proofs.Workload.Snapshots
import RolloutControl.Proofs.Workload.Currency
import RolloutControl.Proofs.Simulation.Steady
import RolloutControl.Proofs.Document.Merge
import RolloutControl.Proofs.Observe.Order
import RolloutControl.Proofs.Observe.Fallback
import RolloutControl.Proofs.Effect.Update
import RolloutControl.Proofs.Observe.Repetition
import RolloutControl.Proofs.Workload.Preparation
import RolloutControl.Proofs.Workload.Forcing
import RolloutControl.Proofs.Observe.Stability
import RolloutControl.Proofs.Observe.Sequel
import RolloutControl.Proofs.Workload.Keeping
import RolloutControl.Proofs.Workload.Success
import RolloutControl.Proofs.Workload.Reports
import RolloutControl.Proofs.Workload.Idempotence
import RolloutControl.Proofs.Simulation.Keeping
import RolloutControl.Proofs.Simulation.Health
import RolloutControl.Proofs.Workload.Disturbance
import RolloutControl.Proofs.Observe.Likeness
import RolloutControl.Proofs.Observe.Tending
import RolloutControl.Proofs.Encryption.Replicas
import RolloutControl.Proofs.Workload.Standstill
import RolloutControl.Proofs.Workload.Rounds
import RolloutControl.Proofs.Encryption.Tracing
import RolloutControl.Proofs.Effect.Traffic
import RolloutControl.Proofs.Status.Ownership
import RolloutControl.Proofs.Status.Interleaving
import RolloutControl.Proofs.Queue.Course
import RolloutControl.Proofs.Loop.Course
import RolloutControl.Proofs.Queue.Growth
import RolloutControl.Proofs.Loop.Retries
import RolloutControl.Proofs.Loop.Cancellation
import RolloutControl.Proofs.Workload.Bookkeeping
import RolloutControl.Proofs.Effect.Attempts
import RolloutControl.Proofs.Workload.Quiet
import RolloutControl.Proofs.Workload.Progress
import RolloutControl.Proofs.Observe.Silence
import RolloutControl.Proofs.Document.Lens
import RolloutControl.Proofs.Cache.History
import RolloutControl.Proofs.Cluster.Labels
import RolloutControl.Proofs.Document.Layers
import RolloutControl.Proofs.Document.Extract
import RolloutControl.Proofs.Document.Difference
import RolloutControl.Proofs.Workload.Coherence
import RolloutControl.Proofs.Encryption.Agreement
import RolloutControl.Proofs.Cache.Mirror
import RolloutControl.Proofs.Status.Transitions
import RolloutControl.Proofs.Loop.Resync
import RolloutControl.Proofs.Net.Spelling
import RolloutControl.Proofs.Observe.Endpoints
import RolloutControl.Proofs.Queue.Persistence
import RolloutControl.Proofs.Time.Calendar
import RolloutControl.Proofs.Status.RoundTrip
