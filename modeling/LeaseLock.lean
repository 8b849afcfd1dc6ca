import LeaseLock.Main
import LeaseLock.Rehearsal.Session
import LeaseLock.Proofs.Number.Digits
import LeaseLock.Proofs.Number.Nearest
import LeaseLock.Proofs.Number.Binary64
import LeaseLock.Proofs.Time.Ordinary
import LeaseLock.Proofs.Time.Calendar
import LeaseLock.Proofs.Time.InstantText
import LeaseLock.Proofs.Time.Span
import LeaseLock.Proofs.Time.Seconds
import LeaseLock.Proofs.Time.Shift
import LeaseLock.Proofs.Json.Grammar
import LeaseLock.Proofs.Json.Document
import LeaseLock.Proofs.Json.Printer
import LeaseLock.Proofs.Json.Record
import LeaseLock.Proofs.Lock.Form
import LeaseLock.Proofs.Lock.Demand
import LeaseLock.Proofs.Lock.Backoff
import LeaseLock.Proofs.Store.Keyed
import LeaseLock.Proofs.Store.Tenure
import LeaseLock.Proofs.Store.Registry
import LeaseLock.Proofs.Store.Database
import LeaseLock.Proofs.Store.Run
import LeaseLock.Proofs.Store.Agreement
import LeaseLock.Proofs.Store.Exclusion
import LeaseLock.Proofs.Store.Upkeep
import LeaseLock.Proofs.Store.Lasting
import LeaseLock.Proofs.Store.Purge
import LeaseLock.Proofs.Store.Expiry
import LeaseLock.Proofs.Store.Interference
import LeaseLock.Proofs.Store.Prediction
import LeaseLock.Proofs.Store.Counts
import LeaseLock.Proofs.Store.Failure
import LeaseLock.Proofs.Store.Evaluation
import LeaseLock.Proofs.Coordinator.Contract
import LeaseLock.Proofs.Coordinator.Credential
import LeaseLock.Proofs.Coordinator.OpenCluster
import LeaseLock.Proofs.Coordinator.Account
import LeaseLock.Proofs.Coordinator.Rejection
import LeaseLock.Proofs.Coordinator.Retry
import LeaseLock.Proofs.Coordinator.Tokens
import LeaseLock.Proofs.Coordinator.SingleUse
import LeaseLock.Proofs.Coordinator.Cluster
import LeaseLock.Proofs.Coordinator.ClusterWithProgram
import LeaseLock.Proofs.Coordinator.Closing
import LeaseLock.Proofs.Coordinator.ConcurrentCluster
import LeaseLock.Proofs.Coordinator.ClosedStore
import LeaseLock.Proofs.Coordinator.Limits
import LeaseLock.Proofs.Coordinator.Embedding
import LeaseLock.Proofs.Coordinator.Bookkeeping
import LeaseLock.Proofs.Coordinator.Ledger
import LeaseLock.Proofs.Coordinator.Admission
import LeaseLock.Proofs.Coordinator.Elapsed
import LeaseLock.Proofs.Number.Whole
import LeaseLock.Proofs.Lock.Curve
import LeaseLock.Proofs.Lock.Spread
import LeaseLock.Proofs.Coordinator.Draws
import LeaseLock.Proofs.Sql.Binding
import LeaseLock.Proofs.Sql.Rendering
import LeaseLock.Proofs.Cli.Acquire
import LeaseLock.Proofs.Config.Environment
import LeaseLock.Proofs.Config.Numbers
import LeaseLock.Proofs.Config.Spelling
import LeaseLock.Proofs.Coordinator.Health
import LeaseLock.Proofs.Config.Precedence
import LeaseLock.Proofs.Sql.Location
