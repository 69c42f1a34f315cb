import DurableJobs.Payload
import DurableJobs.Metrics
import DurableJobs.Transaction
import DurableJobs.Items
import DurableJobs.Script.Spec
import DurableJobs.Writer.Session
import DurableJobs.Script.Display
import DurableJobs.Proofs.Store.Debounce
import DurableJobs.Proofs.Store.Supersession
import DurableJobs.Proofs.Engine.Claims
import DurableJobs.Proofs.Engine.Atomicity
import DurableJobs.Proofs.Writer.Steps
import DurableJobs.Proofs.Writer.Phases
import DurableJobs.Proofs.Writer.Journal
import DurableJobs.Proofs.Writer.Serialization
import DurableJobs.Proofs.Writer.Shutdown
import DurableJobs.Proofs.Writer.Joining
import DurableJobs.Proofs.Writer.Progress
import DurableJobs.Proofs.Engine.Deeds
import DurableJobs.Proofs.Engine.Fates
import DurableJobs.Proofs.Engine.Lifecycle
import DurableJobs.Proofs.Engine.DeadLetters
import DurableJobs.Proofs.Engine.Counts
import DurableJobs.Proofs.Store.Removals
import DurableJobs.Proofs.Engine.Announcements
import DurableJobs.Proofs.Engine.Ledger
import DurableJobs.Proofs.Engine.Wakings
import DurableJobs.Proofs.Store.Cells
import DurableJobs.Proofs.Store.Ready
import DurableJobs.Proofs.Engine.Regularity
import DurableJobs.Proofs.Engine.Pools
import DurableJobs.Proofs.Engine.Urgency
import DurableJobs.Proofs.Engine.DispatchOrder
import DurableJobs.Proofs.Engine.Callers
import DurableJobs.Proofs.Store.Reports
import DurableJobs.Proofs.Engine.Waits
import DurableJobs.Proofs.Engine.Deliveries
import DurableJobs.Proofs.Store.Recovery
import DurableJobs.Proofs.Backoff
import DurableJobs.Proofs.Engine.Delays
import DurableJobs.Proofs.Engine.Batches
import DurableJobs.Proofs.Engine.Starts
import DurableJobs.Proofs.Engine.Listings
import DurableJobs.Proofs.Store.Independence
import DurableJobs.Proofs.Engine.Tallies
import DurableJobs.Proofs.Engine.Balance
import DurableJobs.Proofs.Config.Numbers
import DurableJobs.Proofs.Config.Settings
import DurableJobs.Proofs.Config.Scopes
import DurableJobs.Proofs.Engine.Lookups
import DurableJobs.Proofs.AfterCommit
import DurableJobs.Proofs.Engine.Service
