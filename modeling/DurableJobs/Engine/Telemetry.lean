import DurableJobs.AfterCommit
import DurableJobs.Event
import DurableJobs.Metrics
import DurableJobs.Transaction

/-!
What an engine tells of its work: counts and events.

Only what was committed is told. A notice is something that was committed and is still to be told.
-/

set_option autoImplicit false

namespace DurableJobs

/-- The counts, and all events in the order in which they were published. -/
structure Telemetry where
  metrics : Metrics
  events : List Event

/-- Something committed that is to be told. -/
inductive Notice where
  | enqueued (jobs : List Enqueued)
  | effects (effects : AfterCommit)
  | settled (record : Record) (settlement : Settlement)
  | canceled (id : Int) (jobType : String)
  /-- A record was made pending again: only the dispatcher is told. -/
  | requeued

namespace Telemetry

def empty : Telemetry := ⟨Metrics.empty, []⟩

/-- Counts one more for a job type, if there is something to count, and publishes an event. -/
def tell (telemetry : Telemetry) (count : Option (String × Count)) (id : Int) (change : Change)
    (now : Instant) : Telemetry where
  metrics :=
    match count with
    | none => telemetry.metrics
    | some (jobType, count) => telemetry.metrics.add jobType count
  events := telemetry.events ++ [⟨id, change, now⟩]

def enqueued (telemetry : Telemetry) (job : Enqueued) (now : Instant) : Telemetry :=
  telemetry.tell
    (some (job.jobType, if job.receipt.isCoalesced then .coalesced else .enqueued)) job.receipt.id
    (.enqueued job.jobType job.correlationId job.receipt.isCoalesced) now

def started (telemetry : Telemetry) (record : Record) (now : Instant) : Telemetry :=
  telemetry.tell (some (record.jobType, .started)) record.id
    (.started record.jobType record.attempts) now

def canceled (telemetry : Telemetry) (id : Int) (jobType : String) (now : Instant) : Telemetry :=
  telemetry.tell (some (jobType, .canceled)) id .canceled now

def settled (telemetry : Telemetry) (record : Record) (settlement : Settlement) (now : Instant) :
    Telemetry :=
  let jobType := record.jobType
  match settlement with
  | .completed => telemetry.tell (some (jobType, .completed)) record.id (.completed jobType) now
  | .retrying notBefore error =>
      let count := if error.isSome then .failedAttempt else .retried
      telemetry.tell (some (jobType, count)) record.id (.retrying jobType notBefore error) now
  | .superseded survivor =>
      telemetry.tell (some (jobType, .superseded)) record.id (.superseded survivor) now
  | .deadLettered error =>
      telemetry.tell (some (jobType, .deadLettered)) record.id (.failed jobType error) now
  | .missing => telemetry

def notice (telemetry : Telemetry) (now : Instant) : Notice → Telemetry
  | .enqueued jobs => jobs.foldl (fun telemetry job => telemetry.enqueued job now) telemetry
  | .settled record settlement => telemetry.settled record settlement now
  | .canceled id jobType => telemetry.canceled id jobType now
  | .effects _ => telemetry
  | .requeued => telemetry

end Telemetry

end DurableJobs
