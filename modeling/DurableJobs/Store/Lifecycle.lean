import DurableJobs.Store.Listing

/-!
What happens to records: they are enqueued, claimed, completed, rescheduled, given up, canceled and
requeued.

A job with a debounce key takes the place of the pending record with that key, if there is one. A
record that is to become pending again gives way to a pending record with its key, and is removed.
-/

set_option autoImplicit false

namespace DurableJobs.Store

structure Receipt where
  id : Int
  isCoalesced : Bool
deriving DecidableEq

/-- What became of a record that was to be pending again. -/
inductive Rescheduled where
  | pending (notBefore : Instant)
  | superseded (survivor : Int)
  | missing
deriving DecidableEq

structure Failure where
  failures : Nat
  error : String
deriving DecidableEq

namespace Table

def pendingWithKey? (table : Table) (key : String) : Option Row :=
  table.rows.find? fun row => row.state.isPending && row.debounceKey == .text key

def pendingSibling? (table : Table) (key : String) (id : Int) : Option Row :=
  table.rows.find? fun row =>
    row.state.isPending && row.debounceKey == .text key && row.id != id

def enqueue (table : Table) (job : Job) (now : Instant) : Answer Receipt :=
  match job.debounceKey.bind table.pendingWithKey? with
  | some row =>
      match table.change row.id fun row => row.coalesce job now with
      | (.error error, after) => (.error error, after)
      | (.ok _, after) => (.ok ⟨row.id, true⟩, after)
  | none =>
      match table.nextId? with
      | none => (.error .full, table)
      | some id =>
          match table.insert (Row.ofJob id job now) with
          | .error error => (.error error, table)
          | .ok after => (.ok ⟨id, false⟩, after)

/-- Enqueues jobs of one correlation. The first refusal ends it and keeps what was enqueued. -/
def enqueueAll (table : Table) (jobs : List Job) (correlation : Uuid) (now : Instant) :
    Answer (List Receipt) :=
  match jobs with
  | [] => (.ok [], table)
  | job :: rest =>
      match table.enqueue (job.withCorrelationId correlation) now with
      | (.error error, after) => (.error error, after)
      | (.ok receipt, after) =>
          match after.enqueueAll rest correlation now with
          | (.error error, final) => (.error error, final)
          | (.ok receipts, final) => (.ok (receipt :: receipts), final)

/-- Takes a pending record for an execution; the answer is the record as it is then. -/
def claim (table : Table) (id : Int) (now : Instant) : Answer (Option Record) :=
  match table.find? id with
  | none => (.ok none, table)
  | some row =>
      if row.state.isPending then
        match table.change id fun row => row.claim now with
        | (.error error, after) => (.error error, after)
        | (.ok none, after) => (.ok none, after)
        | (.ok (some claimed), after) => (claimed.record.map some, after)
      else (.ok none, table)

def complete (table : Table) (id : Int) : Answer Bool :=
  match table.delete id with
  | (.error error, after) => (.error error, after)
  | (.ok removed, after) => (.ok removed.isSome, after)

/-- Makes a record pending again, unless a pending record has its debounce key. -/
def reschedule (table : Table) (id : Int) (notBefore : Instant) (failure : Option Failure)
    (now : Instant) : Answer Rescheduled :=
  match table.find? id with
  | none => (.ok .missing, table)
  | some row =>
      match Row.readOptional (Row.readText 0 "debounce_key") row.debounceKey with
      | .error error => (.error error, table)
      | .ok key =>
          match key.bind fun key => table.pendingSibling? key id with
          | some survivor =>
              match table.delete id with
              | (.error error, after) => (.error error, after)
              | (.ok _, after) => (.ok (.superseded survivor.id), after)
          | none =>
              let edit := fun (row : Row) =>
                match failure with
                | none => row.reschedule notBefore now
                | some failure =>
                    (row.reschedule notBefore now).noteFailure failure.failures failure.error
              match table.change id edit with
              | (.error error, after) => (.error error, after)
              | (.ok _, after) => (.ok (.pending notBefore), after)

def markFailed (table : Table) (id : Int) (failures : Nat) (error : String) (now : Instant) :
    Answer Bool :=
  match table.change id fun row => row.fail failures error now with
  | (.error error, after) => (.error error, after)
  | (.ok changed, after) => (.ok changed.isSome, after)

def cancel (table : Table) (id : Int) : Answer (Option String) :=
  match table.find? id with
  | none => (.ok none, table)
  | some row =>
      if row.state.isPending then
        match table.delete id with
        | (.error error, after) => (.error error, after)
        | (.ok _, after) => ((Row.readText 0 "job_type" row.jobType).map some, after)
      else (.ok none, table)

/-- Makes a failed record pending again, as if it had never been started. -/
def requeue (table : Table) (id : Int) (now : Instant) : Answer Rescheduled :=
  match table.find? id with
  | none => (.ok .missing, table)
  | some row =>
      if row.state = .failed then
        match table.reschedule id now none now with
        | (.ok (.pending notBefore), after) =>
            match after.change id Row.resetCounts with
            | (.error error, final) => (.error error, final)
            | (.ok _, final) => (.ok (.pending notBefore), final)
        | other => other
      else (.ok .missing, table)

end Table

end DurableJobs.Store
