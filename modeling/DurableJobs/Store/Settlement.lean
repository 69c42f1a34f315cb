import DurableJobs.Store.Lifecycle
import DurableJobs.Retry
import DurableJobs.Config

/-!
How executions end in the store.

A successful execution removes its record, one that asks to be run again makes it pending, and a
failed one makes it pending after the delay of the retry policy, or failed when the failures of the
policy are used up. Records found running at the start were left by a process that died; they become
pending without a failure being counted.
-/

set_option autoImplicit false

namespace DurableJobs

inductive Outcome where
  | success
  | retryAfter (delay : Duration)
deriving DecidableEq

inductive Settlement where
  | completed
  | retrying (notBefore : Instant) (error : Option String)
  | superseded (survivor : Int)
  | deadLettered (error : String)
  | missing
deriving DecidableEq

namespace Settlement

def ofRescheduled (error : Option String) : Store.Rescheduled → Settlement
  | .pending notBefore => .retrying notBefore error
  | .superseded survivor => .superseded survivor
  | .missing => .missing

end Settlement

namespace Store.Table

def settleOutcome (table : Table) (record : Record) (outcome : Outcome) (now : Instant) :
    Answer Settlement :=
  match outcome with
  | .success =>
      match table.complete record.id with
      | (.error error, after) => (.error error, after)
      | (.ok removed, after) => (.ok (if removed then .completed else .missing), after)
  | .retryAfter delay =>
      match table.reschedule record.id (now.after delay) none now with
      | (.error error, after) => (.error error, after)
      | (.ok rescheduled, after) => (.ok (.ofRescheduled none rescheduled), after)

/-- Settles a failed execution; the draw decides the delay where the policy leaves a choice. -/
def settleFailure (table : Table) (record : Record) (error : JobError) (policy : RetryPolicy)
    (draw : Nat) (now : Instant) : Answer Settlement :=
  let failures := record.nextFailures
  let message := error.message
  if policy.isExhausted failures then
    match table.markFailed record.id failures message now with
    | (.error error, after) => (.error error, after)
    | (.ok marked, after) => (.ok (if marked then .deadLettered message else .missing), after)
  else
    let notBefore := now.after (policy.backoff.delayFor failures draw)
    match table.reschedule record.id notBefore (some ⟨failures, message⟩) now with
    | (.error error, after) => (.error error, after)
    | (.ok rescheduled, after) => (.ok (.ofRescheduled (some message) rescheduled), after)

def settle (table : Table) (record : Record) (result : Except JobError Outcome)
    (policy : RetryPolicy) (draw : Nat) (now : Instant) : Answer Settlement :=
  match result with
  | .ok outcome => table.settleOutcome record outcome now
  | .error error => table.settleFailure record error policy draw now

/-- Reschedules records in order. The first refusal ends it. -/
def rescheduleAll (table : Table) (ids : List Int) (notBefore now : Instant) :
    Answer (List (Int × Rescheduled)) :=
  match ids with
  | [] => (.ok [], table)
  | id :: rest =>
      match table.reschedule id notBefore none now with
      | (.error error, after) => (.error error, after)
      | (.ok rescheduled, after) =>
          match after.rescheduleAll rest notBefore now with
          | (.error error, final) => (.error error, final)
          | (.ok others, final) => (.ok ((id, rescheduled) :: others), final)

def recover (table : Table) (recovery : Recovery) (policy : RetryPolicy) (draw : Nat)
    (now : Instant) : Answer (List (Int × Rescheduled)) :=
  let notBefore :=
    match recovery with
    | .immediately => now
    | .withBackoff => now.after (policy.backoff.delayFor 1 draw)
  table.rescheduleAll table.runningIds notBefore now

end Store.Table

end DurableJobs
