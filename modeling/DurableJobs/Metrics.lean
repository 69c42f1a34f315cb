import DurableJobs.Json

/-!
Counts of what happened to jobs: of all of them, and of each job type.

They are numbers without an end. Counters of 64 bits show the same as long as no more than 2^64 - 1 of a
kind were counted.
-/

set_option autoImplicit false

namespace DurableJobs

inductive Count where
  | enqueued
  | coalesced
  | started
  | completed
  | retried
  | failedAttempt
  | deadLettered
  | superseded
  | canceled
deriving DecidableEq

structure Counts where
  enqueued : Nat
  coalesced : Nat
  started : Nat
  completed : Nat
  retried : Nat
  failedAttempts : Nat
  deadLettered : Nat
  superseded : Nat
  canceled : Nat
deriving DecidableEq

namespace Counts

def zero : Counts := ⟨0, 0, 0, 0, 0, 0, 0, 0, 0⟩

def add (counts : Counts) : Count → Counts
  | .enqueued => { counts with enqueued := counts.enqueued + 1 }
  | .coalesced => { counts with coalesced := counts.coalesced + 1 }
  | .started => { counts with started := counts.started + 1 }
  | .completed => { counts with completed := counts.completed + 1 }
  | .retried => { counts with retried := counts.retried + 1 }
  | .failedAttempt => { counts with failedAttempts := counts.failedAttempts + 1 }
  | .deadLettered => { counts with deadLettered := counts.deadLettered + 1 }
  | .superseded => { counts with superseded := counts.superseded + 1 }
  | .canceled => { counts with canceled := counts.canceled + 1 }

def removed (counts : Counts) : Nat :=
  counts.completed + counts.superseded + counts.canceled

/-- The completed part of all finished executions in percent; 100 if there were none. -/
def successRate (counts : Counts) : Float :=
  let finished := counts.completed + counts.failedAttempts
  if finished = 0 then 100.0
  else (counts.completed.toFloat / finished.toFloat) * 100.0

def entries (counts : Counts) : List (String × Nat) :=
  [ ("enqueued", counts.enqueued), ("coalesced", counts.coalesced), ("started", counts.started),
    ("completed", counts.completed), ("retried", counts.retried),
    ("failed_attempts", counts.failedAttempts), ("dead_lettered", counts.deadLettered),
    ("superseded", counts.superseded), ("canceled", counts.canceled) ]

def globalEntries (counts : Counts) : List (String × Nat) :=
  counts.entries.map fun entry =>
    if entry.1 == "failed_attempts" then entry else ("jobs_" ++ entry.1, entry.2)

end Counts

structure Metrics where
  global : Counts
  /-- The types in the order in which they were first counted. -/
  byType : List (String × Counts)
deriving DecidableEq

namespace Metrics

def empty : Metrics := ⟨Counts.zero, []⟩

def addFor (jobType : String) (count : Count) :
    List (String × Counts) → List (String × Counts)
  | [] => [(jobType, Counts.zero.add count)]
  | (other, counts) :: rest =>
      if other = jobType then (other, counts.add count) :: rest
      else (other, counts) :: addFor jobType count rest

def add (metrics : Metrics) (jobType : String) (count : Count) : Metrics :=
  ⟨metrics.global.add count, addFor jobType count metrics.byType⟩

def countsOf? (metrics : Metrics) (jobType : String) : Option Counts :=
  (metrics.byType.find? fun entry => entry.1 == jobType).map (·.2)

def text (metrics : Metrics) : String :=
  let entries := metrics.global.globalEntries.map fun entry => entry.1 ++ ": " ++ toString entry.2
  "LiveMetrics \x7b global: GlobalMetrics \x7b " ++ String.intercalate ", " entries ++
    " \x7d, .. \x7d"

def countsDocument (entries : List (String × Nat)) : Json :=
  .object (entries.map fun entry => (entry.1, .integer entry.2))

def rateDocument (counts : Counts) : Json :=
  .text (toString counts.successRate.toBits.toNat)

def document (metrics : Metrics) (asked : List String) : Json :=
  .object
    [ ("global", countsDocument metrics.global.globalEntries),
      ("removed", .integer metrics.global.removed),
      ("success_rate_bits", rateDocument metrics.global),
      ("job_types",
        .object (metrics.byType.map fun entry => (entry.1, countsDocument entry.2.entries))),
      ("asked", .object (asked.map fun jobType =>
        (jobType, .ofOption (fun counts =>
          .object
            [ ("counts", countsDocument counts.entries),
              ("success_rate_bits", rateDocument counts) ]) (metrics.countsOf? jobType)))) ]

end Metrics

end DurableJobs
