import DurableJobs.Registry
import DurableJobs.Store.Settlement

/-!
Ticks of the dispatcher: which ready records are claimed, and how long the dispatcher then waits.

A tick looks at the first ready records of a batch, as they are started, leaving out the types of a
pool without a free slot. Transactional records are always claimed, normal and long-running ones as
long as their pool has free slots. A record whose type nobody executes is given up.
-/

set_option autoImplicit false

namespace DurableJobs

structure Lanes where
  normal : Nat
  longRunning : Nat
deriving DecidableEq

namespace Lanes

/-- The slots left once a record of the kind has one; a transactional one needs none. -/
def take? (lanes : Lanes) : ExecutorKind → Option Lanes
  | .transactional => some lanes
  | .normal =>
      if lanes.normal = 0 then none else some { lanes with normal := lanes.normal - 1 }
  | .longRunning =>
      if lanes.longRunning = 0 then none
      else some { lanes with longRunning := lanes.longRunning - 1 }

def release (lanes : Lanes) : ExecutorKind → Lanes
  | .transactional => lanes
  | .normal => { lanes with normal := lanes.normal + 1 }
  | .longRunning => { lanes with longRunning := lanes.longRunning + 1 }

def excluded (lanes : Lanes) (registry : Registry) : List String :=
  (if lanes.normal = 0 then registry.typesOf .normal else []) ++
    (if lanes.longRunning = 0 then registry.typesOf .longRunning else [])

end Lanes

inductive Pick where
  | claim (record : Record)
  | giveUp (record : Record)
deriving DecidableEq

/-- What a tick does with ready records; it leaves those without a free slot. -/
def pick (registry : Registry) : Lanes → List Record → List Pick
  | _, [] => []
  | lanes, record :: rest =>
      match registry.kindOf record.jobType with
      | none => .giveUp record :: pick registry lanes rest
      | some kind =>
          match lanes.take? kind with
          | some left => .claim record :: pick registry left rest
          | none => pick registry lanes rest

/-- What a look at the table tells: whether a tick has something to do, and when the next record may
be started. -/
structure Scan where
  isActionable : Bool
  nextDue : Option Instant
deriving DecidableEq

structure Tick where
  claimed : List Record
  unknown : List (Record × Settlement)
  /-- Whether the batch was full, so that there may be more to do. -/
  isSaturated : Bool
  nextDue : Option Instant
  now : Instant
deriving DecidableEq

namespace Tick

def idle (nextDue : Option Instant) (now : Instant) : Tick := ⟨[], [], false, nextDue, now⟩

/-- How long the dispatcher waits after a tick. A record that is due was left for lack of a free
slot, and will be started when an execution ends. -/
def wait (tick : Tick) (pollInterval : Duration) (now : Instant) : Duration :=
  if tick.isSaturated then Duration.zero
  else
    match tick.nextDue with
    | none => pollInterval
    | some due => if due ≤ tick.now then pollInterval else min (due.timeLeft now) pollInterval

end Tick

def unknownTypeMessage (jobType : String) : String :=
  "no executor registered for job type `" ++ jobType ++ "`"

namespace Store.Table

def scan (table : Table) (registry : Registry) (lanes : Lanes) (batch : Nat) (now : Instant) :
    Except StoreError Scan := do
  let ready ← table.ready now batch (lanes.excluded registry)
  let nextDue ← table.nextDue
  pure ⟨!(pick registry lanes ready).isEmpty, nextDue⟩

/-- Claims and gives up records in order: the claimed ones as they are then, the others with what
became of them. -/
def applyPicks (table : Table) (now : Instant) :
    List Pick → Answer (List Record × List (Record × Settlement))
  | [] => (.ok ([], []), table)
  | .giveUp record :: rest =>
      let error := unknownTypeMessage record.jobType
      match table.markFailed record.id record.nextFailures error now with
      | (.error failure, after) => (.error failure, after)
      | (.ok marked, after) =>
          match after.applyPicks now rest with
          | (.error failure, final) => (.error failure, final)
          | (.ok (claimed, unknown), final) =>
              let settlement := if marked then .deadLettered error else .missing
              (.ok (claimed, (record, settlement) :: unknown), final)
  | .claim record :: rest =>
      match table.claim record.id now with
      | (.error failure, after) => (.error failure, after)
      | (.ok claimed?, after) =>
          match after.applyPicks now rest with
          | (.error failure, final) => (.error failure, final)
          | (.ok (claimed, unknown), final) =>
              (.ok (claimed?.toList ++ claimed, unknown), final)

def tick (table : Table) (registry : Registry) (lanes : Lanes) (batch : Nat) (now : Instant) :
    Answer Tick :=
  match table.ready now batch (lanes.excluded registry) with
  | .error error => (.error error, table)
  | .ok ready =>
      match table.applyPicks now (pick registry lanes ready) with
      | (.error error, after) => (.error error, after)
      | (.ok (claimed, unknown), after) =>
          match after.nextDue with
          | .error error => (.error error, after)
          | .ok nextDue =>
              ( .ok
                  { claimed, unknown, nextDue, now
                    isSaturated := ready.length == batch && !claimed.isEmpty },
                after )

end Store.Table

end DurableJobs
