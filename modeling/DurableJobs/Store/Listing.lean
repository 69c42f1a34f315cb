import DurableJobs.Store.Table

/-!
What can be read from the job table.

Pending records are listed as they are started, by priority and then by age; failed ones by the last
change; all others by age. A listing is refused if one of its rows cannot be read.
-/

set_option autoImplicit false

namespace DurableJobs.Store

inductive JobFilter where
  | pending
  | running
  | failed
  | saga (id : Uuid)
  | correlation (id : Uuid)
deriving DecidableEq

namespace JobFilter

def admits (filter : JobFilter) (row : Row) : Bool :=
  match filter with
  | .pending => row.state == .pending
  | .running => row.state == .running
  | .failed => row.state == .failed
  | .saga id => row.sagaId == .text id.text
  | .correlation id => row.correlationId == .text id.text

/-- Whether the first row comes no later than the second one, which has no smaller id. -/
def isBefore (filter : JobFilter) (first second : Row) : Bool :=
  match filter with
  | .pending => second.priority.compare first.priority != .gt
  | .failed => second.updatedAt.compare first.updatedAt != .gt
  | _ => true

end JobFilter

def rowLimit (limit : Nat) : Nat := min limit 0x7fffffffffffffff

namespace Table

def get (table : Table) (id : Int) : Except StoreError (Option Record) :=
  match table.find? id with
  | none => .ok none
  | some row => row.record.map some

def admitted (table : Table) (filter : JobFilter) : List Row :=
  (table.rows.filter filter.admits).mergeSort filter.isBefore

def list (table : Table) (filter : JobFilter) (limit : Nat) : Except StoreError (List Record) :=
  ((table.admitted filter).take (rowLimit limit)).mapM Row.record

def count (table : Table) (filter : JobFilter) : Nat :=
  (table.rows.filter filter.admits).length

def isDue (now : Instant) (excluded : List String) (row : Row) : Bool :=
  row.notBefore.compare (.integer now.millis) != .gt &&
    excluded.all fun jobType => row.jobType != .text jobType

/-- The most types that can be excluded: a statement has at most 32766 values bound to it, and two of
these are the instant and the limit. The store refuses a longer list, which is not represented. -/
def excludedLimit : Nat := 32764

def ready (table : Table) (now : Instant) (limit : Nat) (excluded : List String) :
    Except StoreError (List Record) :=
  (((table.admitted .pending).filter (isDue now excluded)).take (rowLimit limit)).mapM Row.record

def smaller (first second : Cell) : Cell :=
  if second.compare first == .lt then second else first

def nextDue (table : Table) : Except StoreError (Option Instant) :=
  match (table.rows.filter fun row => row.state.isPending).map Row.notBefore with
  | [] => .ok none
  | first :: rest => do
      let millis ← Row.readInteger 0 "MIN(not_before)" (rest.foldl smaller first)
      pure (Instant.ofMillis? millis)

def runningIds (table : Table) : List Int :=
  (table.rows.filter fun row => row.state == .running).map Row.id

end Table

end DurableJobs.Store
