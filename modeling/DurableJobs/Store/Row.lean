import DurableJobs.Error
import DurableJobs.Record

/-!
Rows of the job table.

A row has a whole number for its id and one of the three states; its other columns hold any cell
that the table's rules admit. A row written for a job can be read as a record again. Of a row that
cannot, the first column in order that has no value of its type is the reason.
-/

set_option autoImplicit false

namespace DurableJobs.Store

structure Row where
  id : Int
  jobType : Cell
  payload : Cell
  priority : Cell
  notBefore : Cell
  debounceKey : Cell
  sagaId : Cell
  correlationId : Cell
  state : JobState
  attempts : Cell
  failures : Cell
  lastError : Cell
  createdAt : Cell
  updatedAt : Cell
deriving DecidableEq

namespace Row

def cells (row : Row) : List Cell :=
  [ .integer row.id, row.jobType, row.payload, row.priority, row.notBefore, row.debounceKey,
    row.sagaId, row.correlationId, .text row.state.name, row.attempts, row.failures, row.lastError,
    row.createdAt, row.updatedAt ]

/-! ### Reading -/

def readInteger (index : Nat) (column : String) : Cell → Except StoreError Int
  | .integer value => .ok value
  | cell => .error (.wrongKind cell.kind index column)

def readText (index : Nat) (column : String) : Cell → Except StoreError String
  | .text value => .ok value
  | cell => .error (.wrongKind cell.kind index column)

def readBytes (index : Nat) (column : String) : Cell → Except StoreError Bytes
  | .blob bytes => .ok bytes
  | cell => .error (.wrongKind cell.kind index column)

def readOptional {Value : Type} (read : Cell → Except StoreError Value) :
    Cell → Except StoreError (Option Value)
  | .null => .ok none
  | cell => (read cell).map some

def readUuid (index : Nat) (column : String) (cell : Cell) : Except StoreError Uuid := do
  match Uuid.ofText? (← readText index column cell) with
  | some id => pure id
  | none => .error (.notUuid index)

def readPriority (index : Nat) (column : String) (cell : Cell) : Except StoreError Priority := do
  let value ← readInteger index column cell
  match Priority.ofNumber? value with
  | some priority => pure priority
  | none => .error (.outOfRange value index)

def readCount (index : Nat) (column : String) (cell : Cell) : Except StoreError Nat := do
  let value ← readInteger index column cell
  if 0 ≤ value ∧ value ≤ Record.countLimit then pure value.toNat
  else .error (.outOfRange value index)

def readInstant (index : Nat) (column : String) (cell : Cell) : Except StoreError Instant := do
  let value ← readInteger index column cell
  match Instant.ofMillis? value with
  | some instant => pure instant
  | none => .error (.timeOutOfRange column value)

def record (row : Row) : Except StoreError Record := do
  let jobType ← readText 1 "job_type" row.jobType
  let payload ← readBytes 2 "payload" row.payload
  let priority ← readPriority 3 "priority" row.priority
  let notBefore ← readInstant 4 "not_before" row.notBefore
  let debounceKey ← readOptional (readText 5 "debounce_key") row.debounceKey
  let sagaId ← readOptional (readUuid 6 "saga_id") row.sagaId
  let correlationId ← readUuid 7 "correlation_id" row.correlationId
  let attempts ← readCount 9 "attempts" row.attempts
  let failures ← readCount 10 "failures" row.failures
  let lastError ← readOptional (readText 11 "last_error") row.lastError
  let createdAt ← readInstant 12 "created_at" row.createdAt
  let updatedAt ← readInstant 13 "updated_at" row.updatedAt
  pure
    { id := row.id, state := row.state, jobType, payload, priority, notBefore, debounceKey, sagaId
      correlationId, attempts, failures, lastError, createdAt, updatedAt }

/-! ### Writing -/

def ofJob (id : Int) (job : Job) (now : Instant) : Row where
  id := id
  jobType := .text job.jobType
  payload := .blob job.payload
  priority := .integer job.priority.number
  notBefore := .integer (job.notBeforeAt now).millis
  debounceKey := .ofText? job.debounceKey
  sagaId := .ofText? (job.sagaId.map Uuid.text)
  correlationId := .text job.correlationId.text
  state := .pending
  attempts := .integer 0
  failures := .integer 0
  lastError := .null
  createdAt := .integer now.millis
  updatedAt := .integer now.millis

/-- The row once a newer job with its key has taken its place; id, key and creation stay. -/
def coalesce (row : Row) (job : Job) (now : Instant) : Row :=
  { ofJob row.id job now with debounceKey := row.debounceKey, createdAt := row.createdAt }

def claim (row : Row) (now : Instant) : Row :=
  { row with
    state := .running
    attempts := row.attempts.increment
    updatedAt := .integer now.millis }

def reschedule (row : Row) (notBefore now : Instant) : Row :=
  { row with
    state := .pending
    notBefore := .integer notBefore.millis
    updatedAt := .integer now.millis }

def noteFailure (row : Row) (failures : Nat) (error : String) : Row :=
  { row with failures := .integer failures, lastError := .text error }

def fail (row : Row) (failures : Nat) (error : String) (now : Instant) : Row :=
  { row.noteFailure failures error with state := .failed, updatedAt := .integer now.millis }

def resetCounts (row : Row) : Row :=
  { row with attempts := .integer 0, failures := .integer 0, lastError := .null }

end Row

end DurableJobs.Store
