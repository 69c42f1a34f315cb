import DurableJobs.Duration
import DurableJobs.Store.Cell

/-!
What can go wrong, as causes, and the message of each cause.

A store error comes from a statement on the tables, an engine error from a request to the engine or
its writer, a job error from an execution. A broken execution leaves what it was broken with, a
`Breakdown`, of which only a text can be shown.
-/

set_option autoImplicit false

namespace DurableJobs

/-- What a broken execution leaves behind. -/
inductive Breakdown where
  | text (message : String)
  | other
deriving DecidableEq

namespace Breakdown

def message : Breakdown → String
  | .text message => message
  | .other => "non-string panic payload"

end Breakdown

inductive StoreError where
  | noRows
  | notReadOnly
  | returnedRows
  | parameterName (name : String)
  | cannotOpen (path : String)
  | readOnly
  | full
  | mismatch
  | noTable (table : String)
  | missingValue (column : String)
  | duplicate (column : String)
  | checkFailed (condition : String)
  | foreignKey
  | forbidden (message : String)
  /-- A transaction was to be ended in some way, and there is none. -/
  | noTransaction (request : String)
  | wrongKind (kind : Store.CellKind) (index : Nat) (column : String)
  | outOfRange (value : Int) (index : Nat)
  | timeOutOfRange (column : String) (value : Int)
  | notUuid (index : Nat)
deriving DecidableEq

namespace StoreError

def message : StoreError → String
  | .noRows => "Query returned no rows"
  | .notReadOnly => "Query is not read-only"
  | .returnedRows => "Execute returned results - did you mean to call query?"
  | .parameterName name => "Invalid parameter name: " ++ name
  | .cannotOpen path => "unable to open database file: " ++ path
  | .readOnly => "attempt to write a readonly database"
  | .full => "database or disk is full"
  | .mismatch => "datatype mismatch"
  | .noTable table => "no such table: " ++ table
  | .missingValue column => "NOT NULL constraint failed: " ++ column
  | .duplicate column => "UNIQUE constraint failed: " ++ column
  | .checkFailed condition => "CHECK constraint failed: " ++ condition
  | .foreignKey => "FOREIGN KEY constraint failed"
  | .forbidden message => message
  | .noTransaction request => "cannot " ++ request ++ " - no transaction is active"
  | .wrongKind kind index column =>
      "Invalid column type " ++ kind.name ++ " at index: " ++ toString index ++ ", name: " ++ column
  | .outOfRange value index => "Integer " ++ toString value ++ " out of range at index " ++
      toString index
  | .timeOutOfRange column value =>
      "Conversion error from type Integer at index: 0, " ++ column ++ " out of range: " ++
        toString value
  | .notUuid index => "not a uuid at index " ++ toString index

end StoreError

inductive EngineError where
  | store (error : StoreError)
  | broken (message : String)
  | canceled
  | shutDown (writer : String)
  | writerUnavailable (reason : String)
  | noRuntime
  | notRegistered (jobType : String)
  | alreadyRegistered (jobType : String)
  | serialization (reason : String)
  | config (reason : String)
  | internal (reason : String)
  | other (message : String)
deriving DecidableEq

namespace EngineError

def message : EngineError → String
  | .store (.notUuid index) => (StoreError.notUuid index).message
  | .store error => "sqlite error: " ++ error.message
  | .broken message => "write operation panicked: " ++ message
  | .canceled => "write operation was cancelled before it started"
  | .shutDown writer => "write serializer `" ++ writer ++ "` has been shut down"
  | .writerUnavailable reason => "write serializer unavailable: " ++ reason
  | .noRuntime => "no tokio runtime available to drive the write serializer"
  | .notRegistered jobType => "Job type not registered: " ++ jobType
  | .alreadyRegistered jobType => "Job type already registered: " ++ jobType
  | .serialization reason => "Serialization error: " ++ reason
  | .config reason => "invalid configuration: " ++ reason
  | .internal reason => "Internal error: " ++ reason
  | .other message => message

/-- Whether the writer has ended: nothing submitted to it will ever run. -/
def isShutdown : EngineError → Bool
  | .shutDown _ => true
  | .canceled => true
  | _ => false

def ofBreakdown (breakdown : Breakdown) : EngineError :=
  .broken breakdown.message

end EngineError

inductive JobError where
  | failed (message : String)
  | payload (jobType reason : String)
  | timedOut (limit : Duration)
  | broken (message : String)
  | storage (error : StoreError)
  | engine (error : EngineError)
  | other (message : String)
deriving DecidableEq

namespace JobError

def message : JobError → String
  | .failed message => "job failed: " ++ message
  | .payload jobType reason => "malformed payload for `" ++ jobType ++ "`: " ++ reason
  | .timedOut limit => "job exceeded its " ++ limit.text ++ " time limit"
  | .broken message => "job panicked: " ++ message
  | .storage error => error.message
  | .engine error => error.message
  | .other message => message

def isPayloadError : JobError → Bool
  | .payload _ _ => true
  | _ => false

def ofBreakdown (breakdown : Breakdown) : JobError :=
  .broken breakdown.message

end JobError

inductive Ending (Error Value : Type) where
  | done (value : Value)
  | failed (error : Error)
  | broken (breakdown : Breakdown)
deriving DecidableEq

namespace Ending

/-- The result of a unit of work: a break is an error like any other. -/
def result {Value : Type} : Ending EngineError Value → Except EngineError Value
  | .done value => .ok value
  | .failed error => .error error
  | .broken breakdown => .error (.ofBreakdown breakdown)

end Ending

end DurableJobs
