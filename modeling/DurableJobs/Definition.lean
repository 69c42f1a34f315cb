import DurableJobs.Payload
import DurableJobs.Record

/-!
Definitions of job types, and how jobs and executions carry their payloads.

A definition names a type of jobs and tells their priority and which of them are coalesced. A job made
from it holds its payload encoded. An executor of the type is called with the payload decoded; a
payload that cannot be decoded fails the execution before the executor is called.
-/

set_option autoImplicit false

namespace DurableJobs

variable {Value : Type} [Payload Value]

def Job.json (jobType : String) (value : Value) (correlation : Uuid) : Job :=
  Job.new jobType (Payload.encode value) correlation

structure Definition (Value : Type) where
  jobType : String
  priority : Priority := default
  debounceKey : Value → Option String := fun _ => none

namespace Definition

def job (definition : Definition Value) (value : Value) (correlation : Uuid) : Job :=
  { (Job.json definition.jobType value correlation).withPriority definition.priority with
    debounceKey := definition.debounceKey value }

/-- Calls an executor on a record, or refuses the record if its payload cannot be decoded. -/
def deliver {Result : Type} (definition : Definition Value) (refuse : JobError → Result)
    (execute : Value → Record → Result) (record : Record) : Result :=
  match (Payload.decode definition.jobType record.payload : Except JobError Value) with
  | .ok value => execute value record
  | .error error => refuse error

end Definition

end DurableJobs
