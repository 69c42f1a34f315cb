import DurableJobs.Job

/-!
Stored jobs.

A record is pending until it is claimed, running until its execution is settled, and failed once
its failures were too many. It counts how often it was claimed and how often its execution failed,
both up to 2^32 - 1.
-/

set_option autoImplicit false

namespace DurableJobs

inductive JobState where
  | pending
  | running
  | failed
deriving DecidableEq

namespace JobState

def all : List JobState := [.pending, .running, .failed]

def name : JobState → String
  | .pending => "pending"
  | .running => "running"
  | .failed => "failed"

def ofName? (name : String) : Option JobState :=
  all.find? fun state => state.name == name

def isPending (state : JobState) : Bool := state == .pending

end JobState

structure Record where
  id : Int
  jobType : String
  payload : Bytes
  priority : Priority
  notBefore : Instant
  debounceKey : Option String
  sagaId : Option Uuid
  correlationId : Uuid
  state : JobState
  attempts : Nat
  failures : Nat
  lastError : Option String
  createdAt : Instant
  updatedAt : Instant
deriving DecidableEq

namespace Record

def isReady (record : Record) (now : Instant) : Bool :=
  record.state.isPending && record.notBefore ≤ now

/-- The largest number of attempts or failures that is counted. -/
def countLimit : Nat := 0xffffffff

def nextFailures (record : Record) : Nat :=
  min (record.failures + 1) countLimit

end Record

end DurableJobs
