import DurableJobs.Instant
import DurableJobs.Priority
import DurableJobs.Uuid
import DurableJobs.Bytes

/-!
Jobs to be enqueued.

A job may wait for an instant or for a delay after it was enqueued, never both: asking for one
drops the other. Jobs with one debounce key are coalesced while they are pending. Jobs of one saga
follow each other; jobs of one correlation belong together.
-/

set_option autoImplicit false

namespace DurableJobs

structure Job where
  jobType : String
  payload : Bytes
  priority : Priority
  notBefore : Option Instant
  delay : Option Duration
  debounceKey : Option String
  sagaId : Option Uuid
  correlationId : Uuid
deriving DecidableEq

namespace Job

def new (jobType : String) (payload : Bytes) (correlationId : Uuid) : Job where
  jobType := jobType
  payload := payload
  priority := default
  notBefore := none
  delay := none
  debounceKey := none
  sagaId := none
  correlationId := correlationId

def withPriority (job : Job) (priority : Priority) : Job :=
  { job with priority := priority }

def withDelay (job : Job) (delay : Duration) : Job :=
  { job with delay := some delay, notBefore := none }

def withNotBefore (job : Job) (instant : Instant) : Job :=
  { job with notBefore := some instant, delay := none }

def withDebounceKey (job : Job) (key : String) : Job :=
  { job with debounceKey := some key }

def inSaga (job : Job) (saga : Uuid) : Job :=
  { job with sagaId := some saga }

def withCorrelationId (job : Job) (correlation : Uuid) : Job :=
  { job with correlationId := correlation }

def notBeforeAt (job : Job) (now : Instant) : Instant :=
  match job.notBefore, job.delay with
  | some instant, _ => instant
  | none, some delay => now.after delay
  | none, none => now

end Job

end DurableJobs
