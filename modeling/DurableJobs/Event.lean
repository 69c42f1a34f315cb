import DurableJobs.Record

/-!
What the engine tells its subscribers, one event for each change in the life of a job.
-/

set_option autoImplicit false

namespace DurableJobs

inductive Change where
  | enqueued (jobType : String) (correlationId : Uuid) (coalesced : Bool)
  | started (jobType : String) (attempt : Nat)
  | retrying (jobType : String) (notBefore : Instant) (error : Option String)
  | completed (jobType : String)
  | superseded (survivor : Int)
  | failed (jobType error : String)
  | canceled
deriving DecidableEq

namespace Change

def name : Change → String
  | .enqueued .. => "enqueued"
  | .started .. => "started"
  | .retrying .. => "retrying"
  | .completed .. => "completed"
  | .superseded .. => "superseded"
  | .failed .. => "failed"
  | .canceled => "canceled"

end Change

structure Event where
  jobId : Int
  change : Change
  time : Instant
deriving DecidableEq

end DurableJobs
