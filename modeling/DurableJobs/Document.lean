import DurableJobs.Json.Printer
import DurableJobs.Json.Reader
import DurableJobs.Instant.Written
import DurableJobs.Event

/-!
The JSON documents of jobs, records and events.

A document is an object with one field for each part, in the order of the parts. Reading passes over
unknown fields and takes a missing optional part for absent; spans of time know no other fields.
-/

set_option autoImplicit false

namespace DurableJobs

open Json (Reader)
open Json.Reader (Shape field required)

def Json.ofNat (value : Nat) : Json := .integer value

def Json.ofBytes (bytes : Bytes) : Json :=
  .array (bytes.map fun byte => .integer byte.toNat)

/-! ### Parts -/

def Duration.document (duration : Duration) : Json :=
  .object [("secs", .ofNat duration.seconds), ("nanos", .ofNat duration.subsecNanos)]

structure DurationDraft where
  seconds : Option Nat := none
  nanos : Option Nat := none

def Duration.reader : Reader Duration :=
  Shape.reader
    { wanted := "struct Duration"
      fields :=
        [ field "secs" DurationDraft.seconds
            (fun draft value => { draft with seconds := some value }) Reader.nat64,
          field "nanos" DurationDraft.nanos
            (fun draft value => { draft with nanos := some value }) Reader.nat32 ]
      blank := {}
      allowsUnknown := false
      finish := fun draft => do
        let seconds ← required "secs" draft.seconds
        let nanos ← required "nanos" draft.nanos
        match Duration.ofParts? seconds nanos with
        | some duration => pure duration
        | none => .error (.unreadable "span of time") }

def Instant.document (instant : Instant) : Json := .text instant.written

def Instant.reader : Reader Instant :=
  Reader.parsed "time" Instant.ofWritten?

def Uuid.document (id : Uuid) : Json := .text id.text

def Uuid.reader : Reader Uuid :=
  Reader.parsed "identifier" Uuid.ofText?

def Priority.documentName : Priority → String
  | .low => "Low"
  | .normal => "Normal"
  | .high => "High"
  | .critical => "Critical"

def Priority.document (priority : Priority) : Json := .text priority.documentName

def Priority.reader : Reader Priority :=
  Reader.variant (Priority.all.map fun priority => (priority.documentName, priority))

def JobState.documentName : JobState → String
  | .pending => "Pending"
  | .running => "Running"
  | .failed => "Failed"

def JobState.document (state : JobState) : Json := .text state.documentName

def JobState.reader : Reader JobState :=
  Reader.variant (JobState.all.map fun state => (state.documentName, state))

def bytesReader : Reader Bytes := Reader.list Reader.byte

/-! ### Jobs -/

def Job.document (job : Job) : Json :=
  .object
    [ ("job_type", .text job.jobType),
      ("payload", .ofBytes job.payload),
      ("priority", job.priority.document),
      ("not_before", .ofOption Instant.document job.notBefore),
      ("delay", .ofOption Duration.document job.delay),
      ("debounce_key", .ofOption Json.text job.debounceKey),
      ("saga_id", .ofOption Uuid.document job.sagaId),
      ("correlation_id", job.correlationId.document) ]

structure JobDraft where
  jobType : Option String := none
  payload : Option Bytes := none
  priority : Option Priority := none
  notBefore : Option (Option Instant) := none
  delay : Option (Option Duration) := none
  debounceKey : Option (Option String) := none
  sagaId : Option (Option Uuid) := none
  correlationId : Option Uuid := none

def Job.reader : Reader Job :=
  Shape.reader
    { wanted := "struct NewJob"
      fields :=
        [ field "job_type" JobDraft.jobType
            (fun draft value => { draft with jobType := some value }) Reader.text,
          field "payload" JobDraft.payload
            (fun draft value => { draft with payload := some value }) bytesReader,
          field "priority" JobDraft.priority
            (fun draft value => { draft with priority := some value }) Priority.reader,
          field "not_before" JobDraft.notBefore
            (fun draft value => { draft with notBefore := some value })
            (Reader.optional Instant.reader),
          field "delay" JobDraft.delay
            (fun draft value => { draft with delay := some value })
            (Reader.optional Duration.reader),
          field "debounce_key" JobDraft.debounceKey
            (fun draft value => { draft with debounceKey := some value })
            (Reader.optional Reader.text),
          field "saga_id" JobDraft.sagaId
            (fun draft value => { draft with sagaId := some value }) (Reader.optional Uuid.reader),
          field "correlation_id" JobDraft.correlationId
            (fun draft value => { draft with correlationId := some value }) Uuid.reader ]
      blank := {}
      allowsUnknown := true
      finish := fun draft => do
        let jobType ← required "job_type" draft.jobType
        let payload ← required "payload" draft.payload
        let priority ← required "priority" draft.priority
        let correlationId ← required "correlation_id" draft.correlationId
        pure
          { jobType, payload, priority, correlationId
            notBefore := draft.notBefore.join
            delay := draft.delay.join
            debounceKey := draft.debounceKey.join
            sagaId := draft.sagaId.join } }

/-! ### Records -/

def Record.document (record : Record) : Json :=
  .object
    [ ("id", .integer record.id),
      ("job_type", .text record.jobType),
      ("payload", .ofBytes record.payload),
      ("priority", record.priority.document),
      ("not_before", record.notBefore.document),
      ("debounce_key", .ofOption Json.text record.debounceKey),
      ("saga_id", .ofOption Uuid.document record.sagaId),
      ("correlation_id", record.correlationId.document),
      ("state", record.state.document),
      ("attempts", .ofNat record.attempts),
      ("failures", .ofNat record.failures),
      ("last_error", .ofOption Json.text record.lastError),
      ("created_at", record.createdAt.document),
      ("updated_at", record.updatedAt.document) ]

structure RecordDraft where
  id : Option Int := none
  jobType : Option String := none
  payload : Option Bytes := none
  priority : Option Priority := none
  notBefore : Option Instant := none
  debounceKey : Option (Option String) := none
  sagaId : Option (Option Uuid) := none
  correlationId : Option Uuid := none
  state : Option JobState := none
  attempts : Option Nat := none
  failures : Option Nat := none
  lastError : Option (Option String) := none
  createdAt : Option Instant := none
  updatedAt : Option Instant := none

def Record.reader : Reader Record :=
  Shape.reader
    { wanted := "struct JobRecord"
      fields :=
        [ field "id" RecordDraft.id (fun draft value => { draft with id := some value })
            Reader.int64,
          field "job_type" RecordDraft.jobType
            (fun draft value => { draft with jobType := some value }) Reader.text,
          field "payload" RecordDraft.payload
            (fun draft value => { draft with payload := some value }) bytesReader,
          field "priority" RecordDraft.priority
            (fun draft value => { draft with priority := some value }) Priority.reader,
          field "not_before" RecordDraft.notBefore
            (fun draft value => { draft with notBefore := some value }) Instant.reader,
          field "debounce_key" RecordDraft.debounceKey
            (fun draft value => { draft with debounceKey := some value })
            (Reader.optional Reader.text),
          field "saga_id" RecordDraft.sagaId
            (fun draft value => { draft with sagaId := some value }) (Reader.optional Uuid.reader),
          field "correlation_id" RecordDraft.correlationId
            (fun draft value => { draft with correlationId := some value }) Uuid.reader,
          field "state" RecordDraft.state
            (fun draft value => { draft with state := some value }) JobState.reader,
          field "attempts" RecordDraft.attempts
            (fun draft value => { draft with attempts := some value }) Reader.nat32,
          field "failures" RecordDraft.failures
            (fun draft value => { draft with failures := some value }) Reader.nat32,
          field "last_error" RecordDraft.lastError
            (fun draft value => { draft with lastError := some value })
            (Reader.optional Reader.text),
          field "created_at" RecordDraft.createdAt
            (fun draft value => { draft with createdAt := some value }) Instant.reader,
          field "updated_at" RecordDraft.updatedAt
            (fun draft value => { draft with updatedAt := some value }) Instant.reader ]
      blank := {}
      allowsUnknown := true
      finish := fun draft => do
        let id ← required "id" draft.id
        let jobType ← required "job_type" draft.jobType
        let payload ← required "payload" draft.payload
        let priority ← required "priority" draft.priority
        let notBefore ← required "not_before" draft.notBefore
        let correlationId ← required "correlation_id" draft.correlationId
        let state ← required "state" draft.state
        let attempts ← required "attempts" draft.attempts
        let failures ← required "failures" draft.failures
        let createdAt ← required "created_at" draft.createdAt
        let updatedAt ← required "updated_at" draft.updatedAt
        pure
          { id, jobType, payload, priority, notBefore, correlationId, state, attempts, failures
            createdAt, updatedAt
            debounceKey := draft.debounceKey.join
            sagaId := draft.sagaId.join
            lastError := draft.lastError.join } }

/-! ### Events -/

def Change.documentName : Change → String
  | .enqueued .. => "Enqueued"
  | .started .. => "Started"
  | .retrying .. => "Retrying"
  | .completed .. => "Completed"
  | .superseded .. => "Superseded"
  | .failed .. => "Failed"
  | .canceled => "Canceled"

def Change.fields : Change → List (String × Json)
  | .enqueued jobType correlationId coalesced =>
      [ ("job_type", .text jobType), ("correlation_id", correlationId.document),
        ("coalesced", .boolean coalesced) ]
  | .started jobType attempt => [("job_type", .text jobType), ("attempt", .ofNat attempt)]
  | .retrying jobType notBefore error =>
      [ ("job_type", .text jobType), ("not_before", notBefore.document),
        ("error", .ofOption Json.text error) ]
  | .completed jobType => [("job_type", .text jobType)]
  | .superseded survivor => [("by", .integer survivor)]
  | .failed jobType error => [("job_type", .text jobType), ("error", .text error)]
  | .canceled => []

def Event.document (event : Event) : Json :=
  .object
    [ ( event.change.documentName
      , .object (("job_id", .integer event.jobId) :: event.change.fields ++
          [("at", event.time.document)]) ) ]

structure EventDraft where
  jobId : Option Int := none
  jobType : Option String := none
  correlationId : Option Uuid := none
  coalesced : Option Bool := none
  attempt : Option Nat := none
  notBefore : Option Instant := none
  error : Option (Option String) := none
  reason : Option String := none
  survivor : Option Int := none
  time : Option Instant := none

namespace EventDraft

abbrev Part := Json.Reader.Field EventDraft

def jobIdPart : Part :=
  field "job_id" jobId (fun draft value => { draft with jobId := some value }) Reader.int64

def jobTypePart : Part :=
  field "job_type" jobType (fun draft value => { draft with jobType := some value }) Reader.text

def timePart : Part :=
  field "at" time (fun draft value => { draft with time := some value }) Instant.reader

def finish (change : EventDraft → Except Json.Cause Change) (draft : EventDraft) :
    Except Json.Cause Event := do
  pure
    { jobId := ← required "job_id" draft.jobId
      change := ← change draft
      time := ← required "at" draft.time }

def readerOf (parts : List Part) (change : EventDraft → Except Json.Cause Change) :
    Reader Event :=
  Shape.reader
    { wanted := "struct variant"
      fields := jobIdPart :: parts ++ [timePart]
      blank := {}
      allowsUnknown := true
      finish := finish change }

end EventDraft

def Event.reader : Reader Event :=
  Reader.tagged
    [ ( "Enqueued"
      , EventDraft.readerOf
          [ EventDraft.jobTypePart,
            field "correlation_id" EventDraft.correlationId
              (fun draft value => { draft with correlationId := some value }) Uuid.reader,
            field "coalesced" EventDraft.coalesced
              (fun draft value => { draft with coalesced := some value }) Reader.boolean ]
          fun draft => do
            pure (.enqueued (← required "job_type" draft.jobType)
              (← required "correlation_id" draft.correlationId)
              (← required "coalesced" draft.coalesced)) ),
      ( "Started"
      , EventDraft.readerOf
          [ EventDraft.jobTypePart,
            field "attempt" EventDraft.attempt
              (fun draft value => { draft with attempt := some value }) Reader.nat32 ]
          fun draft => do
            pure (.started (← required "job_type" draft.jobType)
              (← required "attempt" draft.attempt)) ),
      ( "Retrying"
      , EventDraft.readerOf
          [ EventDraft.jobTypePart,
            field "not_before" EventDraft.notBefore
              (fun draft value => { draft with notBefore := some value }) Instant.reader,
            field "error" EventDraft.error
              (fun draft value => { draft with error := some value })
              (Reader.optional Reader.text) ]
          fun draft => do
            pure (.retrying (← required "job_type" draft.jobType)
              (← required "not_before" draft.notBefore) draft.error.join) ),
      ( "Completed"
      , EventDraft.readerOf [EventDraft.jobTypePart] fun draft => do
          pure (.completed (← required "job_type" draft.jobType)) ),
      ( "Superseded"
      , EventDraft.readerOf
          [ field "by" EventDraft.survivor
              (fun draft value => { draft with survivor := some value }) Reader.int64 ]
          fun draft => do
            pure (.superseded (← required "by" draft.survivor)) ),
      ( "Failed"
      , EventDraft.readerOf
          [ EventDraft.jobTypePart,
            field "error" EventDraft.reason
              (fun draft value => { draft with reason := some value }) Reader.text ]
          fun draft => do
            pure (.failed (← required "job_type" draft.jobType)
              (← required "error" draft.reason)) ),
      ("Canceled", EventDraft.readerOf [] fun _ => pure .canceled) ]

end DurableJobs
