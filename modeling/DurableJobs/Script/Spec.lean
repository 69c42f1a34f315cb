import DurableJobs.Json.Printer
import DurableJobs.Json.Reader
import DurableJobs.Store.Settlement
import DurableJobs.AfterCommit

/-!
The documents by which scripts describe spans of time, policies, errors, jobs and effects.

A span is a number of milliseconds or a pair of seconds and nanoseconds. A missing part of a
document is the same as `null`.
-/

set_option autoImplicit false

namespace DurableJobs.Script

/-- A part of a document; nothing if it is missing or `null`. -/
def part? (document : Json) (name : String) : Option Json :=
  match document.field? name with
  | some .null => none
  | other => other

def textPart? (document : Json) (name : String) : Option String :=
  (part? document name).bind Json.text?

def flagPart (document : Json) (name : String) : Bool :=
  ((part? document name).bind Json.boolean?).getD false

def itemsPart (document : Json) (name : String) : List Json :=
  ((part? document name).bind Json.array?).getD []

def duration? : Json → Option Duration
  | .integer millis => if 0 ≤ millis then some (Duration.ofMillis millis.toNat) else none
  | .array [.integer seconds, .integer nanos] =>
      if 0 ≤ seconds ∧ 0 ≤ nanos then Duration.ofParts? seconds.toNat nanos.toNat else none
  | _ => none

def durationPart? (document : Json) (name : String) : Option Duration :=
  (part? document name).bind duration?

def instant? (document : Json) : Option Instant :=
  document.integer?.bind Instant.ofMillis?

def uuid? (document : Json) : Option Uuid :=
  document.text?.bind Uuid.ofText?

def uuidPart? (document : Json) (name : String) : Option Uuid :=
  (part? document name).bind uuid?

/-! ### Bytes -/

def hexDigit? (character : Char) : Option Nat :=
  if '0' ≤ character ∧ character ≤ '9' then some (character.toNat - 48)
  else if 'a' ≤ character ∧ character ≤ 'f' then some (character.toNat - 87)
  else none

def bytesOfDigits? : List Char → Option Bytes
  | [] => some []
  | high :: low :: rest => do
      let high ← hexDigit? high
      let low ← hexDigit? low
      return UInt8.ofNat (high * 16 + low) :: (← bytesOfDigits? rest)
  | [_] => none

def bytes? (digits : String) : Option Bytes :=
  bytesOfDigits? digits.toList

def hexOfBytes (bytes : Bytes) : String :=
  String.ofList (bytes.flatMap fun byte =>
    [Uuid.digitCharacter (byte.toNat / 16), Uuid.digitCharacter (byte.toNat % 16)])

/-! ### Policies -/

def policy (document : Json) : RetryPolicy :=
  let backoff :=
    match durationPart? document "fixed", durationPart? document "base",
        durationPart? document "max" with
    | some delay, _, _ => .fixed delay
    | none, some base, some max => .exponential base max (flagPart document "jitter")
    | _, _, _ => RetryPolicy.standard.backoff
  ⟨backoff, (part? document "max_failures").bind Json.natural?⟩

def policyPart (document : Json) (name : String) : RetryPolicy :=
  policy ((part? document name).getD .null)

def backoffDocument : Backoff → Json
  | .fixed delay => .object [("fixed", durationDocument delay)]
  | .exponential base max jitter =>
      .object
        [ ("base", durationDocument base), ("jitter", .boolean jitter),
          ("max", durationDocument max) ]
where
  durationDocument (duration : Duration) : Json :=
    .array [.integer duration.seconds, .integer duration.subsecNanos]

def policyDocument (policy : RetryPolicy) : Json :=
  .object
    [ ("backoff", backoffDocument policy.backoff),
      ("max_failures", .ofOption (fun limit => .integer (limit : Nat)) policy.maxFailures) ]

/-! ### Errors -/

def engineErrorKind : EngineError → String
  | .store _ => "Sqlite"
  | .broken _ => "Panicked"
  | .canceled => "Cancelled"
  | .shutDown _ => "ShutDown"
  | .writerUnavailable _ => "WriterUnavailable"
  | .noRuntime => "NoRuntime"
  | .notRegistered _ => "JobTypeNotRegistered"
  | .alreadyRegistered _ => "JobTypeAlreadyRegistered"
  | .serialization _ => "SerializationError"
  | .config _ => "Config"
  | .internal _ => "Internal"
  | .other _ => "Other"

def jobErrorKind : JobError → String
  | .failed _ => "Failed"
  | .payload _ _ => "Payload"
  | .timedOut _ => "TimedOut"
  | .broken _ => "Panicked"
  | .storage _ => "Storage"
  | .engine _ => "Engine"
  | .other _ => "Other"

def engineErrorDocument (error : EngineError) : Json :=
  .object [("error", .text (engineErrorKind error)), ("message", .text error.message)]

def jobErrorDocument (error : JobError) : Json :=
  .object [("error", .text (jobErrorKind error)), ("message", .text error.message)]

def messagePart (document : Json) : String :=
  (textPart? document "msg").getD ""

/-- The text that a cause with contexts shows: the outermost context. -/
def contextMessage (document : Json) : String :=
  ((itemsPart document "context").getLast?.bind Json.text?).getD (messagePart document)

def storeError? (document : Json) : Option StoreError := do
  match ← textPart? document "sqlite" with
  | "no_rows" => some .noRows
  | "invalid_query" => some .notReadOnly
  | "returned_results" => some .returnedRows
  | "parameter_name" => some (.parameterName (messagePart document))
  | _ => none

def readingError? (text : String) : Option EngineError :=
  match Json.parse (Bytes.ofText text) with
  | .ok _ => none
  | .error fault => some (.serialization fault.message)

def engineError? (document : Json) : Option EngineError := do
  let message := messagePart document
  match ← textPart? document "kind" with
  | "Sqlite" => (storeError? document).map .store
  | "Panicked" => some (.broken message)
  | "Cancelled" => some .canceled
  | "ShutDown" => some (.shutDown message)
  | "WriterUnavailable" => some (.writerUnavailable message)
  | "NoRuntime" => some .noRuntime
  | "JobTypeNotRegistered" => some (.notRegistered message)
  | "JobTypeAlreadyRegistered" => some (.alreadyRegistered message)
  | "SerializationError" => some (.serialization message)
  | "Config" => some (.config message)
  | "Internal" => some (.internal message)
  | "Other" => some (.other (contextMessage document))
  | "Json" => (textPart? document "text").bind readingError?
  | _ => none

def jobError? (document : Json) : Option JobError := do
  let message := messagePart document
  match ← textPart? document "kind" with
  | "Failed" => some (.failed message)
  | "Payload" =>
      some (.payload (← textPart? document "job_type") (← textPart? document "reason"))
  | "TimedOut" => (durationPart? document "limit").map .timedOut
  | "Panicked" => some (.broken message)
  | "Storage" => (storeError? document).map .storage
  | "Engine" => ((part? document "inner").bind engineError?).map .engine
  | "Other" => some (.other (contextMessage document))
  | _ => none

def breakdown (document : Json) : Breakdown :=
  match textPart? document "as" with
  | some "str" => .text "static boom"
  | some "number" => .other
  | _ => .text (messagePart document)

/-! ### Effects -/

mutual

def addEffect? (effects : AfterCommit) : Json → Option AfterCommit
  | .array [.text "invalidate", .text key] => some (effects.invalidate key)
  | .array [.text "then", .text label] => some (effects.andThen ⟨label, false⟩)
  | .array [.text "then_panic", .text label] => some (effects.andThen ⟨label, true⟩)
  | .array [.text "merge", .array inner] =>
      (addEffects? AfterCommit.none inner).map effects.merge
  | _ => none

def addEffects? (effects : AfterCommit) : List Json → Option AfterCommit
  | [] => some effects
  | document :: rest => (addEffect? effects document).bind fun more => addEffects? more rest

end

def effects? (documents : List Json) : Option AfterCommit :=
  addEffects? AfterCommit.none documents

/-! ### Jobs -/

inductive Setter where
  | priority (priority : Priority)
  | delay (delay : Duration)
  | notBefore (instant : Instant)
  | debounceKey (key : String)
  | saga (id : Uuid)
  | correlation (id : Uuid)
deriving DecidableEq

namespace Setter

def apply (job : Job) : Setter → Job
  | .priority level => job.withPriority level
  | .delay span => job.withDelay span
  | .notBefore instant => job.withNotBefore instant
  | .debounceKey key => job.withDebounceKey key
  | .saga id => job.inSaga id
  | .correlation id => job.withCorrelationId id

def ofDocument? : Json → Option Setter
  | .array [.text "priority", .text name] => (Priority.ofName? name).map .priority
  | .array [.text "delay", span] => (duration? span).map .delay
  | .array [.text "not_before", millis] => (instant? millis).map .notBefore
  | .array [.text "debounce", .text key] => some (.debounceKey key)
  | .array [.text "saga", id] => (uuid? id).map .saga
  | .array [.text "correlation", id] => (uuid? id).map .correlation
  | _ => none

end Setter

def setters? (document : Json) : Option (List Setter) :=
  (itemsPart document "with").mapM Setter.ofDocument?

def withSetters (job : Job) (setters : List Setter) : Job :=
  setters.foldl Setter.apply job

def plainJob? (document : Json) (correlation : Uuid) : Option Job := do
  let jobType ← textPart? document "type"
  let payload ←
    match textPart? document "payload" with
    | some digits => bytes? digits
    | none => some ((document.field? "json").getD .null).print
  return withSetters (Job.new jobType payload correlation) (← setters? document)

end DurableJobs.Script
