import DurableJobs.Document
import DurableJobs.Script.Session

/-!
What sessions show: records, events, and calls of executors.

Identifiers that the input does not name are shown by the lowest id of a job that was enqueued with
them, and instants by their distance, so that what is shown depends on the script alone.
-/

set_option autoImplicit false

namespace DurableJobs.Script

mutual

def namedInstants : Json → List Int
  | .array [.text "not_before", .integer millis] => [millis]
  | .array items => namedInstantsOfItems items
  | .object fields => namedInstantsOfFields fields
  | _ => []

def namedInstantsOfItems : List Json → List Int
  | [] => []
  | item :: rest => namedInstants item ++ namedInstantsOfItems rest

def namedInstantsOfFields : List (String × Json) → List Int
  | [] => []
  | (_, value) :: rest => namedInstants value ++ namedInstantsOfFields rest

end

mutual

/-- The identifiers that a document names, but for those that the setters of a next job name. -/
def namedIds : Json → List Uuid
  | .text text => (Uuid.ofText? text).toList
  | .array [.text "next", .object fields] => namedIdsOfFields false fields
  | .array items => namedIdsOfItems items
  | .object fields => namedIdsOfFields true fields
  | _ => []

def namedIdsOfItems : List Json → List Uuid
  | [] => []
  | item :: rest => namedIds item ++ namedIdsOfItems rest

def namedIdsOfFields (withSetters : Bool) : List (String × Json) → List Uuid
  | [] => []
  | (name, value) :: rest =>
      (if name = "with" ∧ ¬ withSetters then [] else namedIds value) ++
        namedIdsOfFields withSetters rest

end

namespace Session

/-- An identifier by the lowest id of a job that was enqueued with it, unless it is shown in
full. -/
def showId (session : Session) (letter : String) (id : Uuid) : String :=
  match session.label? id with
  | some job => letter ++ toString job
  | none => id.text

def showWhen (named : List Int) (record : Record) : Json :=
  let millis := record.notBefore.millis
  if named.contains millis then .object [("at", .integer millis)]
  else if millis == Instant.latest.millis then .text "max"
  else if record.state.isPending then
    .object [("delay", .integer (millis - record.updatedAt.millis))]
  else .null

def scriptName (payload : Bytes) : Json :=
  match Json.parse payload with
  | .ok document => .ofOption id (part? document "name")
  | .error _ => .null

def showRecord (session : Session) (named : List Int) (record : Record) : Json :=
  .object
    [ ("id", .integer record.id), ("job_type", .text record.jobType),
      ("name", scriptName record.payload), ("priority", .text record.priority.name),
      ("when", showWhen named record), ("debounce_key", .ofOption .text record.debounceKey),
      ("saga", .ofOption (fun id => .text (session.showId "s" id)) record.sagaId),
      ("correlation", .text (session.showId "c" record.correlationId)),
      ("state", .text record.state.name), ("attempts", .ofNat record.attempts),
      ("failures", .ofNat record.failures), ("last_error", .ofOption .text record.lastError) ]

def showEvent (session : Session) (event : Event) : String :=
  let parts :=
    match event.change with
    | .enqueued jobType correlation coalesced =>
        [jobType, session.showId "c" correlation, if coalesced then "true" else "false"]
    | .started jobType attempt => [jobType, toString attempt]
    | .retrying jobType _ error => [jobType, error.getD "-"]
    | .completed jobType => [jobType]
    | .superseded survivor => [toString survivor]
    | .failed jobType error => [jobType, error]
    | .canceled => []
  String.intercalate "|" (event.change.name :: parts)

def addToGroup (id : Int) (text : String) : List (Int × List String) → List (Int × List String)
  | [] => [(id, [text])]
  | (other, texts) :: rest =>
      if other = id then (other, texts ++ [text]) :: rest
      else (other, texts) :: addToGroup id text rest

def showEvents (session : Session) (arrange : List String → List String) (events : List Event) :
    Json :=
  let groups := events.foldl
    (fun groups event => addToGroup event.jobId (session.showEvent event) groups) []
  .object (groups.map fun group =>
    (toString group.1, .array ((arrange group.2).map .text)))

def showOptional (wrap : String → String) : Option String → String
  | none => "None"
  | some text => "Some(" ++ wrap text ++ ")"

def showContext (session : Session) (record : Record) : String :=
  String.join
    [ "JobContext \x7b job_id: JobId(", toString record.id, "), job_type: ",
      Text.quoted record.jobType, ", attempt: ", toString record.attempts, ", failures: ",
      toString record.failures, ", priority: ", record.priority.documentName, ", saga_id: ",
      showOptional (fun id => "SagaId(" ++ id ++ ")") (record.sagaId.map (session.showId "s")),
      ", correlation_id: CorrelationId(", session.showId "c" record.correlationId,
      "), debounce_key: ", showOptional Text.quoted record.debounceKey, ", .. \x7d" ]

def showCall (session : Session) (call : Script.Call) : Json :=
  let record := call.record
  .object
    ([ ("id", .integer record.id), ("tag", .text record.jobType), ("name", .text call.name),
       ("attempt", .ofNat record.attempts), ("failures", .ofNat record.failures),
       ("priority", .text record.priority.name),
       ("debounce_key", .ofOption .text record.debounceKey),
       ("saga", .ofOption (fun id => .text (session.showId "s" id)) record.sagaId),
       ("correlation", .text (session.showId "c" record.correlationId)) ] ++
      if call.isDetailed then [("debug", .text (session.showContext record))] else [])

def showRun (session : Session) (isOrdered : Bool) : Json × Session :=
  let (events, afterEvents) := session.takeEvents
  let (notes, afterNotes) := afterEvents.takeNotes
  let calls := session.log.mergeSort fun left right => left.record.id ≤ right.record.id
  let answer : List (String × Json) :=
    [ ("drained", .boolean session.engine.dispatcher.isNone),
      ("dispatching", .boolean session.engine.isDispatching),
      ("log", .array (calls.map session.showCall)),
      ("tx_order", .array (session.transactional.map .text)),
      ("effects", .array ((if isOrdered then notes else Registry.sorted notes).map .text)),
      ("events", session.showEvents Registry.sorted events) ]
  let order :=
    if isOrdered then [("async_order", Json.array (session.asynchronous.map .text))] else []
  (.object (answer ++ order), afterNotes.forgetCalls)

end Session

end DurableJobs.Script
