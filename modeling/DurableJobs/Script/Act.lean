import DurableJobs.Definition
import DurableJobs.Engine.Basic
import DurableJobs.Items
import DurableJobs.Script.Spec

/-!
Scripts: payloads that tell their executor what to do.

A script has a name and a list of acts, one for each call. An act does some deeds, in order, and
then ends; a deed that is refused ends the act with its error. The types of scripted jobs have a
priority, and some a debounce key that names the script.
-/

set_option autoImplicit false

namespace DurableJobs

structure Script where
  name : String
  steps : List Json

instance : Payload Script where
  document script := .object [("name", .text script.name), ("steps", .array script.steps)]
  reader :=
    Json.Reader.Shape.reader
      { wanted := "struct Script"
        fields :=
          [ Json.Reader.field "name" Prod.fst (fun draft value => (some value, draft.2))
              Json.Reader.text,
            { Json.Reader.field "steps" Prod.snd (fun draft value => (draft.1, some value))
                (Json.Reader.list Json.Reader.value) with
              whenShort := some id } ]
        blank := ((none, none) : Option String × Option (List Json))
        allowsUnknown := true
        finish := fun draft => do
          return ⟨← Json.Reader.required "name" draft.1, draft.2.getD []⟩ }

namespace Script

/-! ### Types of scripted jobs -/

structure Kind where
  jobType : String
  priority : Priority
  isDebounced : Bool
deriving DecidableEq

def kinds : List Kind :=
  [ ⟨"alpha", .normal, false⟩, ⟨"beta", .high, false⟩, ⟨"gamma", .low, false⟩,
    ⟨"delta", .critical, false⟩, ⟨"debounced", .normal, true⟩, ⟨"urgent", .high, true⟩,
    ⟨"", .normal, false⟩, ⟨"ünï ✓", .normal, false⟩ ]

def Kind.definition (kind : Kind) : Definition Script where
  jobType := kind.jobType
  priority := kind.priority
  debounceKey script :=
    if kind.isDebounced then some (kind.jobType ++ ":" ++ script.name) else none

def plain : Definition Unit where
  jobType := "plain"

def job (script : Script) (jobType : String) (correlation : Uuid) : Job :=
  if jobType = plain.jobType then plain.job () correlation
  else
    match kinds.find? fun kind => kind.jobType == jobType with
    | none => Job.json jobType script correlation
    | some kind => kind.definition.job script correlation

def isKnown (jobType : String) : Bool :=
  jobType == plain.jobType || kinds.any fun kind => kind.jobType == jobType

/-- Calls an executor with the script of a record; an empty payload stands for an empty script. -/
def deliver {Result : Type} (refuse : JobError → Result) (execute : Script → Record → Result)
    (record : Record) : Result :=
  if record.jobType = plain.jobType then plain.deliver refuse (fun _ => execute ⟨"", []⟩) record
  else
    let definition : Definition Script := { jobType := record.jobType }
    definition.deliver refuse execute record

/-! ### Fresh identifiers -/

/-- The first of the identifiers that stand for drawn ones. -/
def firstFresh : Nat := 0x5eed0000000040008000000000000000

def fresh (drawn : Nat) : Uuid := Uuid.ofNat (firstFresh + drawn)

/-! ### Jobs -/

inductive JobSpec where
  | bytes (jobType : String) (payload : Bytes) (setters : List Setter)
  | script (jobType : String) (content : Script) (startsSaga : Bool) (setters : List Setter)

namespace JobSpec

def draws : Nat := 2

/-- The job. What is not said of a script's correlation and saga is drawn; the correlation of bytes
is the zero identifier. -/
def job (spec : JobSpec) (drawn : Nat) : Job :=
  match spec with
  | .bytes jobType payload setters =>
      withSetters (Job.new jobType payload Uuid.zero) setters
  | .script jobType content startsSaga setters =>
      let job := content.job jobType (fresh drawn)
      let job := if startsSaga && isKnown jobType then job.inSaga (fresh (drawn + 1)) else job
      withSetters job setters

def next (spec : JobSpec) (record : Record) (drawn : Nat) : Job :=
  match spec with
  | .bytes jobType payload setters =>
      withSetters (Job.new jobType payload Uuid.zero) setters
  | .script jobType content _ setters =>
      let saga := record.sagaId.getD (fresh (drawn + 1))
      withSetters (((content.job jobType (fresh drawn)).inSaga saga).withCorrelationId
        record.correlationId) setters

def jobs : List JobSpec → Nat → List Job
  | [], _ => []
  | spec :: rest, drawn => spec.job drawn :: jobs rest (drawn + draws)

def ofDocument? (document : Json) : Option JobSpec := do
  let setters ← setters? document
  match textPart? document "type" with
  | some _ =>
      let job ← plainJob? document Uuid.zero
      return .bytes job.jobType job.payload setters
  | none =>
      let content : Script := ⟨← textPart? document "name", itemsPart document "steps"⟩
      return .script (← textPart? document "tag") content (flagPart document "saga_start") setters

end JobSpec

/-! ### Acts -/

inductive Deed where
  | item (name : Option String)
  | enqueue (spec : JobSpec)
  | next (spec : JobSpec)
  | enqueueAll (specs : List JobSpec)
  | deleteSelf
  | signal (label : String)
  | await (label : String)
  | hang

namespace Deed

def ofDocument? : Json → Option Deed
  | .array [.text "item", .text name] => some (.item (some name))
  | .array [.text "item", .null] => some (.item none)
  | .array [.text "enqueue", job] => (JobSpec.ofDocument? job).map .enqueue
  | .array [.text "next", job] => (JobSpec.ofDocument? job).map .next
  | .array [.text "bulk", jobs] =>
      ((itemsPart jobs "jobs").mapM JobSpec.ofDocument?).map .enqueueAll
  | .array [.text "delete_self"] => some .deleteSelf
  | .array [.text "signal", .text label] => some (.signal label)
  | .array [.text "wait", .text label] => some (.await label)
  | .array [.text "hang"] => some .hang
  | _ => none

def draws : Deed → Nat
  | .enqueueAll specs => specs.length * JobSpec.draws
  | _ => JobSpec.draws

end Deed

structure Act where
  deeds : List Deed
  ending : Ending JobError Outcome
  effects : AfterCommit
  isDetailed : Bool

namespace Act

def idle : Act := ⟨[], .done .success, AfterCommit.none, false⟩

def ending? (document : Json) : Option (Ending JobError Outcome) := do
  match ← textPart? document "do" with
  | "ok" => return .done .success
  | "retry" => return .done (.retryAfter (← durationPart? document "delay"))
  | "err" => return .failed (← (part? document "error").bind jobError?)
  | "panic" => return .broken (breakdown document)
  | _ => none

def ofDocument? (document : Json) : Option Act := do
  pure
    { deeds := ← (itemsPart document "pre").mapM Deed.ofDocument?
      ending := ← ending? document
      effects := ← effects? (itemsPart document "after")
      isDetailed := flagPart document "debug" }

def draws (act : Act) : Nat :=
  act.deeds.foldl (fun count deed => count + deed.draws) 0

def erase {Business : Type} (id : Int) (database : Database Business) :
    Except StoreError (Database Business) :=
  match database.jobs.delete id with
  | (.error error, _) => .error error
  | (.ok _, jobs) => .ok { database with jobs := jobs }

def finish (act : Act) : Program Items JobError Engine.TransactionalOutcome :=
  match act.ending with
  | .done outcome => .done ⟨outcome, act.effects⟩
  | .failed error => .fail error
  | .broken breakdown => .breakDown breakdown

def goOn {Error Value : Type} (wrap : Error → JobError)
    (rest : Program Items JobError Engine.TransactionalOutcome) :
    Except Error Value → Program Items JobError Engine.TransactionalOutcome
  | .ok _ => rest
  | .error error => .fail (wrap error)

def programOfDeeds (act : Act) (record : Record) :
    List Deed → Nat → Program Items JobError Engine.TransactionalOutcome
  | [], _ => act.finish
  | deed :: rest, drawn =>
      let more := programOfDeeds act record rest (drawn + deed.draws)
      match deed with
      | .item name => .write (Items.insert name) (goOn .storage more)
      | .enqueue spec => .enqueue (spec.job drawn) (goOn .engine more)
      | .next spec => .enqueue (spec.next record drawn) (goOn .engine more)
      | .enqueueAll specs =>
          .enqueueAll (JobSpec.jobs specs drawn) record.correlationId (goOn .engine more)
      | .deleteSelf => .execute (erase record.id) (goOn .storage more)
      | .signal _ | .await _ | .hang => more

def program (act : Act) (record : Record) (drawn : Nat) :
    Program Items JobError Engine.TransactionalOutcome :=
  act.programOfDeeds record act.deeds drawn

end Act

/-- The act of the call with a number, counted from zero: later calls repeat the last act. -/
def actOf? (script : Script) (call : Nat) : Option Act :=
  match (script.steps[call]?).or script.steps.getLast? with
  | none => some Act.idle
  | some document => Act.ofDocument? document

end Script

end DurableJobs
