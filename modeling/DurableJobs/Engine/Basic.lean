import DurableJobs.Engine.Tick
import DurableJobs.Engine.Telemetry

/-!
The engine: a database with a job table, what is told of it, and a dispatcher that executes jobs.

Calls from outside, the dispatcher and the executions go on independently of each other; each
definition below is one step of one of them. A step that cannot be taken now is none. What a step
commits is told by a later one, so that anything may happen in between.

All writes go through one writer, one after the other: a transaction is one step. Transactional
executions wait in the writer's queue and are run in the order in which they were launched. Once the
writer is stopped, every write is refused.
-/

set_option autoImplicit false

namespace DurableJobs

inductive ExecutionStage where
  | queued
  | waiting
  | running
  /-- An execution that ended and gave its slot back, but is not settled. -/
  | returned (result : Except JobError Outcome)
  /-- An execution that is settled; the notices are still to be told. -/
  | reporting (notices : List Notice)
  | ended

/-- An execution of a record, as the record was when it was claimed. -/
structure Execution where
  ticket : Nat
  record : Record
  kind : ExecutorKind
  stage : ExecutionStage

inductive DispatcherPhase where
  | recovering
  | counting
  | scanning (lanes : Lanes)
  | deciding (lanes : Lanes)
  | launching (notices : List Notice) (claimed : List Record) (tick : Tick)
  | resting (tick : Tick)
  | waiting (delay : Duration)
  | draining

structure Dispatcher where
  phase : DispatcherPhase
  isStopRequested : Bool
  free : Lanes
  executions : List Execution

structure Engine (Business : Type) where
  writerName : String
  registry : Registry
  config : EngineConfig
  database : Database Business
  telemetry : Telemetry
  happenings : List Happening
  isWriterStopped : Bool
  /-- Whether the dispatcher was asked to look again. -/
  isAwake : Bool
  isDispatching : Bool
  dispatcher : Option Dispatcher
  /-- What calls from outside have committed and not told yet. -/
  owed : List (List Notice)
  nextTicket : Nat

/-- What comes of an attempt to set something up: it can also break the one who tries. -/
inductive Attempt (Value : Type) where
  | succeeded (value : Value)
  | refused (error : EngineError)
  | broke

namespace Engine

variable {Business : Type}

def largestCapacity : Nat := 0x7fffffffffffffff

def largestPool : Nat := 0x1fffffffffffffff

/-- Opens an engine on a database without jobs. More events than can be kept break the call. -/
def start? (writerName : String) (registry : Registry) (config : EngineConfig)
    (business : Business) (refusal? : Business → Business → Option StoreError := fun _ _ => none) :
    Attempt (Engine Business) :=
  match config.validate with
  | .error fault => .refused fault.error
  | .ok () =>
      if largestCapacity < config.eventCapacity then .broke
      else
        .succeeded
          { writerName, registry, config
            database := { jobs := Store.Table.empty, business, refusal? }
            telemetry := Telemetry.empty
            happenings := []
            isWriterStopped := false
            isAwake := false
            isDispatching := false
            dispatcher := none
            owed := []
            nextTicket := 0 }

def shutDownError (engine : Engine Business) : EngineError := .shutDown engine.writerName

/-! ### Notices -/

/-- Tells one notice. Enqueued jobs and requeued records wake the dispatcher. -/
def tell (engine : Engine Business) (notice : Notice) (now : Instant) : Engine Business :=
  let told := { engine with telemetry := engine.telemetry.notice now notice }
  match notice with
  | .enqueued jobs => if jobs.isEmpty then told else { told with isAwake := true }
  | .requeued => { told with isAwake := true }
  | .effects effects => { told with happenings := told.happenings ++ effects.run }
  | _ => told

/-- Tells the next notice of the call at a place in the list of those that owe some. -/
def announce (engine : Engine Business) (place : Nat) (now : Instant) :
    Option (Engine Business) :=
  match engine.owed[place]? with
  | none => none
  | some [] => some { engine with owed := engine.owed.eraseIdx place }
  | some (notice :: rest) =>
      some ({ engine with owed := engine.owed.set place rest }.tell notice now)

/-! ### Calls from outside -/

def transact {Value : Type} (engine : Engine Business)
    (program : Program Business EngineError Value) (now : Instant) :
    Except EngineError Value × Engine Business :=
  if engine.isWriterStopped then (.error engine.shutDownError, engine)
  else
    let (ending, transaction) :=
      program.run (Transaction.begin engine.registry now engine.database)
    match ending with
    | .done value =>
        match transaction.commit with
        | (.error error, database) =>
            (.error (.store error), { engine with database := database })
        | (.ok (), database) =>
            ( .ok value,
              { engine with
                database := database
                owed := engine.owed ++ [[.enqueued transaction.enqueued]] } )
    | .failed error => (.error error, { engine with database := transaction.rollBack.2 })
    | .broken breakdown =>
        (.error (.ofBreakdown breakdown), { engine with database := transaction.rollBack.2 })

def enqueue (engine : Engine Business) (job : Job) (now : Instant) :
    Except EngineError Int × Engine Business :=
  engine.transact
    (.enqueue job fun
      | .ok id => .done id
      | .error error => .fail error)
    now

def enqueueAll (engine : Engine Business) (jobs : List Job) (correlation : Uuid) (now : Instant) :
    Except EngineError (List Int) × Engine Business :=
  engine.transact
    (.enqueueAll jobs correlation fun
      | .ok ids => .done ids
      | .error error => .fail error)
    now

/-- Executes a statement outside of transactions; what it changed stays, also if it fails. -/
def execute {Value : Type} (engine : Engine Business)
    (statement : Database Business → Except StoreError Value × Database Business)
    (notices : Value → List Notice) : Except EngineError Value × Engine Business :=
  if engine.isWriterStopped then (.error engine.shutDownError, engine)
  else
    match statement engine.database with
    | (.error error, database) => (.error (.store error), { engine with database := database })
    | (.ok value, database) =>
        (.ok value, { engine with database := database, owed := engine.owed ++ [notices value] })

def cancel (engine : Engine Business) (id : Int) : Except EngineError Bool × Engine Business :=
  let (answer, after) :=
    engine.execute
      (fun database =>
        let (answer, jobs) := database.jobs.cancel id
        (answer, { database with jobs := jobs }))
      fun
        | some jobType => [.canceled id jobType]
        | none => []
  (answer.map Option.isSome, after)

def requeue (engine : Engine Business) (id : Int) (now : Instant) :
    Except EngineError Store.Rescheduled × Engine Business :=
  if engine.isWriterStopped then (.error engine.shutDownError, engine)
  else
    match engine.database.jobs.requeue id now with
    | (.error error, _) => (.error (.store error), engine)
    | (.ok rescheduled, jobs) =>
        let notices :=
          match rescheduled with
          | .pending _ => [Notice.requeued]
          | _ => []
        ( .ok rescheduled,
          { engine with
            database := { engine.database with jobs := jobs }
            owed := engine.owed ++ [notices] } )

def listLimit : Nat := 1000

def list (engine : Engine Business) (filter : Store.JobFilter) :
    Except EngineError (List Record) :=
  (engine.database.jobs.list filter listLimit).mapError .store

def get (engine : Engine Business) (id : Int) : Except EngineError (Option Record) :=
  (engine.database.jobs.get id).mapError .store

/-! ### The dispatcher -/

/-- Starts a dispatcher. A pool larger than can be made breaks the call, after the engine was marked
as dispatching. The call is taken to be made within a runtime that the dispatcher can be spawned on;
without one it would break in the same way. -/
def start (engine : Engine Business) : Attempt Unit × Engine Business :=
  if engine.isDispatching then (.refused (.internal "dispatcher already running"), engine)
  else
    let marked := { engine with isDispatching := true }
    let free : Lanes := ⟨engine.config.normalConcurrency, engine.config.longRunningConcurrency⟩
    if largestPool < free.normal ∨ largestPool < free.longRunning then (.broke, marked)
    else (.succeeded (), { marked with dispatcher := some ⟨.recovering, false, free, []⟩ })

def requestStop (engine : Engine Business) : Option (Engine Business) :=
  engine.dispatcher.map fun dispatcher =>
    { engine with dispatcher := some { dispatcher with isStopRequested := true } }

def enterPhase (engine : Engine Business) (dispatcher : Dispatcher)
    (phase : DispatcherPhase) : Engine Business :=
  { engine with dispatcher := some { dispatcher with phase := phase } }

def recover (engine : Engine Business) (draw : Nat) (now : Instant) : Option (Engine Business) :=
  match engine.dispatcher with
  | some dispatcher =>
      match dispatcher.phase with
      | .recovering =>
          let next := engine.enterPhase dispatcher .counting
          let config := engine.config
          if engine.isWriterStopped then some next
          else
            match engine.database.jobs.recover config.recovery config.retry draw now with
            | (.error _, _) => some next
            | (.ok _, jobs) =>
                some { next with database := { engine.database with jobs := jobs } }
      | _ => none
  | none => none

def Dispatcher.reap (dispatcher : Dispatcher) : Dispatcher :=
  { dispatcher with
    executions := dispatcher.executions.filter fun execution =>
      match execution.stage with
      | .ended => false
      | _ => true }

/-- Begins a tick: counts the free slots, or stops if the writer is stopped. -/
def count (engine : Engine Business) : Option (Engine Business) :=
  match engine.dispatcher with
  | some dispatcher =>
      match dispatcher.phase with
      | .counting =>
          let dispatcher := Dispatcher.reap dispatcher
          if engine.isWriterStopped then some (engine.enterPhase dispatcher .draining)
          else some (engine.enterPhase dispatcher (.scanning dispatcher.free))
      | _ => none
  | none => none

/-- Looks whether there is something to do; the later reading of the clock is that of a tick that
does nothing. -/
def scan (engine : Engine Business) (now later : Instant) : Option (Engine Business) :=
  match engine.dispatcher with
  | some dispatcher =>
      match dispatcher.phase with
      | .scanning lanes =>
          match engine.database.jobs.scan engine.registry lanes engine.config.batchSize now with
          | .error _ => some (engine.enterPhase dispatcher (.waiting engine.config.pollInterval))
          | .ok scan =>
              if scan.isActionable then some (engine.enterPhase dispatcher (.deciding lanes))
              else some (engine.enterPhase dispatcher (.resting (Tick.idle scan.nextDue later)))
      | _ => none
  | none => none

def decide (engine : Engine Business) (now : Instant) : Option (Engine Business) :=
  match engine.dispatcher with
  | some dispatcher =>
      match dispatcher.phase with
      | .deciding lanes =>
          if engine.isWriterStopped then some (engine.enterPhase dispatcher .draining)
          else
            match engine.database.jobs.tick engine.registry lanes engine.config.batchSize now with
            | (.error _, _) =>
                some (engine.enterPhase dispatcher (.waiting engine.config.pollInterval))
            | (.ok tick, jobs) =>
                let notices := tick.unknown.map fun entry => Notice.settled entry.1 entry.2
                some
                  { engine.enterPhase dispatcher (.launching notices tick.claimed tick) with
                    database := { engine.database with jobs := jobs } }
      | _ => none
  | none => none

def Dispatcher.reserve (dispatcher : Dispatcher) (kind : ExecutorKind) :
    ExecutionStage × Dispatcher :=
  match kind with
  | .transactional => (.queued, dispatcher)
  | kind =>
      match dispatcher.free.take? kind with
      | some left => (.running, { dispatcher with free := left })
      | none => (.waiting, dispatcher)

/-- Launches the next claimed record, or tells of the next one that was given up. -/
def launch (engine : Engine Business) (now : Instant) : Option (Engine Business) :=
  match engine.dispatcher with
  | some dispatcher =>
      match dispatcher.phase with
      | .launching (notice :: notices) claimed tick =>
          some ((engine.enterPhase dispatcher (.launching notices claimed tick)).tell notice now)
      | .launching [] (record :: claimed) tick =>
          match engine.registry.kindOf record.jobType with
          | none => some (engine.enterPhase dispatcher (.launching [] claimed tick))
          | some kind =>
              let (stage, dispatcher) := Dispatcher.reserve dispatcher kind
              let stage :=
                if kind = .transactional ∧ engine.isWriterStopped then .ended else stage
              let execution : Execution := ⟨engine.nextTicket, record, kind, stage⟩
              let launched :=
                { dispatcher with executions := dispatcher.executions ++ [execution] }
              some
                { engine.enterPhase launched (.launching [] claimed tick) with
                  telemetry := engine.telemetry.started record now
                  nextTicket := engine.nextTicket + 1 }
      | .launching [] [] tick => some (engine.enterPhase dispatcher (.resting tick))
      | _ => none
  | none => none

def rest (engine : Engine Business) (now : Instant) : Option (Engine Business) :=
  match engine.dispatcher with
  | some dispatcher =>
      match dispatcher.phase with
      | .resting tick =>
          some (engine.enterPhase dispatcher
            (.waiting (tick.wait engine.config.pollInterval now)))
      | _ => none
  | none => none

inductive Waking where
  | stop
  | notice
  | time
  | finished
deriving DecidableEq

def wake (engine : Engine Business) (waking : Waking) : Option (Engine Business) :=
  match engine.dispatcher with
  | some dispatcher =>
      match dispatcher.phase with
      | .waiting _ =>
          match waking with
          | .stop =>
              if dispatcher.isStopRequested then some (engine.enterPhase dispatcher .draining)
              else none
          | .notice =>
              if engine.isAwake then
                some { engine.enterPhase dispatcher .counting with isAwake := false }
              else none
          | .time => some (engine.enterPhase dispatcher .counting)
          | .finished =>
              let hasEnded := dispatcher.executions.any fun execution =>
                match execution.stage with
                | .ended => true
                | _ => false
              if hasEnded then some (engine.enterPhase (Dispatcher.reap dispatcher) .counting)
              else none
      | _ => none
  | none => none

/-- Ends the dispatcher once all its executions have ended. -/
def finish (engine : Engine Business) : Option (Engine Business) :=
  match engine.dispatcher with
  | some dispatcher =>
      match dispatcher.phase with
      | .draining =>
          if (Dispatcher.reap dispatcher).executions.isEmpty then
            some { engine with dispatcher := none, isDispatching := false }
          else none
      | _ => none
  | none => none

/-! ### Executions -/

def execution? (engine : Engine Business) (ticket : Nat) : Option Execution :=
  engine.dispatcher.bind fun dispatcher =>
    dispatcher.executions.find? fun execution => execution.ticket == ticket

def setStage (engine : Engine Business) (ticket : Nat) (stage : ExecutionStage) :
    Engine Business :=
  { engine with
    dispatcher := engine.dispatcher.map fun dispatcher =>
      { dispatcher with
        executions := dispatcher.executions.map fun execution =>
          if execution.ticket = ticket then { execution with stage := stage } else execution } }

def setFree (engine : Engine Business) (change : Lanes → Lanes) : Engine Business :=
  { engine with
    dispatcher := engine.dispatcher.map fun dispatcher =>
      { dispatcher with free := change dispatcher.free } }

def nextQueued? (engine : Engine Business) : Option Execution :=
  engine.dispatcher.bind fun dispatcher =>
    dispatcher.executions.find? fun execution =>
      match execution.stage with
      | .queued => true
      | _ => false

structure TransactionalOutcome where
  outcome : Outcome
  effects : AfterCommit
deriving DecidableEq

/-- Settles the outcome of an execution in its transaction, and commits both. -/
def concludeDone (transaction : Transaction Business) (record : Record)
    (result : TransactionalOutcome) : Option (List Notice) × Database Business :=
  match transaction.database.jobs.settleOutcome record result.outcome transaction.now with
  | (.error _, jobs) => (none, (transaction.withJobs jobs).rollBack.2)
  | (.ok settlement, jobs) =>
      match (transaction.withJobs jobs).commit with
      | (.error _, database) => (none, database)
      | (.ok (), database) =>
          ( some
              [ .enqueued transaction.enqueued, .effects result.effects,
                .settled record settlement ],
            database )

/-- Rolls the transaction of an execution back, and settles the failure in another one. -/
def concludeFailure (transaction : Transaction Business) (policy : RetryPolicy) (record : Record)
    (error : JobError) (draw : Nat) : Option (List Notice) × Database Business :=
  match transaction.rollBack with
  | (.error _, database) => (none, database)
  | (.ok (), database) =>
      match database.jobs.settleFailure record error policy draw transaction.now with
      | (.error _, _) => (none, database)
      | (.ok settlement, jobs) =>
          (some [.settled record settlement], { database with jobs := jobs })

/-- Runs a transactional execution and settles it: what its program did is committed together with
the outcome, or not at all, unless the transaction has lapsed. The answer is what to tell, or nothing
if the execution could not be settled. -/
def runTransactional (database : Database Business) (registry : Registry) (policy : RetryPolicy)
    (record : Record) (program : Program Business JobError TransactionalOutcome) (draw : Nat)
    (now : Instant) : Option (List Notice) × Database Business :=
  let (ending, transaction) := program.run (Transaction.begin registry now database)
  match ending with
  | .done result => concludeDone transaction record result
  | .failed error => concludeFailure transaction policy record error draw
  | .broken breakdown => concludeFailure transaction policy record (.ofBreakdown breakdown) draw

def runQueued (engine : Engine Business)
    (executor : Record → Program Business JobError TransactionalOutcome) (draw : Nat)
    (now : Instant) : Option (Engine Business) :=
  match engine.nextQueued? with
  | none => none
  | some execution =>
      let (notices, database) :=
        runTransactional engine.database engine.registry engine.config.retry execution.record
          (executor execution.record) draw now
      let stage : ExecutionStage :=
        match notices with
        | none => .ended
        | some notices => .reporting notices
      some ({ engine with database := database }.setStage execution.ticket stage)

def acquire (engine : Engine Business) (ticket : Nat) : Option (Engine Business) :=
  match engine.dispatcher, engine.execution? ticket with
  | some dispatcher, some execution =>
      match execution.stage, dispatcher.free.take? execution.kind with
      | .waiting, some left => some ((engine.setFree fun _ => left).setStage ticket .running)
      | _, _ => none
  | _, _ => none

/-- Ends the execution of a normal or long-running record, which gives its slot back. -/
def return? (engine : Engine Business) (ticket : Nat) (result : Except JobError Outcome) :
    Option (Engine Business) :=
  match engine.execution? ticket with
  | some execution =>
      match execution.stage with
      | .running =>
          some ((engine.setFree fun free => free.release execution.kind).setStage ticket (.returned result))
      | _ => none
  | none => none

/-- Settles an execution that ended. One that cannot be settled leaves its record running. -/
def settle (engine : Engine Business) (ticket draw : Nat) (now : Instant) :
    Option (Engine Business) :=
  match engine.execution? ticket with
  | some execution =>
      match execution.stage with
      | .returned result =>
          let policy := engine.config.retry
          if engine.isWriterStopped then some (engine.setStage ticket .ended)
          else
            match engine.database.jobs.settle execution.record result policy draw now with
            | (.error _, _) => some (engine.setStage ticket .ended)
            | (.ok settlement, jobs) =>
                some
                  ({ engine with database := { engine.database with jobs := jobs } }.setStage ticket
                    (.reporting [.settled execution.record settlement]))
      | _ => none
  | none => none

/-- Tells the next notice of an execution, or ends it if there is none left. -/
def report (engine : Engine Business) (ticket : Nat) (now : Instant) : Option (Engine Business) :=
  match engine.execution? ticket with
  | some execution =>
      match execution.stage with
      | .reporting [] => some (engine.setStage ticket .ended)
      | .reporting (notice :: rest) =>
          some ((engine.setStage ticket (.reporting rest)).tell notice now)
      | _ => none
  | none => none

/-! ### The end of the writer -/

/-- Stops the writer. Executions in its queue are never run. -/
def stopWriter (engine : Engine Business) : Engine Business :=
  { engine with
    isWriterStopped := true
    dispatcher := engine.dispatcher.map fun dispatcher =>
      { dispatcher with
        executions := dispatcher.executions.map fun execution =>
          match execution.stage with
          | .queued => { execution with stage := .ended }
          | _ => execution } }

end Engine

end DurableJobs
