import DurableJobs.Script.Act

/-!
Sessions: an engine with scripted executors, run step by step on a clock of its own.

A run lets everything happen that can happen, always in the same order: the dispatcher goes on until
it waits, executions go on in the order in which they were launched, and only then the dispatcher
looks again. When nothing can happen the clock moves to the next instant at which something can. So
every session has one course, which is one of those that the engine's steps allow.
-/

set_option autoImplicit false

namespace DurableJobs.Script

structure Call where
  record : Record
  name : String
  isDetailed : Bool

/-- A call of an executor that is not transactional, as far as it got. -/
structure Running where
  ticket : Nat
  record : Record
  act : Act
  deeds : List Deed
  limit : Option Duration
  deadline : Option Instant

structure Session where
  engine : Engine Items
  invalidator : Invalidator
  clock : Instant
  /-- When the dispatcher will have waited long enough, if it waits. -/
  wakeAt : Instant
  /-- The identifiers that are shown in full. -/
  given : List Uuid
  drawn : Nat
  /-- The other identifiers that jobs were enqueued with, each with the lowest id of such a job. -/
  known : List (Uuid × Int)
  learned : Nat
  calls : List ((String × String) × Nat)
  running : List Running
  signals : List String
  log : List Call
  transactional : List String
  asynchronous : List String
  shownEvents : Nat
  shownHappenings : Nat

namespace Session

def beginning : Instant := (Instant.ofMillis? 1750000000000).getD Instant.epoch

def new (engine : Engine Items) (invalidator : Invalidator) (given : List Uuid) : Session where
  given := given
  engine := engine
  invalidator := invalidator
  clock := beginning
  wakeAt := beginning
  drawn := 0
  known := []
  learned := 0
  calls := []
  running := []
  signals := []
  log := []
  transactional := []
  asynchronous := []
  shownEvents := 0
  shownHappenings := 0

/-! ### Identifiers -/

def learnId (known : List (Uuid × Int)) (id : Uuid) (job : Int) : List (Uuid × Int) :=
  match known.find? fun entry => entry.1 == id with
  | none => (id, job) :: known
  | some _ =>
      known.map fun entry => if entry.1 = id then (entry.1, min entry.2 job) else entry

def learnJob (session : Session) (job : Int) (correlation : Uuid) : Session :=
  let saga :=
    match (session.engine.database.jobs.find? job).map Store.Row.sagaId with
    | some (.text text) => Uuid.ofText? text
    | _ => none
  let ids := (correlation :: saga.toList).filter fun id => !session.given.contains id
  { session with known := ids.foldl (fun known id => learnId known id job) session.known }

/-- Learns the identifiers of the jobs that were enqueued since. -/
def learn (session : Session) : Session :=
  let events := session.engine.telemetry.events
  let learnEvent := fun (session : Session) (event : Event) =>
    match event.change with
    | .enqueued _ correlation _ => session.learnJob event.jobId correlation
    | _ => session
  (events.drop session.learned).foldl learnEvent { session with learned := events.length }

def label? (session : Session) (id : Uuid) : Option Int :=
  (session.known.find? fun entry => entry.1 == id).map (·.2)

/-! ### Calls from outside -/

def announceAll : Nat → Engine Items → Instant → Engine Items
  | 0, engine, _ => engine
  | rounds + 1, engine, now =>
      match engine.announce 0 now with
      | none => engine
      | some told => announceAll rounds told now

def follow (session : Session) (engine : Engine Items) : Session :=
  let rounds := engine.owed.foldl (fun count notices => count + notices.length + 1) 0
  ({ session with engine := announceAll rounds engine session.clock }).learn

def call {Value : Type} (session : Session) (answer : Except EngineError Value × Engine Items) :
    Except EngineError Value × Session :=
  (answer.1, session.follow answer.2)

def draw (session : Session) (count : Nat) : Session :=
  { session with drawn := session.drawn + count }

def enqueue (session : Session) (spec : JobSpec) : Except EngineError Int × Session :=
  (session.draw JobSpec.draws).call
    (session.engine.enqueue (spec.job session.drawn) session.clock)

def enqueueAll (session : Session) (specs : List JobSpec) (correlation : Uuid) :
    Except EngineError (List Int) × Session :=
  (session.draw (specs.length * JobSpec.draws)).call
    (session.engine.enqueueAll (JobSpec.jobs specs session.drawn) correlation session.clock)

/-- Enqueues a job whatever its type, without telling of it. -/
def enqueueAny (session : Session) (spec : JobSpec) :
    Except EngineError Store.Receipt × Session :=
  let job := spec.job session.drawn
  let (answer, engine) :=
    session.engine.execute
      (fun database =>
        let (answer, jobs) := database.jobs.enqueue job session.clock
        (answer, { database with jobs := jobs }))
      fun _ => []
  let after := (session.draw JobSpec.draws).follow engine
  match answer with
  | .ok receipt => (.ok receipt, after.learnJob receipt.id job.correlationId)
  | .error error => (.error error, after)

def programOfJobs (ending : Ending EngineError Unit) :
    List Job → List Int → Program Items EngineError (List Int)
  | [], ids =>
      match ending with
      | .done () => .done ids
      | .failed error => .fail error
      | .broken breakdown => .breakDown breakdown
  | job :: rest, ids =>
      .enqueue job fun
        | .ok id => programOfJobs ending rest (ids ++ [id])
        | .error error => .fail error

def programOfItems (program : Program Items EngineError (List Int)) :
    List (Option String) → Program Items EngineError (List Int)
  | [] => program
  | name :: rest =>
      .write (Items.insert name) fun
        | .ok () => programOfItems program rest
        | .error error => .fail (.store error)

def transaction (session : Session) (names : List (Option String)) (specs : List JobSpec)
    (ending : Ending EngineError Unit) : Except EngineError (List Int) × Session :=
  let jobs := JobSpec.jobs specs session.drawn
  (session.draw (specs.length * JobSpec.draws)).call
    (session.engine.transact (programOfItems (programOfJobs ending jobs []) names) session.clock)

def cancel (session : Session) (id : Int) : Except EngineError Bool × Session :=
  session.call (session.engine.cancel id)

def requeue (session : Session) (id : Int) : Except EngineError Store.Rescheduled × Session :=
  session.call (session.engine.requeue id session.clock)

def editTable (session : Session) (edit : Store.Table → Store.Table) : Session :=
  let database := session.engine.database
  { session with
    engine := { session.engine with database := { database with jobs := edit database.jobs } } }

/-- Leaves records running, as a process that died does; the answer is how many there were. -/
def leaveRunning (session : Session) (ids : List Int) : Nat × Session :=
  let table := session.engine.database.jobs
  let found := table.rows.filter fun row => ids.contains row.id
  let mark := fun (table : Store.Table) (row : Store.Row) =>
    (table.change row.id fun row =>
      { row with state := .running, attempts := row.attempts.increment }).2
  (found.length, session.editTable fun table => found.foldl mark table)

def guardTable (session : Session) (isGuarded : Bool) : Session :=
  session.editTable fun table => { table with isGuarded := isGuarded }

def start (session : Session) : Attempt Unit × Session :=
  let (attempt, engine) := session.engine.start
  (attempt, { session with engine := engine })

def stopWriter (session : Session) : Session :=
  { session with engine := session.engine.stopWriter }

/-! ### Calls of executors -/

def countCall (key : String × String) :
    List ((String × String) × Nat) → List ((String × String) × Nat)
  | [] => [(key, 1)]
  | (other, count) :: rest =>
      if other = key then (other, count + 1) :: rest else (other, count) :: countCall key rest

/-- Notes a call of an executor; the act is what it has to do. -/
def noteCall (session : Session) (script : Script) (record : Record) : Act × Session :=
  let key := (record.jobType, script.name)
  let number := ((session.calls.find? fun entry => entry.1 == key).map (·.2)).getD 0
  let act := (actOf? script number).getD Act.idle
  ( act,
    { session with
      calls := countCall key session.calls
      log := session.log ++ [⟨record, script.name, act.isDetailed⟩] } )

def runQueued? (session : Session) (record : Record) : Option Session :=
  Script.deliver
    (fun error =>
      (session.engine.runQueued (fun _ => .fail error) 0 session.clock).map session.follow)
    (fun script record =>
      let (act, noted) := session.noteCall script record
      let program := act.program record noted.drawn
      (noted.engine.runQueued (fun _ => program) 0 noted.clock).map fun engine =>
        ({ noted with transactional := noted.transactional ++ [script.name] }.draw
          act.draws).follow engine)
    record

def limitOf (session : Session) (kind : ExecutorKind) : Option Duration :=
  match kind with
  | .transactional => none
  | .normal => session.engine.config.normalTimeout
  | .longRunning => session.engine.config.longRunningTimeout

def begin? (session : Session) (execution : Execution) : Option Session :=
  Script.deliver
    (fun error =>
      (session.engine.return? execution.ticket (.error error)).map session.follow)
    (fun script record =>
      let (act, noted) := session.noteCall script record
      let limit := noted.limitOf execution.kind
      some
        { noted with
          asynchronous := noted.asynchronous ++ [script.name]
          running := noted.running ++
            [⟨execution.ticket, record, act, act.deeds, limit, limit.map noted.clock.after⟩] })
    execution.record

def return? (session : Session) (ticket : Nat) (result : Except JobError Outcome) :
    Option Session :=
  (session.engine.return? ticket result).map fun engine =>
    { session with
      engine := engine
      running := session.running.filter fun running => running.ticket != ticket }

/-- Does a deed outside of transactions; the answer is its error, if it was refused. -/
def doDeed (session : Session) (record : Record) (deed : Deed) :
    Except EngineError Unit × Session :=
  let drawn := session.draw deed.draws
  match deed with
  | .item name =>
      drawn.call (session.engine.execute
        (fun database =>
          match Items.insert name database.business with
          | .ok items => (.ok (), { database with business := items })
          | .error error => (.error error, database))
        fun _ => [])
  | .enqueue spec =>
      let (answer, after) :=
        drawn.call (session.engine.enqueue (spec.job session.drawn) session.clock)
      (answer.map fun _ => (), after)
  | .next spec =>
      let (answer, after) :=
        drawn.call (session.engine.enqueue (spec.next record session.drawn) session.clock)
      (answer.map fun _ => (), after)
  | .enqueueAll specs =>
      let (answer, after) :=
        drawn.call (session.engine.enqueueAll (JobSpec.jobs specs session.drawn)
          record.correlationId session.clock)
      (answer.map fun _ => (), after)
  | .deleteSelf =>
      drawn.call (session.engine.execute
        (fun database =>
          match Act.erase record.id database with
          | .ok changed => (.ok (), changed)
          | .error error => (.error error, database))
        fun _ => [])
  | .signal label => (.ok (), { session with signals := label :: session.signals })
  | .await _ | .hang => (.ok (), session)

def isBlocked (session : Session) (running : Running) : Bool :=
  match running.deeds with
  | .await label :: _ => !session.signals.contains label
  | .hang :: _ => true
  | _ => false

def resultOf : Ending JobError Outcome → Except JobError Outcome
  | .done outcome => .ok outcome
  | .failed error => .error error
  | .broken breakdown => .error (.ofBreakdown breakdown)

def goOn? (session : Session) (running : Running) : Option Session :=
  match running.deeds with
  | [] => session.return? running.ticket (resultOf running.act.ending)
  | deed :: rest =>
      match session.doDeed running.record deed with
      | (.error error, after) => after.return? running.ticket (.error (.engine error))
      | (.ok (), after) =>
          some
            { after with
              running := after.running.map fun other =>
                if other.ticket = running.ticket then { other with deeds := rest } else other }

/-! ### Runs -/

/-- Notes how long the dispatcher waits from now on; a timer never ends before its millisecond. -/
def noteWait (session : Session) : Session :=
  match session.engine.dispatcher.map Dispatcher.phase with
  | some (.waiting delay) =>
      let whole := Duration.ofMillis delay.millis
      let rounded := if whole < delay then Duration.ofMillis (delay.millis + 1) else whole
      { session with wakeAt := session.clock.after rounded }
  | _ => session

def driveDispatcher? (session : Session) : Option Session :=
  let engine := session.engine
  let now := session.clock
  let next :=
    match engine.dispatcher.map Dispatcher.phase with
    | some .recovering => engine.recover 0 now
    | some .counting => engine.count
    | some (.scanning _) => engine.scan now now
    | some (.deciding _) => engine.decide now
    | some (.launching ..) => engine.launch now
    | some (.resting _) => engine.rest now
    | _ => none
  next.map fun engine => (session.follow engine).noteWait

def driveExecution? (session : Session) (execution : Execution) : Option Session :=
  match execution.stage with
  | .queued =>
      if session.engine.nextQueued?.any fun head => head.ticket == execution.ticket then
        session.runQueued? execution.record
      else none
  | .waiting => (session.engine.acquire execution.ticket).map session.follow
  | .running =>
      if session.running.any fun running => running.ticket == execution.ticket then none
      else session.begin? execution
  | .returned _ => (session.engine.settle execution.ticket 0 session.clock).map session.follow
  | .reporting _ => (session.engine.report execution.ticket session.clock).map session.follow
  | .ended => none

def driveExecutions? (session : Session) : Option Session :=
  match session.engine.dispatcher with
  | none => none
  | some dispatcher => dispatcher.executions.findSome? session.driveExecution?

def driveRunning? (session : Session) : Option Session :=
  (session.running.find? fun running => !session.isBlocked running).bind session.goOn?

def wakeDispatcher? (session : Session) : Option Session :=
  let engine := session.engine
  let byTime := if session.wakeAt ≤ session.clock then engine.wake .time else none
  (((engine.wake .notice).or (engine.wake .finished)).or byTime).map session.follow

def advance? (session : Session) : Option Session :=
  ((session.driveDispatcher?.or session.driveExecutions?).or session.driveRunning?).or
    session.wakeDispatcher?

def dueLimit : Duration := Duration.ofMillis 5000

def dues (session : Session) : List Instant :=
  session.engine.database.jobs.rows.filterMap fun row =>
    match row.state, row.notBefore with
    | .pending, .integer millis =>
        (Instant.ofMillis? millis).filter fun due =>
          session.clock < due && due.timeLeft session.clock ≤ dueLimit
    | _, _ => none

/-- When the dispatcher looks again, if there is or will soon be something to do; without one that
waits, the session just waits for what becomes due. -/
def nextTicks (session : Session) (dues : List Instant) : List Instant :=
  match session.engine.dispatcher with
  | none => dues
  | some dispatcher =>
      match dispatcher.phase with
      | .waiting _ =>
          let isActionable :=
            match session.engine.database.jobs.scan session.engine.registry dispatcher.free
                session.engine.config.batchSize session.clock with
            | .ok scan => scan.isActionable
            | .error _ => false
          if isActionable || !dues.isEmpty then [session.wakeAt] else []
      | _ => dues

def earlier (first second : Instant) : Instant :=
  if second < first then second else first

def expire (session : Session) : Session :=
  let expired := session.running.filter fun running =>
    running.deadline.any fun deadline => deadline ≤ session.clock
  expired.foldl
    (fun session running =>
      match running.limit with
      | none => session
      | some limit => (session.return? running.ticket (.error (.timedOut limit))).getD session)
    session

/-- Moves the clock to the next instant at which something can happen. -/
def elapse? (session : Session) (dues : List Instant) : Option Session :=
  match session.nextTicks dues ++ session.running.filterMap Running.deadline with
  | [] => none
  | first :: rest =>
      let later := { session with clock := rest.foldl earlier first }.expire
      if later.wakeAt ≤ later.clock then
        some { later with engine := (later.engine.wake .time).getD later.engine }
      else some later

def drive : Nat → Session → Session
  | 0, session => session
  | rounds + 1, session =>
      match session.advance?.or (session.elapse? session.dues) with
      | none => session
      | some next => drive rounds next

def drain : Nat → Session → Session
  | 0, session => session
  | rounds + 1, session =>
      match session.engine.finish with
      | some engine => { session with engine := engine }
      | none =>
          match session.advance?.or (session.elapse? []) with
          | none => session
          | some next => drain rounds next

def stepLimit : Nat := 1000000

/-- Runs the dispatcher until nothing more can happen, and then stops it. -/
def run (session : Session) : Session :=
  let started := if session.engine.isDispatching then session else session.start.2
  let idle := drive stepLimit started
  let stopping := (idle.engine.requestStop).getD idle.engine
  let draining := (stopping.wake .stop).getD stopping
  drain stepLimit { idle with engine := draining }

/-! ### What is shown -/

/-- How many events are kept for a subscriber: the capacity, rounded up to a power of two. -/
def kept (capacity : Nat) : Nat :=
  if capacity ≤ 1 then 1 else Nat.pow 2 ((capacity - 1).log2 + 1)

/-- The events since they were last shown; the oldest of too many are lost. -/
def takeEvents (session : Session) : List Event × Session :=
  let events := session.engine.telemetry.events
  let since := events.drop session.shownEvents
  ( since.drop (since.length - kept session.engine.config.eventCapacity),
    { session with shownEvents := events.length } )

def takeNotes (session : Session) : List String × Session :=
  let happenings := session.engine.happenings
  ( (happenings.drop session.shownHappenings).flatMap (Happening.notes session.invalidator),
    { session with shownHappenings := happenings.length } )

def forgetCalls (session : Session) : Session :=
  { session with log := [], transactional := [], asynchronous := [] }

end Session

end DurableJobs.Script
