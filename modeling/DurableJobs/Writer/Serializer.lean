import DurableJobs.Config

/-!
The writer: a queue of work for the only connection that writes to a database.

The connection lives on a worker, which the first submission starts and which ends after some time
without work. Submissions, workers and calls of `shutdown` go on independently of each other; each
section under the writer's lock is one step, and so are the signal of a shutdown, the opening of a
connection, the start and the end of a unit of work, and each reply. A step that nobody can take now
is none.

Work is run in the order in which it was accepted. A unit that fails or breaks fails alone; a unit
whose token was canceled before it was reached is not run.
-/

set_option autoImplicit false

namespace DurableJobs.Writer

inductive WriterState where
  | idle
  | starting
  | running
  | stopping
  | stopped
deriving DecidableEq

namespace WriterState

def name : WriterState → String
  | .idle => "Idle"
  | .starting => "Starting"
  | .running => "Running"
  | .stopping => "Stopping"
  | .stopped => "Stopped"

end WriterState

structure Work (World Result : Type) where
  ticket : Nat
  token : Option Nat
  /-- Whether the unit is awaited, which takes a runtime. -/
  isAwaited : Bool
  hasRuntime : Bool
  body : World → Ending EngineError Result × World

inductive WorkerStage (World Result : Type) where
  | opening
  | opened
  /-- To look for work, or to wait for it, or to end if the wait was too long. -/
  | choosing (isLate : Bool)
  | waiting
  | holding (work : Work World Result)
  | executing (work : Work World Result)
  | closing
  /-- To refuse the work that it took from the queue. -/
  | refusing (works : List (Work World Result)) (error : EngineError)

structure Worker (World Result : Type) where
  id : Nat
  stage : WorkerStage World Result

inductive ShutdownStage (World Result : Type) where
  | announced (worker : Option Nat)
  | signalled (worker : Option Nat)
  | joined
  | refusing (works : List (Work World Result))
  | returned

structure Shutdown (World Result : Type) where
  call : Nat
  stage : ShutdownStage World Result

structure Reply (Result : Type) where
  ticket : Nat
  result : Except EngineError Result

structure Serializer (World Result : Type) where
  config : WriterConfig
  /-- Opens a connection to the database. -/
  connect : World → Except EngineError Unit × World
  /-- Makes a fresh connection ready for work. -/
  prepare : World → Except EngineError Unit × World
  state : WriterState
  queue : List (Work World Result)
  joinable : Option Nat
  starts : Nat
  isSignalled : Bool
  workers : List (Worker World Result)
  shutdowns : List (Shutdown World Result)
  canceled : List Nat
  world : World
  replies : List (Reply Result)

inductive Event (World Result : Type) where
  /-- Work is submitted; whether a worker could be started if one is needed. -/
  | submit (work : Work World Result) (canStart : Bool)
  | cancel (token : Nat)
  /-- A waiting worker goes on, in time or too late. -/
  | wake (worker : Nat) (isLate : Bool)
  | work (worker : Nat)
  | shutdown (call : Nat)
  | proceed (call : Nat)

namespace Serializer

variable {World Result : Type}

def new (config : WriterConfig) (connect prepare : World → Except EngineError Unit × World)
    (world : World) : Serializer World Result where
  config := config
  connect := connect
  prepare := prepare
  state := .idle
  queue := []
  joinable := none
  starts := 0
  isSignalled := false
  workers := []
  shutdowns := []
  canceled := []
  world := world
  replies := []

def reply (writer : Serializer World Result) (ticket : Nat) (result : Except EngineError Result) :
    Serializer World Result :=
  { writer with replies := writer.replies ++ [⟨ticket, result⟩] }

def worker? (writer : Serializer World Result) (id : Nat) : Option (WorkerStage World Result) :=
  (writer.workers.find? fun worker => worker.id == id).map Worker.stage

def setWorker (writer : Serializer World Result) (id : Nat) (stage : WorkerStage World Result) :
    Serializer World Result :=
  { writer with
    workers := writer.workers.map fun worker => if worker.id = id then ⟨id, stage⟩ else worker }

def endWorker (writer : Serializer World Result) (id : Nat) : Serializer World Result :=
  { writer with workers := writer.workers.filter fun worker => worker.id != id }

def shutdown? (writer : Serializer World Result) (call : Nat) :
    Option (ShutdownStage World Result) :=
  (writer.shutdowns.find? fun shutdown => shutdown.call == call).map Shutdown.stage

def setShutdown (writer : Serializer World Result) (call : Nat)
    (stage : ShutdownStage World Result) : Serializer World Result :=
  { writer with
    shutdowns := writer.shutdowns.map fun shutdown =>
      if shutdown.call = call then ⟨call, stage⟩ else shutdown }

/-! ### Submissions -/

/-- Accepts work, wakes a worker that waits for it, or refuses it. -/
def submit (writer : Serializer World Result) (work : Work World Result) (canStart : Bool) :
    Serializer World Result :=
  let accepted := { writer with queue := writer.queue ++ [work] }
  match writer.state with
  | .stopping | .stopped => writer.reply work.ticket (.error (.shutDown writer.config.name))
  | .idle =>
      if canStart then
        { accepted with
          state := .starting
          joinable := some writer.starts
          starts := writer.starts + 1
          workers := writer.workers ++ [⟨writer.starts, .opening⟩] }
      else writer.reply work.ticket (.error (.writerUnavailable "cannot spawn worker"))
  | .starting | .running => accepted

def isCanceled (writer : Serializer World Result) (work : Work World Result) : Bool :=
  match work.token with
  | none => false
  | some token => writer.canceled.contains token

/-! ### Workers -/

def longestBusyMillis : Nat := 0x7fffffff

/-- The last second that a deadline can lie in. A deadline is the idle time after the reading of the
clock, which shows the time since the machine was started; this is taken to be zero, so that the last
idle times that fit here do not fit once the clock has gone on. -/
def longestIdleSeconds : Nat := 0x7fffffffffffffff

/-- Connects, sets the time to wait for locks, and prepares the connection. No result is left if
the time to wait is too long to be set. -/
def openConnection (writer : Serializer World Result) : Option (Except EngineError Unit) × World :=
  match writer.connect writer.world with
  | (.error error, world) => (some (.error error), world)
  | (.ok (), world) =>
      if longestBusyMillis < writer.config.busyTimeout.millis then (none, world)
      else
        let (result, prepared) := writer.prepare world
        (some result, prepared)

/-- Opens the connection. Without a result the worker breaks, and ends without a word. -/
def openWorker (writer : Serializer World Result) (id : Nat) : Serializer World Result :=
  match writer.openConnection with
  | (none, world) => { writer with world := world }.endWorker id
  | (some (.ok ()), world) => { writer with world := world }.setWorker id .opened
  | (some (.error error), world) =>
      let state := if writer.state = .starting then .idle else writer.state
      { writer with world := world, state := state, queue := [] }.setWorker id
        (.refusing writer.queue (.writerUnavailable error.message))

/-- Looks for work. An idle time that no deadline can lie ahead breaks the worker, which then ends
without a word. -/
def choose (writer : Serializer World Result) (id : Nat) (isLate : Bool) :
    Serializer World Result :=
  if longestIdleSeconds < writer.config.idleTimeout.seconds then writer.endWorker id
  else if writer.isSignalled then writer.setWorker id .closing
  else
    match writer.queue with
    | work :: rest => { writer with queue := rest }.setWorker id (.holding work)
    | [] =>
        if isLate then { writer with state := .idle }.endWorker id
        else writer.setWorker id .waiting

def advance (writer : Serializer World Result) (id : Nat) :
    WorkerStage World Result → Option (Serializer World Result)
  | .opening => some (writer.openWorker id)
  | .opened =>
      let state := if writer.state = .starting then .running else writer.state
      some ({ writer with state := state }.setWorker id (.choosing false))
  | .choosing isLate => some (writer.choose id isLate)
  | .waiting => none
  | .holding work =>
      if writer.isCanceled work then
        some ((writer.reply work.ticket (.error .canceled)).setWorker id (.choosing false))
      else some (writer.setWorker id (.executing work))
  | .executing work =>
      if work.isAwaited && !work.hasRuntime then
        some ((writer.reply work.ticket (.error .noRuntime)).setWorker id (.choosing false))
      else
        let (ending, world) := work.body writer.world
        some (({ writer with world := world }.reply work.ticket ending.result).setWorker id
          (.choosing false))
  | .closing =>
      some ({ writer with state := .stopped, queue := [] }.setWorker id
        (.refusing writer.queue .canceled))
  | .refusing [] _ => some (writer.endWorker id)
  | .refusing (work :: rest) error =>
      some ((writer.reply work.ticket (.error error)).setWorker id (.refusing rest error))

/-! ### Shutdown -/

def beginShutdown (writer : Serializer World Result) (call : Nat) : Serializer World Result :=
  let listed := fun (stage : ShutdownStage World Result) => writer.shutdowns ++ [⟨call, stage⟩]
  match writer.state with
  | .stopped => { writer with shutdowns := listed .returned }
  | .idle => { writer with state := .stopped, shutdowns := listed (.announced none) }
  | _ =>
      { writer with
        state := .stopping
        joinable := none
        shutdowns := listed (.announced writer.joinable) }

/-- Does what a call of `shutdown` is about to do, unless it has to wait for a worker. -/
def proceed (writer : Serializer World Result) (call : Nat) :
    ShutdownStage World Result → Option (Serializer World Result)
  | .announced worker =>
      some ({ writer with isSignalled := true }.setShutdown call (.signalled worker))
  | .signalled none => some (writer.setShutdown call .joined)
  | .signalled (some worker) =>
      if (writer.worker? worker).isSome then none else some (writer.setShutdown call .joined)
  | .joined =>
      some ({ writer with state := .stopped, queue := [] }.setShutdown call
        (.refusing writer.queue))
  | .refusing [] => some (writer.setShutdown call .returned)
  | .refusing (work :: rest) =>
      some ((writer.reply work.ticket (.error .canceled)).setShutdown call (.refusing rest))
  | .returned => none

/-! ### Steps -/

def step (writer : Serializer World Result) :
    Event World Result → Option (Serializer World Result)
  | .submit work canStart => some (writer.submit work canStart)
  | .cancel token => some { writer with canceled := token :: writer.canceled }
  | .wake id isLate =>
      match writer.worker? id with
      | some .waiting => some (writer.setWorker id (.choosing isLate))
      | _ => none
  | .work id => (writer.worker? id).bind (writer.advance id)
  | .shutdown call =>
      if (writer.shutdown? call).isSome then none else some (writer.beginShutdown call)
  | .proceed call => (writer.shutdown? call).bind (writer.proceed call)

def result? (writer : Serializer World Result) (ticket : Nat) :
    Option (Except EngineError Result) :=
  (writer.replies.find? fun reply => reply.ticket == ticket).map Reply.result

def text (writer : Serializer World Result) : String :=
  "WriteSerializer \x7b name: " ++ Text.quoted writer.config.name ++ ", path: " ++
    Text.quoted writer.config.path ++ ", state: " ++ writer.state.name ++ " \x7d"

end Serializer

end DurableJobs.Writer
