import DurableJobs.Writer.Serializer
import DurableJobs.Items
import DurableJobs.Json

/-!
Sessions with one writer on a file that holds a table of items.

After each request the writer does all that it can do: work is run as soon as it is reached, and
only a unit behind a gate waits until it is released. Reads use a connection of their own, which cannot
write and does not create the file.
-/

set_option autoImplicit false

namespace DurableJobs.Writer

structure File where
  path : String
  hasFolder : Bool
  isThere : Bool
  items : Option Items
  createsItems : Bool
  refusals : Nat

namespace File

def noItems : StoreError := .noTable "items"

/-- Opens the file, which is created if need be. -/
def connect (file : File) : Except EngineError Unit × File :=
  if file.hasFolder then (.ok (), { file with isThere := true })
  else (.error (.store (.cannotOpen file.path)), file)

/-- Creates the table of items, unless that is refused. -/
def prepare (file : File) : Except EngineError Unit × File :=
  if file.createsItems then
    if 0 < file.refusals then
      (.error (.internal "initializer refused"), { file with refusals := file.refusals - 1 })
    else (.ok (), { file with items := some (file.items.getD []) })
  else (.ok (), file)

def insert (file : File) (name : Option String) : Except StoreError File :=
  match file.items with
  | none => .error noItems
  | some items => (Items.insert name items).map fun larger => { file with items := some larger }

def insertAll (file : File) (names : List (Option String)) : Except StoreError File :=
  names.foldlM insert file

def list (file : File) : Except StoreError Items :=
  match file.items with
  | none => .error noItems
  | some items => .ok items

end File

inductive Chore where
  | value (value : Json)
  | fail (error : EngineError)
  | breakDown (breakdown : Breakdown)
  | insert (name : Option String)
  | list
  /-- Inserts items and ends well, with an error or with a break, all in one transaction. -/
  | transaction (names : List (Option String)) (ending : Ending EngineError Unit)

namespace Chore

def ofItems (items : Items) : Json := .array (items.map .text)

def run (chore : Chore) (file : File) : Ending EngineError Json × File :=
  match chore with
  | .value answer => (.done answer, file)
  | .fail error => (.failed error, file)
  | .breakDown breakdown => (.broken breakdown, file)
  | .insert name =>
      match file.insert name with
      | .ok changed => (.done (.integer 1), changed)
      | .error error => (.failed (.store error), file)
  | .list =>
      match file.list with
      | .ok items => (.done (ofItems items), file)
      | .error error => (.failed (.store error), file)
  | .transaction names ending =>
      match file.insertAll names with
      | .error error => (.failed (.store error), file)
      | .ok changed =>
          match ending with
          | .failed error => (.failed error, file)
          | .broken breakdown => (.broken breakdown, file)
          | .done () =>
              match changed.list with
              | .ok items => (.done (ofItems items), changed)
              | .error error => (.failed (.store error), file)

end Chore

inductive Reading where
  | items
  | write
  | breakDown (breakdown : Breakdown)

structure Session where
  writer : Serializer File Json
  names : List (String × Nat)
  gated : List Nat
  nextTicket : Nat
  tokens : List String
  calls : Nat

namespace Session

def start (config : WriterConfig) (file : File) : Session where
  writer := Serializer.new config File.connect File.prepare file
  names := []
  gated := []
  nextTicket := 0
  tokens := []
  calls := 0

/-- The next step that the writer can take by itself. A worker that waits goes on only if there is
work or a shutdown. -/
def nextEvent? (session : Session) : Option (Event File Json) :=
  let writer := session.writer
  let ofWorker := fun (worker : Worker File Json) =>
    match worker.stage with
    | .waiting =>
        if writer.queue.isEmpty && !writer.isSignalled then none
        else some (.wake worker.id false)
    | .executing work => if session.gated.contains work.ticket then none else some (.work worker.id)
    | _ => some (.work worker.id)
  let ofShutdown := fun (shutdown : Shutdown File Json) =>
    if (writer.proceed shutdown.call shutdown.stage).isSome then
      some (Event.proceed shutdown.call)
    else none
  (writer.workers.findSome? ofWorker).or (writer.shutdowns.findSome? ofShutdown)

/-- Lets the writer do all that it can do, in so many steps at most. -/
def settle : Nat → Session → Session
  | 0, session => session
  | rounds + 1, session =>
      match session.nextEvent?.bind session.writer.step with
      | none => session
      | some writer => settle rounds { session with writer := writer }

def happen (session : Session) (event : Event File Json) : Session :=
  match session.writer.step event with
  | none => session
  | some writer =>
      let rounds := 4 * (writer.queue.length + writer.workers.length + writer.shutdowns.length + 4)
      settle rounds { session with writer := writer }

def token (session : Session) (name : String) : Nat × Session :=
  match session.tokens.findIdx? fun other => other == name with
  | some index => (index, session)
  | none => (session.tokens.length, { session with tokens := session.tokens ++ [name] })

structure Submission where
  chore : Chore
  isAwaited : Bool
  hasRuntime : Bool
  name : Option String
  token : Option String
  isGated : Bool

def submit (session : Session) (submission : Submission) : Session :=
  let (token, session) :=
    match submission.token with
    | none => (none, session)
    | some name =>
        let (token, session) := session.token name
        (some token, session)
  let ticket := session.nextTicket
  let work : Work File Json :=
    { ticket, token
      isAwaited := submission.isAwaited
      hasRuntime := submission.hasRuntime
      body := submission.chore.run }
  let noted :=
    { session with
      nextTicket := ticket + 1
      names := (submission.name.map fun name => (name, ticket)).toList ++ session.names
      gated := if submission.isGated then ticket :: session.gated else session.gated }
  noted.happen (.submit work true)

/-- The result of the unit with a ticket; it was dropped if there is none. -/
def result (session : Session) (ticket : Nat) : Except EngineError Json :=
  (session.writer.result? ticket).getD
    (.error (.internal "write operation dropped without a result"))

/-- Runs a unit that nobody else waits for; the answer is its result. -/
def execute (session : Session) (chore : Chore) (isAwaited hasRuntime : Bool) :
    Except EngineError Json × Session :=
  let after := session.submit ⟨chore, isAwaited, hasRuntime, none, none, false⟩
  (after.result session.nextTicket, after)

def ticket? (session : Session) (name : String) : Option Nat :=
  (session.names.find? fun entry => entry.1 == name).map (·.2)

def release (session : Session) (name : String) : Session :=
  let gated := session.gated.filter fun ticket => some ticket != session.ticket? name
  let opened := { session with gated := gated }
  let writer := opened.writer
  settle (4 * (writer.queue.length + writer.workers.length + writer.shutdowns.length + 4)) opened

def cancel (session : Session) (name : String) : Session :=
  let (token, session) := session.token name
  session.happen (.cancel token)

def shutdown (session : Session) : Session :=
  { session with calls := session.calls + 1 }.happen (.shutdown session.calls)

def patience : Nat := 5000

/-- Waits for a state: a worker without work ends when its idle time is over. -/
def waitFor (session : Session) (name : String) : Session :=
  let writer := session.writer
  if writer.state.name == name || patience < writer.config.idleTimeout.millis then session
  else
    match writer.workers.find? fun worker =>
        match worker.stage with
        | .waiting => true
        | _ => false with
    | some worker => session.happen (.wake worker.id true)
    | none => session

def read (session : Session) (reading : Reading) : Except EngineError Json :=
  let file := session.writer.world
  if file.hasFolder && file.isThere then
    match reading with
    | .items =>
        match file.list with
        | .ok items => .ok (Chore.ofItems items)
        | .error error => .error (.store error)
    | .write =>
        match file.list with
        | .ok _ => .error (.store .readOnly)
        | .error error => .error (.store error)
    | .breakDown breakdown => .error (.ofBreakdown breakdown)
  else .error (.store (.cannotOpen file.path))

end Session

end DurableJobs.Writer
