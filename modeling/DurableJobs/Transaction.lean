import DurableJobs.Registry
import DurableJobs.Store.Settlement

/-!
Transactions on the job table and on what else the database holds.

A transaction works on a copy of the database, and notes which jobs it enqueued. Only types that are
registered can be enqueued. What runs inside is a program: it asks for one thing after the other and
goes on with the answer, until it is done, fails or breaks. Whether the copy becomes the database is
decided by whoever opened the transaction.

A store that has used up its ids, like a statement that asks for it, takes the whole transaction back.
The transaction has then lapsed: its program goes on all the same, but each statement is committed as
it is made, and there is nothing left to commit or to roll back.
-/

set_option autoImplicit false

namespace DurableJobs

structure Database (Business : Type) where
  jobs : Store.Table
  business : Business
  /-- What a commit is refused with that takes the business rows from the first to the second: some
  constraints are not checked before. -/
  refusal? : Business → Business → Option StoreError := fun _ _ => none

structure Enqueued where
  receipt : Store.Receipt
  jobType : String
  correlationId : Uuid
deriving DecidableEq

structure Transaction (Business : Type) where
  registry : Registry
  now : Instant
  /-- The database to roll back to, unless the transaction has lapsed. -/
  saved? : Option (Database Business)
  database : Database Business
  enqueued : List Enqueued

namespace Transaction

variable {Business : Type}

def begin (registry : Registry) (now : Instant) (database : Database Business) :
    Transaction Business :=
  ⟨registry, now, some database, database, []⟩

def isOpen (transaction : Transaction Business) : Bool := transaction.saved?.isSome

/-- The store takes back what was done in the transaction. -/
def lapse (transaction : Transaction Business) : Transaction Business :=
  match transaction.saved? with
  | none => transaction
  | some saved => { transaction with saved? := none, database := saved }

/-- Does what a statement does to the database. Once the transaction has lapsed, the statement is
refused what a commit of it would be refused. -/
def perform (transaction : Transaction Business)
    (statement : Database Business → Except StoreError (Database Business)) :
    Except StoreError Unit × Transaction Business :=
  match statement transaction.database with
  | .error error => (.error error, transaction)
  | .ok database =>
      let refusal? :=
        if transaction.isOpen then none
        else database.refusal? transaction.database.business database.business
      match refusal? with
      | some error => (.error error, transaction)
      | none => (.ok (), { transaction with database := database })

def withJobs (transaction : Transaction Business) (jobs : Store.Table) : Transaction Business :=
  { transaction with database := { transaction.database with jobs := jobs } }

def enqueue (transaction : Transaction Business) (job : Job) :
    Except EngineError Int × Transaction Business :=
  if transaction.registry.isRegistered job.jobType then
    match transaction.database.jobs.enqueue job transaction.now with
    | (.error .full, _) => (.error (.store .full), transaction.lapse)
    | (.error error, jobs) => (.error (.store error), transaction.withJobs jobs)
    | (.ok receipt, jobs) =>
        ( .ok receipt.id,
          { transaction.withJobs jobs with
            enqueued := transaction.enqueued ++ [⟨receipt, job.jobType, job.correlationId⟩] } )
  else (.error (.notRegistered job.jobType), transaction)

/-- Enqueues jobs of one correlation. The first refusal ends it and keeps what was enqueued. -/
def enqueueAll (transaction : Transaction Business) (jobs : List Job) (correlation : Uuid) :
    Except EngineError (List Int) × Transaction Business :=
  match jobs with
  | [] => (.ok [], transaction)
  | job :: rest =>
      match transaction.enqueue (job.withCorrelationId correlation) with
      | (.error error, after) => (.error error, after)
      | (.ok id, after) =>
          match after.enqueueAll rest correlation with
          | (.error error, final) => (.error error, final)
          | (.ok ids, final) => (.ok (id :: ids), final)

/-- Commits the transaction. With the answer goes the database as it then is. -/
def commit (transaction : Transaction Business) : Except StoreError Unit × Database Business :=
  match transaction.saved? with
  | none => (.error (.noTransaction "commit"), transaction.database)
  | some saved =>
      match transaction.database.refusal? saved.business transaction.database.business with
      | some error => (.error error, saved)
      | none => (.ok (), transaction.database)

def rollBack (transaction : Transaction Business) : Except StoreError Unit × Database Business :=
  match transaction.saved? with
  | none => (.error (.noTransaction "rollback"), transaction.database)
  | some saved => (.ok (), saved)

end Transaction

/-- What a program inside a transaction does: one request after the other, each with what follows
its answer. -/
inductive Program (Business Error Value : Type) where
  | done (value : Value)
  | fail (error : Error)
  | breakDown (breakdown : Breakdown)
  | enqueue (job : Job) (next : Except EngineError Int → Program Business Error Value)
  | enqueueAll (jobs : List Job) (correlation : Uuid)
      (next : Except EngineError (List Int) → Program Business Error Value)
  | write (edit : Business → Except StoreError Business)
      (next : Except StoreError Unit → Program Business Error Value)
  | execute (edit : Database Business → Except StoreError (Database Business))
      (next : Except StoreError Unit → Program Business Error Value)
  /-- A statement that fails and takes the whole transaction back. -/
  | rollBack (next : Program Business Error Value)
  | look (next : Database Business → Program Business Error Value)

namespace Program

variable {Business Error Value : Type}

/-- The statement that edits the business rows. -/
def onBusiness (edit : Business → Except StoreError Business) (database : Database Business) :
    Except StoreError (Database Business) :=
  (edit database.business).map fun business => { database with business := business }

def run : Program Business Error Value → Transaction Business →
    Ending Error Value × Transaction Business
  | .done value, transaction => (.done value, transaction)
  | .fail error, transaction => (.failed error, transaction)
  | .breakDown breakdown, transaction => (.broken breakdown, transaction)
  | .enqueue job next, transaction =>
      let (answer, after) := transaction.enqueue job
      run (next answer) after
  | .enqueueAll jobs correlation next, transaction =>
      let (answer, after) := transaction.enqueueAll jobs correlation
      run (next answer) after
  | .write edit next, transaction =>
      let (answer, after) := transaction.perform (onBusiness edit)
      run (next answer) after
  | .execute edit next, transaction =>
      let (answer, after) := transaction.perform edit
      run (next answer) after
  | .rollBack next, transaction => run next transaction.lapse
  | .look next, transaction => run (next transaction.database) transaction

end Program

end DurableJobs
