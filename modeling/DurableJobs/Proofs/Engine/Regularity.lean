import DurableJobs.Proofs.Engine.Works
import DurableJobs.Proofs.Store.Ordering

/-!
Engines whose job table has its rows in order.

A program may also touch the job table with statements of its own; as the ids are the primary key,
these leave the rows by ascending id, whatever else they do. So does every move of an engine.
-/

set_option autoImplicit false

namespace DurableJobs

variable {Business : Type}

namespace Transaction

/-- The rows of the job table are in order, and so they are again if the transaction is rolled back. -/
structure Ordered (transaction : Transaction Business) : Prop where
  now : transaction.database.jobs.Ordered
  saved : ∀ saved, transaction.saved? = some saved → saved.jobs.Ordered

variable {transaction : Transaction Business}

theorem Ordered.lapse (ordered : transaction.Ordered) : transaction.lapse.Ordered := by
  unfold Transaction.lapse
  cases isSaved : transaction.saved? with
  | none => exact ordered
  | some saved => exact ⟨ordered.saved saved isSaved, nofun⟩

theorem Ordered.enqueue (ordered : transaction.Ordered) (job : Job) :
    (transaction.enqueue job).2.Ordered := by
  unfold Transaction.enqueue
  split
  · split <;> next answer => first
      | exact ordered.lapse
      | exact ⟨.of_answer (ordered.now.enqueue job transaction.now) answer, ordered.saved⟩
  · exact ordered

theorem Ordered.enqueueAll (ordered : transaction.Ordered) (jobs : List Job) (correlation : Uuid) :
    (transaction.enqueueAll jobs correlation).2.Ordered := by
  induction jobs generalizing transaction with
  | nil => exact ordered
  | cons job rest ih =>
      have first := ordered.enqueue (job.withCorrelationId correlation)
      rw [Transaction.enqueueAll]
      cases answer : transaction.enqueue (job.withCorrelationId correlation) with
      | mk result middle =>
          rw [answer] at first
          cases result with
          | error error => exact first
          | ok id =>
              have others := ih first
              cases isRest : middle.enqueueAll rest correlation with
              | mk ids final =>
                  rw [isRest] at others
                  cases ids <;> simpa [isRest] using others

theorem Ordered.perform (ordered : transaction.Ordered)
    {statement : Database Business → Except StoreError (Database Business)}
    (keeps : ∀ database edited, statement database = .ok edited → database.jobs.Ordered →
      edited.jobs.Ordered) : (transaction.perform statement).2.Ordered := by
  unfold Transaction.perform
  split
  · exact ordered
  · next database isEdited =>
      dsimp only
      split
      · exact ordered
      · exact ⟨keeps _ _ isEdited ordered.now, ordered.saved⟩

end Transaction

namespace Program

variable {Error Value : Type}

/-- What the program does to the job table with statements of its own leaves the rows in order. -/
def KeepsOrder : Program Business Error Value → Prop
  | .done _ => True
  | .fail _ => True
  | .breakDown _ => True
  | .enqueue _ next => ∀ answer, (next answer).KeepsOrder
  | .enqueueAll _ _ next => ∀ answer, (next answer).KeepsOrder
  | .write _ next => ∀ answer, (next answer).KeepsOrder
  | .execute edit next =>
      (∀ database edited, edit database = .ok edited → database.jobs.Ordered →
        edited.jobs.Ordered) ∧ ∀ answer, (next answer).KeepsOrder
  | .rollBack next => next.KeepsOrder
  | .look next => ∀ database, (next database).KeepsOrder

theorem LeavesJobs.keepsOrder {program : Program Business Error Value}
    (leavesJobs : program.LeavesJobs) : program.KeepsOrder := by
  induction program with
  | done value => trivial
  | fail error => trivial
  | breakDown breakdown => trivial
  | enqueue job next ih => exact fun answer => ih answer (leavesJobs answer)
  | enqueueAll jobs correlation next ih => exact fun answer => ih answer (leavesJobs answer)
  | write edit next ih => exact fun answer => ih answer (leavesJobs answer)
  | execute edit next ih =>
      refine ⟨fun database edited isEdited ordered => ?_, fun answer => ih answer (leavesJobs.2 answer)⟩
      rwa [leavesJobs.1 database edited isEdited]
  | rollBack next ih => exact ih leavesJobs
  | look next ih => exact fun database => ih database (leavesJobs database)

theorem KeepsOrder.run {program : Program Business Error Value} (keepsOrder : program.KeepsOrder)
    {transaction : Transaction Business} (ordered : transaction.Ordered) :
    (program.run transaction).2.Ordered := by
  induction program generalizing transaction with
  | done value => exact ordered
  | fail error => exact ordered
  | breakDown breakdown => exact ordered
  | enqueue job next ih => exact ih _ (keepsOrder _) (ordered.enqueue job)
  | enqueueAll jobs correlation next ih =>
      exact ih _ (keepsOrder _) (ordered.enqueueAll jobs correlation)
  | write edit next ih =>
      refine ih _ (keepsOrder _) (ordered.perform fun database edited isEdited isOrdered => ?_)
      rwa [jobs_onBusiness isEdited]
  | execute edit next ih => exact ih _ (keepsOrder.2 _) (ordered.perform keepsOrder.1)
  | rollBack next ih => exact ih keepsOrder ordered.lapse
  | look next ih => exact ih _ (keepsOrder _) ordered

/-- What the program has done and was not taken back leaves the rows in order. -/
theorem KeepsOrder.lasting {program : Program Business Error Value}
    (keepsOrder : program.KeepsOrder) (registry : Registry) (now : Instant)
    {database : Database Business} (ordered : database.jobs.Ordered) :
    (database.replay now
      (program.lasting (Transaction.begin registry now database))).jobs.Ordered := by
  rw [← program.database_run registry now database]
  refine (keepsOrder.run ⟨ordered, fun saved isSaved => ?_⟩).now
  obtain rfl : database = saved := Option.some.inj isSaved
  exact ordered

end Program

namespace Engine

/-- The programs of the move, if it has some, leave the rows of the job table in order. -/
def Move.KeepsOrder : Move Business → Prop
  | .transact program _ => program.KeepsOrder
  | .runQueued executor _ _ => ∀ record, (executor record).KeepsOrder
  | _ => True

/-- The engine has come by moves from a fresh one, and the rows of its job table have always been in
order. -/
inductive Regular : Engine Business → Prop where
  | fresh {engine : Engine Business} (fresh : engine.Fresh)
      (ordered : engine.database.jobs.Ordered) : Regular engine
  | moved {engine after : Engine Business} (regular : Regular engine) (move : Move Business)
      (keepsOrder : move.KeepsOrder) (taken : engine.step move = some after) : Regular after

section Regular

variable {engine after : Engine Business}

theorem transact_ordered {Value : Type} {program : Program Business EngineError Value}
    {now : Instant} (keepsOrder : program.KeepsOrder) (ordered : engine.database.jobs.Ordered) :
    (engine.transact program now).2.database.jobs.Ordered := by
  have lasting := keepsOrder.lasting engine.registry now ordered
  rcases engine.transact_cases program now with
    ⟨_, same, _⟩ | ⟨_, ⟨_, _, _, _, committed⟩ | ⟨_, _, lapsed⟩⟩
  · rwa [same]
  · rwa [committed]
  · rwa [lapsed]

theorem runTransactional_ordered {database : Database Business} (registry : Registry)
    (policy : RetryPolicy) (record : Record)
    {program : Program Business JobError TransactionalOutcome} (draw : Nat) (now : Instant)
    (keepsOrder : program.KeepsOrder) (ordered : database.jobs.Ordered) :
    (runTransactional database registry policy record program draw now).2.jobs.Ordered := by
  have lasting := keepsOrder.lasting registry now ordered
  obtain ⟨_, _, ran, concluded⟩ :=
    runTransactional_concluded database registry policy record program draw now
  rw [ran]
  cases concluded with
  | done _ _ settled _ => exact .of_answer (lasting.settleOutcome _ _ _) settled
  | failed _ _ settled => exact .of_answer (ordered.settleFailure _ _ _ _ _) settled
  | outcomeRefused => exact ordered
  | commitRefused => exact ordered
  | failureRefused => exact ordered
  | lapsedDone _ _ settled => exact .of_answer (lasting.settleOutcome _ _ _) settled
  | lapsedFailed => exact lasting

theorem step_ordered {move : Move Business} (keepsOrder : move.KeepsOrder)
    (ordered : engine.database.jobs.Ordered) (taken : engine.step move = some after) :
    after.database.jobs.Ordered := by
  have turns : (∃ before later, Turned engine after before later) →
      after.database.jobs.Ordered := by
    rintro ⟨_, _, turned⟩
    rwa [turned.database]
  cases move with
  | transact program now => exact Option.some.inj taken ▸ transact_ordered keepsOrder ordered
  | enqueue job now =>
      exact Option.some.inj taken ▸ transact_ordered leavesJobs_enqueuing.keepsOrder ordered
  | enqueueAll jobs correlation now =>
      exact Option.some.inj taken ▸ transact_ordered leavesJobs_enqueuingAll.keepsOrder ordered
  | cancel id =>
      obtain rfl := Option.some.inj taken
      rcases engine.cancel_cases id with same | ⟨_, _, canceled⟩
      · rwa [same]
      · rw [canceled]
        exact ordered.cancel id
  | requeue id now =>
      obtain rfl := Option.some.inj taken
      rcases engine.requeue_cases id now with same | ⟨_, _, requeued⟩
      · rwa [same]
      · rw [requeued]
        exact ordered.requeue id now
  | announce place now => rwa [(announce_sameWork taken).2]
  | start =>
      obtain rfl := Option.some.inj taken
      rcases engine.start_cases with same | ⟨_, marked | ⟨free, started⟩⟩
      · rwa [same]
      · rwa [marked]
      · rwa [started]
  | requestStop => exact turns (requestStop_turned taken)
  | recover draw now =>
      obtain ⟨_, _, _, _, rfl | ⟨_, rfl⟩, rfl⟩ := recover_cases taken
      · exact ordered
      · exact ordered.recover _ _ _ _
  | count => exact turns (count_turned taken)
  | scan now later => exact turns (scan_turned taken)
  | decide now =>
      obtain ⟨_, _, _, _, turned | ⟨_, _, _, _, answer, rfl⟩⟩ := decide_cases taken
      · exact turns turned
      · exact .of_answer (ordered.tick _ _ _ _) answer
  | launch now =>
      obtain ⟨_, _, told | dropped | launched | ended⟩ := launch_cases taken
      · obtain ⟨notice, _, _, _, _, rfl⟩ := told
        rwa [database_tell]
      · obtain ⟨_, _, _, _, _, rfl⟩ := dropped
        exact ordered
      · obtain ⟨_, _, _, _, _, _, _, _, _, _, rfl⟩ := launched
        exact ordered
      · obtain ⟨_, _, rfl⟩ := ended
        exact ordered
  | rest now => exact turns (rest_turned taken)
  | wake waking => exact turns (wake_turned taken)
  | finish =>
      obtain ⟨_, _, _, _, rfl⟩ := finish_cases taken
      exact ordered
  | runQueued executor draw now =>
      obtain ⟨execution, notices, database, _, ran, rfl⟩ := runQueued_cases taken
      have written := runTransactional_ordered engine.registry engine.config.retry
        execution.record draw now (keepsOrder execution.record) ordered
      rw [ran] at written
      exact written
  | acquire ticket =>
      obtain ⟨_, _, _, _, rfl⟩ := acquire_cases taken
      exact ordered
  | giveBack ticket result =>
      obtain ⟨_, _, _, rfl⟩ := return?_cases taken
      exact ordered
  | settle ticket draw now =>
      obtain ⟨_, _, _, _, ⟨_, rfl⟩ | ⟨_, _, rfl⟩ | ⟨_, _, _, answer, rfl⟩⟩ := settle_cases taken
      · exact ordered
      · exact ordered
      · exact .of_answer (ordered.settle _ _ _ _ _) answer
  | report ticket now =>
      obtain ⟨_, _, ⟨_, rfl⟩ | ⟨notice, _, _, rfl⟩⟩ := report_cases taken
      · exact ordered
      · rw [database_tell]
        exact ordered
  | stopWriter =>
      obtain rfl := Option.some.inj taken
      exact ordered

theorem Regular.ordered (regular : Regular engine) : engine.database.jobs.Ordered := by
  induction regular with
  | fresh _ ordered => exact ordered
  | moved _ _ keepsOrder taken ih => exact step_ordered keepsOrder ih taken

theorem Regular.reachable (regular : Regular engine) : Reachable engine := by
  induction regular with
  | fresh fresh _ => exact .fresh fresh
  | moved _ move _ taken ih => exact .moved ih move taken

theorem Regular.run (regular : Regular engine) {moves : List (Move Business)}
    (keepOrder : ∀ move ∈ moves, move.KeepsOrder) (ran : engine.run? moves = some after) :
    Regular after := by
  induction moves generalizing engine with
  | nil => exact Option.some.inj ran ▸ regular
  | cons move rest ih =>
      obtain ⟨middle, taken, isRest⟩ := Option.bind_eq_some_iff.mp ran
      obtain ⟨keeps, others⟩ := List.forall_mem_cons.mp keepOrder
      exact ih (regular.moved move keeps taken) others isRest

end Regular

end Engine

end DurableJobs
