import DurableJobs.Proofs.Engine.Custody

/-!
What a move commits.

A move commits at most one unit of work: it enqueues jobs, cancels, requeues, recovers or ticks, or it
settles an execution, whose program may have enqueued jobs first. Here is what each move commits, what
it leaves to be told of it, and what that does to the job table.
-/

set_option autoImplicit false

namespace DurableJobs

def Ending.jobResult : Ending JobError Engine.TransactionalOutcome → Except JobError Outcome
  | .done result => .ok result.outcome
  | .failed error => .error error
  | .broken breakdown => .error (.ofBreakdown breakdown)

theorem Ending.jobResult_of_jobError? {ending : Ending JobError Engine.TransactionalOutcome}
    {error : JobError} (ended : ending.jobError? = some error) : ending.jobResult = .error error := by
  cases ending with
  | done result => cases ended
  | failed cause => exact congrArg Except.error (Option.some.inj ended)
  | broken breakdown => exact congrArg Except.error (Option.some.inj ended)

def Notice.jobs : Notice → List Enqueued
  | .enqueued jobs => jobs
  | _ => []

namespace Engine

variable {Business : Type}

def enqueuing (job : Job) : Program Business EngineError Int :=
  .enqueue job fun
    | .ok id => .done id
    | .error error => .fail error

def enqueuingAll (jobs : List Job) (correlation : Uuid) : Program Business EngineError (List Int) :=
  .enqueueAll jobs correlation fun
    | .ok ids => .done ids
    | .error error => .fail error

theorem leavesJobs_enqueuing {job : Job} :
    (enqueuing job : Program Business EngineError Int).LeavesJobs := by
  intro answer
  cases answer <;> trivial

theorem leavesJobs_enqueuingAll {jobs : List Job} {correlation : Uuid} :
    (enqueuingAll jobs correlation : Program Business EngineError (List Int)).LeavesJobs := by
  intro answer
  cases answer <;> trivial

section Commits

variable (engine : Engine Business)

def committed {Value : Type} (program : Program Business EngineError Value) (now : Instant) :
    List Notice :=
  if engine.isWriterStopped then []
  else
    match program.run (Transaction.begin engine.registry now engine.database) with
    | (.done _, transaction) =>
        match transaction.commit.1 with
        | .ok () => [.enqueued transaction.enqueued]
        | .error _ => []
    | _ => []

/-- The jobs that a program has enqueued after its transaction lapsed, of which nobody is told. -/
def straying {Error Value : Type} (program : Program Business Error Value) (now : Instant) :
    List Enqueued :=
  match program.lapse? (Transaction.begin engine.registry now engine.database) with
  | none => []
  | some _ => engine.database.enqueued now (engine.lasting program now)

/-- The tick that the dispatcher makes, if it is at that point and the tick succeeds. -/
def tick? (now : Instant) : Option Tick :=
  match engine.dispatcher.map Dispatcher.phase with
  | some (.deciding lanes) =>
      if engine.isWriterStopped then none
      else
        (engine.database.jobs.tick engine.registry lanes engine.config.batchSize now).1.toOption
  | _ => none

/-- The records that a move gives up because their type has no executor. -/
def givenUp : Move Business → List Record
  | .decide now => (engine.tick? now).elim [] fun tick => tick.unknown.map Prod.fst
  | _ => []

/-- The result that a unit settles, if it settles one. -/
def settledBy (program : Program Business JobError TransactionalOutcome) (now : Instant) :
    Option (Except JobError Outcome) :=
  let transaction := Transaction.begin engine.registry now engine.database
  let left := engine.database.replay now (engine.lasting program now)
  match (program.run transaction).1, program.lapse? transaction with
  | .done result, none =>
      if (left.refusal? engine.database.business left.business).isSome then none
      else some (.ok result.outcome)
  | .done result, some _ => some (.ok result.outcome)
  | ending, none => some ending.jobResult
  | _, some _ => none

/-- The record whose execution a move settles, and the result that it settles. -/
def settlement? : Move Business → Option (Record × Except JobError Outcome)
  | .settle ticket _ _ =>
      match engine.execution? ticket with
      | some ⟨_, record, _, .returned result⟩ =>
          if engine.isWriterStopped then none else some (record, result)
      | _ => none
  | .runQueued executor _ now =>
      engine.nextQueued?.bind fun execution =>
        (engine.settledBy (executor execution.record) now).map fun result =>
          (execution.record, result)
  | _ => none

/-- The record that a move settles so that nobody is told, and what became of it. -/
def hushed : Move Business → List (Record × Settlement)
  | .runQueued executor _ now =>
      match engine.nextQueued? with
      | none => []
      | some execution =>
          let program := executor execution.record
          let transaction := Transaction.begin engine.registry now engine.database
          let left := engine.database.replay now (engine.lasting program now)
          match (program.run transaction).1, program.lapse? transaction with
          | .done result, some _ =>
              match (left.jobs.settleOutcome execution.record result.outcome now).1 with
              | .ok settlement => [(execution.record, settlement)]
              | .error _ => []
          | _, _ => []
  | _ => []

/-- The record that a call was to requeue, and what became of it. -/
def requeued : Move Business → List (Int × Store.Rescheduled)
  | .requeue id now =>
      if engine.isWriterStopped then []
      else
        match (engine.database.jobs.requeue id now).1 with
        | .ok answer => [(id, answer)]
        | .error _ => []
  | _ => []

/-- The records that a recovery was to make pending again, and what became of them. -/
def recovered : Move Business → List (Int × Store.Rescheduled)
  | .recover draw now =>
      if engine.isWriterStopped then []
      else
        match (engine.database.jobs.recover engine.config.recovery engine.config.retry draw now).1 with
        | .ok answers => answers
        | .error _ => []
  | _ => []

/-- What a move commits that is still to be told. -/
def notices : Move Business → List Notice
  | .transact program now => engine.committed program now
  | .enqueue job now => engine.committed (enqueuing job) now
  | .enqueueAll jobs correlation now => engine.committed (enqueuingAll jobs correlation) now
  | .cancel id =>
      if engine.isWriterStopped then []
      else
        match (engine.database.jobs.cancel id).1 with
        | .ok (some jobType) => [.canceled id jobType]
        | _ => []
  | .requeue id now =>
      match engine.requeued (.requeue id now) with
      | [(_, .pending _)] => [.requeued]
      | _ => []
  | .decide now =>
      (engine.tick? now).elim [] fun tick =>
        tick.unknown.map fun entry => .settled entry.1 entry.2
  | .runQueued executor draw now =>
      match engine.nextQueued? with
      | none => []
      | some execution =>
          (runTransactional engine.database engine.registry engine.config.retry execution.record
            (executor execution.record) draw now).1.getD []
  | .settle ticket draw now =>
      match engine.settlement? (.settle ticket draw now) with
      | none => []
      | some (record, result) =>
          match (engine.database.jobs.settle record result engine.config.retry draw now).1 with
          | .ok settlement => [.settled record settlement]
          | .error _ => []
  | _ => []

/-- The jobs that a move leaves enqueued so that nobody is told. -/
def strays : Move Business → List Enqueued
  | .transact program now => if engine.isWriterStopped then [] else engine.straying program now
  | .enqueue job now => if engine.isWriterStopped then [] else engine.straying (enqueuing job) now
  | .enqueueAll jobs correlation now =>
      if engine.isWriterStopped then [] else engine.straying (enqueuingAll jobs correlation) now
  | .runQueued executor _ now =>
      match engine.nextQueued? with
      | none => []
      | some execution => engine.straying (executor execution.record) now
  | _ => []

/-- The jobs that a move leaves enqueued. -/
def entered (move : Move Business) : List Enqueued :=
  (engine.notices move).flatMap Notice.jobs ++ engine.strays move

/-- The jobs that the program of a move has enqueued, whether they stay or not. -/
def handedOut : Move Business → List Enqueued
  | .transact program now => attempted program now
  | .enqueue job now => attempted (enqueuing job) now
  | .enqueueAll jobs correlation now => attempted (enqueuingAll jobs correlation) now
  | .runQueued executor _ now =>
      match engine.nextQueued? with
      | none => []
      | some execution =>
          ((executor execution.record).run
            (Transaction.begin engine.registry now engine.database)).2.enqueued
  | _ => []
where
  attempted {Value : Type} (program : Program Business EngineError Value) (now : Instant) :
      List Enqueued :=
    if engine.isWriterStopped then []
    else (program.run (Transaction.begin engine.registry now engine.database)).2.enqueued

end Commits

/-- What a move does to the job table, and what of it is to be told. -/
inductive Work (engine : Engine Business) (move : Move Business) (after : Store.Table) : Prop where
  | idle (same : after = engine.database.jobs) (notices : engine.notices move = [])
      (strays : engine.strays move = []) (settles : engine.settlement? move = none)
      (requeued : engine.requeued move = []) (recovered : engine.recovered move = [])
      (hushed : engine.hushed move = [])
  | enqueued (notices : engine.notices move = [] ∨ ∃ jobs, engine.notices move = [.enqueued jobs])
      (settles : engine.settlement? move = none) (requeued : engine.requeued move = [])
      (recovered : engine.recovered move = []) (hushed : engine.hushed move = [])
      (renewed : Store.Table.Renewed engine.database.jobs
        ((engine.entered move).map Enqueued.receipt) after)
  | canceled {id : Int} (isMove : move = .cancel id) (goesOn : engine.isWriterStopped = false)
      (same : after = (engine.database.jobs.cancel id).2)
  | requeued {id : Int} {now : Instant} (isMove : move = .requeue id now)
      (goesOn : engine.isWriterStopped = false)
      (same : after = (engine.database.jobs.requeue id now).2)
  | recovered {draw : Nat} {now : Instant} (isMove : move = .recover draw now)
      (goesOn : engine.isWriterStopped = false) (unowned : engine.owned = [])
      (same : after =
        (engine.database.jobs.recover engine.config.recovery engine.config.retry draw now).2)
  | ticked {lanes : Lanes} {now : Instant} (tick : Tick) (isMove : move = .decide now)
      (isTick : engine.tick? now = some tick)
      (answer : engine.database.jobs.tick engine.registry lanes engine.config.batchSize now =
        (.ok tick, after))
  | settled (told : List Notice) {record : Record} (result : Except JobError Outcome)
      {settlement : Settlement} {middle : Store.Table} (draw : Nat) {now : Instant}
      (notices :
        engine.notices move = told ++ [.settled record settlement] ∧ engine.hushed move = [] ∨
          engine.notices move = [] ∧ told = [] ∧ engine.hushed move = [(record, settlement)])
      (first : told = [] ∨ ∃ jobs effects, told = [.enqueued jobs, .effects effects])
      (settles : engine.settlement? move = some (record, result))
      (requeued : engine.requeued move = []) (recovered : engine.recovered move = [])
      (member : record ∈ engine.owned)
      (renewed : Store.Table.Renewed engine.database.jobs
        ((engine.entered move).map Enqueued.receipt) middle)
      (answer : middle.settle record result engine.config.retry draw now = (.ok settlement, after))

section Works

variable {engine after : Engine Business}

theorem entered_cancel (engine : Engine Business) (id : Int) :
    engine.entered (.cancel id) = [] := by
  simp only [entered, notices, strays, List.append_nil]
  split
  · rfl
  · split <;> rfl

theorem entered_requeue (engine : Engine Business) (id : Int) (now : Instant) :
    engine.entered (.requeue id now) = [] := by
  simp only [entered, notices, strays, List.append_nil]
  split <;> rfl

theorem entered_decide (engine : Engine Business) (now : Instant) :
    engine.entered (.decide now) = [] := by
  show (engine.notices (.decide now)).flatMap Notice.jobs ++ [] = []
  rw [List.append_nil, List.flatMap_eq_nil_iff]
  intro notice member
  simp only [notices] at member
  cases isTick : engine.tick? now with
  | none => simp [isTick] at member
  | some tick =>
      rw [isTick, Option.elim_some] at member
      obtain ⟨entry, _, rfl⟩ := List.mem_map.mp member
      rfl

/-- What a transaction commits that is to be told is what its caller then owes. -/
theorem committed_eq_drop {Value : Type} (engine : Engine Business)
    (program : Program Business EngineError Value) (now : Instant) :
    engine.committed program now =
      ((engine.transact program now).2.owed.drop engine.owed.length).flatten := by
  unfold committed transact
  split
  · simp
  · cases program.run (Transaction.begin engine.registry now engine.database) with
    | mk ending transaction =>
        cases ending with
        | failed error => simp
        | broken breakdown => simp
        | done value =>
            cases isCommit : transaction.commit with
            | mk answer database => cases answer <;> simp [isCommit]

theorem Kept.renewed_lasting {Error Value : Type} (kept : engine.Kept)
    {program : Program Business Error Value} (leavesJobs : program.LeavesJobs) (now : Instant) :
    Store.Table.Renewed engine.database.jobs
      ((engine.database.enqueued now (engine.lasting program now)).map Enqueued.receipt)
      (engine.database.replay now (engine.lasting program now)).jobs :=
  (leavesJobs.enqueuedAll_lasting engine.registry now engine.database).renewed kept.owned.consistent

theorem Kept.transact_work {Value : Type} {move : Move Business} (kept : engine.Kept)
    {program : Program Business EngineError Value} {now : Instant} (leavesJobs : program.LeavesJobs)
    (notices : engine.notices move = engine.committed program now)
    (strays : engine.strays move =
      if engine.isWriterStopped then [] else engine.straying program now)
    (settles : engine.settlement? move = none) (requeued : engine.requeued move = [])
    (recovered : engine.recovered move = []) (hushed : engine.hushed move = []) :
    Work engine move (engine.transact program now).2.database.jobs := by
  have renewed := kept.renewed_lasting leavesJobs now
  rw [committed_eq_drop] at notices
  have entered : engine.entered move =
      (engine.notices move).flatMap Notice.jobs ++ engine.strays move := rfl
  rcases engine.transact_cases program now with
    ⟨_, same, silent⟩ | ⟨running, ⟨_, _, stays, _, committed⟩ | ⟨lapses, _, lapsed⟩⟩
  · rw [same] at notices ⊢
    simp only [List.drop_length, List.flatten_nil] at notices
    refine .idle rfl notices ?_ settles requeued recovered hushed
    rw [strays]
    rcases silent with stopped | ⟨stays, _⟩
    · rw [if_pos stopped]
    · simp [straying, stays]
  · rw [committed] at notices ⊢
    simp only [List.drop_left, List.flatten_cons, List.flatten_nil, List.append_nil] at notices
    have none : engine.strays move = [] := by simp [strays, straying, stays]
    rw [none, notices] at entered
    refine .enqueued (.inr ⟨_, notices⟩) settles requeued recovered hushed ?_
    rw [entered]
    simpa [Notice.jobs] using renewed
  · rw [lapsed] at notices ⊢
    simp only [List.drop_length, List.flatten_nil] at notices
    obtain ⟨rest, isRest⟩ := Option.ne_none_iff_exists'.mp lapses
    have all : engine.strays move = engine.database.enqueued now (engine.lasting program now) := by
      simp [strays, straying, running, isRest]
    rw [all, notices] at entered
    refine .enqueued (.inl notices) settles requeued recovered hushed ?_
    rw [entered]
    exact renewed

theorem Work.of_database {move : Move Business} (same : after.database = engine.database)
    (notices : engine.notices move = []) (strays : engine.strays move = [])
    (settles : engine.settlement? move = none) (requeued : engine.requeued move = [])
    (recovered : engine.recovered move = []) (hushed : engine.hushed move = []) :
    Work engine move after.database.jobs :=
  .idle (congrArg Database.jobs same) notices strays settles requeued recovered hushed

theorem Kept.recover_work {draw : Nat} {now : Instant} (kept : engine.Kept)
    (taken : engine.recover draw now = some after) :
    Work engine (.recover draw now) after.database.jobs := by
  obtain ⟨dispatcher, jobs, found, recovering, _⟩ := recover_cases taken
  have unowned : engine.owned = [] := by
    rw [owned_of_dispatcher found, kept.sound.recovering dispatcher found (by rw [recovering]; rfl),
      recovering]
    rfl
  unfold recover at taken
  simp only [found, recovering] at taken
  split at taken
  · next stopped =>
      cases taken
      exact .idle rfl rfl rfl rfl rfl (by simp [recovered, stopped]) rfl
  · next goesOn =>
      refine .recovered rfl (by simpa using goesOn) unowned ?_
      obtain ⟨replies, final, answer, _⟩ := kept.owned.consistent.recover_spec engine.config.recovery
        engine.config.retry draw now
      rw [answer] at taken ⊢
      cases taken
      rfl

theorem decide_ticks {now : Instant} (taken : engine.decide now = some after) :
    ∃ dispatcher lanes, engine.dispatcher = some dispatcher ∧ dispatcher.phase = .deciding lanes ∧
      ((engine.tick? now = none ∧
          ∃ phase, (phase = .draining ∨ phase = .waiting engine.config.pollInterval) ∧
            after = engine.enterPhase dispatcher phase) ∨
        ∃ tick jobs, engine.tick? now = some tick ∧
          engine.database.jobs.tick engine.registry lanes engine.config.batchSize now =
            (.ok tick, jobs) ∧
          after =
            { engine.enterPhase dispatcher
                (.launching (tick.unknown.map fun entry => .settled entry.1 entry.2) tick.claimed
                  tick) with
              database := { engine.database with jobs := jobs } }) := by
  unfold decide at taken
  split at taken
  · next dispatcher found =>
      split at taken
      · next lanes deciding =>
          refine ⟨dispatcher, lanes, found, deciding, ?_⟩
          split at taken
          · next stopped =>
              cases taken
              exact .inl ⟨by simp [tick?, found, deciding, stopped], _, .inl rfl, rfl⟩
          · next goesOn =>
              split at taken
              · next error jobs answer =>
                  cases taken
                  refine .inl ⟨?_, _, .inr rfl, rfl⟩
                  simp [tick?, found, deciding, goesOn, answer, Except.toOption]
              · next tick jobs answer =>
                  cases taken
                  refine .inr ⟨tick, jobs, ?_, answer, rfl⟩
                  simp [tick?, found, deciding, goesOn, answer, Except.toOption]
      · cases taken
  · cases taken

theorem decide_work {now : Instant} (taken : engine.decide now = some after) :
    Work engine (.decide now) after.database.jobs := by
  obtain ⟨_, _, _, _, ⟨none, _, _, rfl⟩ | ⟨tick, _, isTick, answer, rfl⟩⟩ := decide_ticks taken
  · exact .of_database rfl (by simp [notices, none]) rfl rfl rfl rfl rfl
  · exact .ticked tick rfl isTick answer

theorem settlement?_of_returned {ticket : Nat} {execution : Execution}
    {result : Except JobError Outcome} (found : engine.execution? ticket = some execution)
    (returned : execution.stage = .returned result) (draw : Nat) (now : Instant) :
    engine.settlement? (.settle ticket draw now) =
      if engine.isWriterStopped then none else some (execution.record, result) := by
  obtain ⟨number, record, kind, stage⟩ := execution
  obtain rfl : stage = .returned result := returned
  simp [settlement?, found]

theorem Kept.settle_work {ticket draw : Nat} {now : Instant} (kept : engine.Kept)
    (taken : engine.settle ticket draw now = some after) :
    Work engine (.settle ticket draw now) after.database.jobs := by
  obtain ⟨execution, result, found, returned, ended⟩ := settle_cases taken
  have settles := settlement?_of_returned found returned draw now
  rcases ended with ⟨stopped, rfl⟩ | ⟨_, ⟨error, refused⟩, _⟩ | ⟨settlement, jobs, goesOn, answer, rfl⟩
  · rw [if_pos stopped] at settles
    exact .idle rfl (by simp [notices, settles]) rfl settles rfl rfl rfl
  · obtain ⟨settlement, settled⟩ :=
      kept.owned.consistent.settle_succeeds execution.record result engine.config.retry draw now
    cases settled.symm.trans refused
  · rw [goesOn, if_neg Bool.false_ne_true] at settles
    have told : engine.notices (.settle ticket draw now) =
        [.settled execution.record settlement] := by
      simp only [notices, settles]
      rw [answer]
    have none : engine.entered (.settle ticket draw now) = [] := by
      rw [entered, told]
      rfl
    refine .settled [] result draw (.inl ⟨told, rfl⟩) (.inl rfl) settles rfl rfl ?_ ?_ answer
    · have member := (mem_of_execution? found).1
      have owning : execution.stage.isOwning = true := by
        rw [returned]
        rfl
      exact List.mem_append_left _
        (List.mem_map.mpr ⟨_, List.mem_filter.mpr ⟨member, owning⟩, rfl⟩)
    · rw [none]
      exact .nil _

theorem settledBy_of_done {program : Program Business JobError TransactionalOutcome} {now : Instant}
    {result : TransactionalOutcome}
    (ended : (program.run (Transaction.begin engine.registry now engine.database)).1 = .done result)
    (stays : program.lapse? (Transaction.begin engine.registry now engine.database) = none) :
    engine.settledBy program now =
      if ((engine.database.replay now (engine.lasting program now)).refusal?
          engine.database.business
          (engine.database.replay now (engine.lasting program now)).business).isSome then none
      else some (.ok result.outcome) := by
  simp only [settledBy, ended, stays]

theorem settledBy_of_accepted {program : Program Business JobError TransactionalOutcome}
    {now : Instant} {result : TransactionalOutcome}
    (ended : (program.run (Transaction.begin engine.registry now engine.database)).1 = .done result)
    (stays : program.lapse? (Transaction.begin engine.registry now engine.database) = none)
    (accepted : (engine.database.replay now (engine.lasting program now)).refusal?
      engine.database.business
      (engine.database.replay now (engine.lasting program now)).business = none) :
    engine.settledBy program now = some (.ok result.outcome) := by
  rw [settledBy_of_done ended stays, accepted]
  rfl

theorem settledBy_of_refused {program : Program Business JobError TransactionalOutcome}
    {now : Instant} {result : TransactionalOutcome} {refusal : StoreError}
    (ended : (program.run (Transaction.begin engine.registry now engine.database)).1 = .done result)
    (stays : program.lapse? (Transaction.begin engine.registry now engine.database) = none)
    (refused : (engine.database.replay now (engine.lasting program now)).refusal?
      engine.database.business
      (engine.database.replay now (engine.lasting program now)).business = some refusal) :
    engine.settledBy program now = none := by
  rw [settledBy_of_done ended stays, refused]
  rfl

theorem settledBy_of_jobError {program : Program Business JobError TransactionalOutcome}
    {now : Instant} {error : JobError}
    (ended : (program.run (Transaction.begin engine.registry now engine.database)).1.jobError? =
      some error) :
    engine.settledBy program now =
      if program.lapse? (Transaction.begin engine.registry now engine.database) = none then
        some (.error error)
      else none := by
  have result := Ending.jobResult_of_jobError? ended
  dsimp only [settledBy]
  cases ending : (program.run (Transaction.begin engine.registry now engine.database)).1 with
  | done result => simp [ending, Ending.jobError?] at ended
  | failed cause =>
      rw [ending] at result
      cases program.lapse? (Transaction.begin engine.registry now engine.database) with
      | none => simp [result]
      | some rest => simp
  | broken breakdown =>
      rw [ending] at result
      cases program.lapse? (Transaction.begin engine.registry now engine.database) with
      | none => simp [result]
      | some rest => simp

theorem Kept.runQueued_work
    {executor : Record → Program Business JobError TransactionalOutcome} {draw : Nat}
    {now : Instant} (kept : engine.Kept) (leavesJobs : ∀ record, (executor record).LeavesJobs)
    (taken : engine.runQueued executor draw now = some after) :
    Work engine (.runQueued executor draw now) after.database.jobs := by
  obtain ⟨execution, notices?, database, next, ran, rfl⟩ := runQueued_cases taken
  have consistent := kept.owned.consistent
  have renewed := kept.renewed_lasting (leavesJobs execution.record) now
  have later := renewed.reaches.consistent consistent
  obtain ⟨isExecution, queued⟩ := mem_of_nextQueued? next
  have member : execution.record ∈ engine.owned :=
    List.mem_append_left _
      (List.mem_map_of_mem (List.mem_filter.mpr ⟨isExecution, by rw [queued]; rfl⟩))
  have told : engine.notices (.runQueued executor draw now) = notices?.getD [] := by
    simp [notices, next, ran]
  have strays : engine.strays (.runQueued executor draw now) =
      engine.straying (executor execution.record) now := by
    simp [Engine.strays, next]
  have settles : engine.settlement? (.runQueued executor draw now) =
      (engine.settledBy (executor execution.record) now).map fun result =>
        (execution.record, result) := by
    simp [settlement?, next]
  have entered : engine.entered (.runQueued executor draw now) =
      (notices?.getD []).flatMap Notice.jobs ++ engine.straying (executor execution.record) now := by
    rw [Engine.entered, told, strays]
  obtain ⟨_, _, isRun, concluded⟩ := runTransactional_concluded engine.database engine.registry
    engine.config.retry execution.record (executor execution.record) draw now
  obtain ⟨rfl, rfl⟩ := Prod.mk.inj (ran.symm.trans isRun)
  -- While the transaction stays open nothing strays, and no settlement is hushed up.
  have unlapsed : (executor execution.record).lapse?
      (Transaction.begin engine.registry now engine.database) = none →
      engine.straying (executor execution.record) now = [] ∧
        engine.hushed (.runQueued executor draw now) = [] := by
    intro stays
    refine ⟨by simp [straying, stays], ?_⟩
    simp only [hushed, next, stays]
    split <;> simp_all
  have lapsed : (executor execution.record).lapse?
      (Transaction.begin engine.registry now engine.database) ≠ none →
      engine.straying (executor execution.record) now =
        engine.database.enqueued now (engine.lasting (executor execution.record) now) := by
    intro lapses
    obtain ⟨rest, isRest⟩ := Option.ne_none_iff_exists'.mp lapses
    simp [straying, isRest]
  cases concluded with
  | @done result settlement jobs ended stays settled accepted =>
      obtain ⟨none, quiet⟩ := unlapsed stays
      rw [none] at entered
      rw [settledBy_of_accepted ended stays accepted] at settles
      refine .settled [.enqueued _, .effects result.effects] (.ok result.outcome) draw
        (.inl ⟨told, quiet⟩) (.inr ⟨_, _, rfl⟩) settles rfl rfl member ?_ settled
      rw [entered]
      simpa only [Option.getD_some, List.flatMap_cons, List.flatMap_nil, Notice.jobs,
        List.append_nil, lasting] using renewed
  | @failed error settlement jobs ended stays settled =>
      obtain ⟨none, quiet⟩ := unlapsed stays
      rw [none] at entered
      rw [settledBy_of_jobError ended, if_pos stays] at settles
      refine .settled [] (.error error) draw (.inl ⟨told, quiet⟩) (.inl rfl) settles rfl rfl member ?_
        settled
      rw [entered]
      exact .nil _
  | @outcomeRefused result refusal ended stays refused =>
      obtain ⟨settlement, settled⟩ := later.settle_succeeds execution.record (.ok result.outcome)
        engine.config.retry draw now
      cases refused.symm.trans settled
  | @commitRefused result settlement refusal ended stays settled refused =>
      obtain ⟨none, quiet⟩ := unlapsed stays
      rw [settledBy_of_refused ended stays refused] at settles
      exact .idle rfl told (strays.trans none) settles rfl rfl quiet
  | @failureRefused error refusal ended stays refused =>
      obtain ⟨settlement, settled⟩ := consistent.settle_succeeds execution.record (.error error)
        engine.config.retry draw now
      cases refused.symm.trans settled
  | @lapsedDone result answer jobs ended lapses settled =>
      obtain ⟨settlement, succeeds⟩ := later.settle_succeeds execution.record (.ok result.outcome)
        engine.config.retry draw now
      obtain rfl : .ok settlement = answer := succeeds.symm.trans (congrArg Prod.fst settled)
      obtain ⟨rest, isRest⟩ := Option.ne_none_iff_exists'.mp lapses
      have isSettled : engine.settledBy (executor execution.record) now = some (.ok result.outcome) := by
        simp only [settledBy, ended, isRest]
      have hushed : engine.hushed (.runQueued executor draw now) =
          [(execution.record, settlement)] := by
        simp only [Engine.hushed, next, ended, isRest]
        rw [lasting, settled]
      rw [isSettled] at settles
      refine .settled [] (.ok result.outcome) draw (.inr ⟨told, rfl, hushed⟩) (.inl rfl) settles rfl
        rfl member ?_ settled
      rw [entered, lapsed lapses]
      exact renewed
  | @lapsedFailed error ended lapses =>
      rw [settledBy_of_jobError ended, if_neg lapses] at settles
      refine .enqueued (.inl told) settles rfl rfl ?_ ?_
      · simp only [hushed, next]
        split
        · next isDone _ =>
            rw [isDone] at ended
            cases ended
        · rfl
      · rw [entered, lapsed lapses]
        exact renewed

theorem cancel_work (engine : Engine Business) (id : Int) :
    Work engine (.cancel id) (engine.cancel id).2.database.jobs := by
  simp only [cancel, execute]
  split
  · next stopped => exact .idle rfl (by simp [notices, stopped]) rfl rfl rfl rfl rfl
  · next goesOn =>
      refine .canceled rfl (by simpa using goesOn) ?_
      cases engine.database.jobs.cancel id with
      | mk answer jobs => cases answer <;> rfl

theorem Kept.requeue_work (kept : engine.Kept) (id : Int) (now : Instant) :
    Work engine (.requeue id now) (engine.requeue id now).2.database.jobs := by
  unfold requeue
  split
  · next stopped =>
      have none : engine.requeued (.requeue id now) = [] := by simp [requeued, stopped]
      exact .idle rfl (by simp [notices, none]) rfl rfl none rfl rfl
  · next goesOn =>
      refine .requeued rfl (by simpa using goesOn) ?_
      rcases kept.owned.consistent.requeue_cases id now with
        ⟨_, answer⟩ | ⟨_, _, _, _, _, answer⟩ | ⟨_, _, _, _, answer⟩
      · rw [answer]
      · rw [answer]
      · rw [answer]

theorem Kept.work {move : Move Business} (kept : engine.Kept) (leavesJobs : move.LeavesJobs)
    (taken : engine.step move = some after) : Work engine move after.database.jobs := by
  cases move with
  | transact program now =>
      exact Option.some.inj taken ▸ kept.transact_work leavesJobs rfl rfl rfl rfl rfl rfl
  | enqueue job now =>
      exact Option.some.inj taken ▸ kept.transact_work leavesJobs_enqueuing rfl rfl rfl rfl rfl rfl
  | enqueueAll jobs correlation now =>
      exact Option.some.inj taken ▸ kept.transact_work leavesJobs_enqueuingAll rfl rfl rfl rfl rfl rfl
  | cancel id => exact Option.some.inj taken ▸ cancel_work engine id
  | requeue id now => exact Option.some.inj taken ▸ kept.requeue_work id now
  | announce place now => exact .of_database (announce_sameWork taken).2 rfl rfl rfl rfl rfl rfl
  | start =>
      obtain rfl := Option.some.inj taken
      refine .of_database ?_ rfl rfl rfl rfl rfl rfl
      rcases engine.start_cases with same | ⟨_, marked | ⟨free, started⟩⟩
      · rw [same]
      · rw [marked]
      · rw [started]
  | requestStop =>
      obtain ⟨_, _, turned⟩ := requestStop_turned taken
      exact .of_database turned.database rfl rfl rfl rfl rfl rfl
  | recover draw now => exact kept.recover_work taken
  | count =>
      obtain ⟨_, _, turned⟩ := count_turned taken
      exact .of_database turned.database rfl rfl rfl rfl rfl rfl
  | scan now later =>
      obtain ⟨_, _, turned⟩ := scan_turned taken
      exact .of_database turned.database rfl rfl rfl rfl rfl rfl
  | decide now => exact decide_work taken
  | launch now =>
      refine .of_database ?_ rfl rfl rfl rfl rfl rfl
      obtain ⟨_, _, told | dropped | launched | ended⟩ := launch_cases taken
      · obtain ⟨notice, _, _, _, _, rfl⟩ := told
        exact database_tell _ notice now
      · obtain ⟨_, _, _, _, _, rfl⟩ := dropped
        rfl
      · obtain ⟨_, _, _, _, _, _, _, _, _, _, rfl⟩ := launched
        rfl
      · obtain ⟨_, _, rfl⟩ := ended
        rfl
  | rest now =>
      obtain ⟨_, _, turned⟩ := rest_turned taken
      exact .of_database turned.database rfl rfl rfl rfl rfl rfl
  | wake waking =>
      obtain ⟨_, _, turned⟩ := wake_turned taken
      exact .of_database turned.database rfl rfl rfl rfl rfl rfl
  | finish =>
      obtain ⟨_, _, _, _, rfl⟩ := finish_cases taken
      exact .of_database rfl rfl rfl rfl rfl rfl rfl
  | runQueued executor draw now => exact kept.runQueued_work leavesJobs taken
  | acquire ticket =>
      obtain ⟨_, _, _, _, rfl⟩ := acquire_cases taken
      exact .of_database rfl rfl rfl rfl rfl rfl rfl
  | giveBack ticket result =>
      obtain ⟨_, _, _, rfl⟩ := return?_cases taken
      exact .of_database rfl rfl rfl rfl rfl rfl rfl
  | settle ticket draw now => exact kept.settle_work taken
  | report ticket now =>
      refine .of_database ?_ rfl rfl rfl rfl rfl rfl
      obtain ⟨_, _, ⟨_, rfl⟩ | ⟨notice, _, _, rfl⟩⟩ := report_cases taken
      · rfl
      · exact database_tell _ notice now
  | stopWriter =>
      obtain rfl := Option.some.inj taken
      exact .of_database rfl rfl rfl rfl rfl rfl rfl

theorem Work.reaches {move : Move Business} {jobs : Store.Table} (work : Work engine move jobs)
    (consistent : engine.database.jobs.Consistent) :
    Store.Table.Reaches engine.database.jobs jobs := by
  cases work with
  | idle same => exact same ▸ .refl
  | enqueued _ _ _ _ _ renewed => exact renewed.reaches
  | @canceled id _ _ same => exact same ▸ consistent.perform_reaches (.cancel id)
  | @requeued id now _ _ same => exact same ▸ consistent.perform_reaches (.requeue id now)
  | @recovered draw now _ _ _ same =>
      exact same ▸ consistent.perform_reaches
        (.recover engine.config.recovery engine.config.retry draw now)
  | ticked tick _ _ answer => exact (consistent.tick_spec answer).reaches
  | @settled told record result settlement middle draw now _ _ _ _ _ _ renewed answer =>
      have later := renewed.reaches.consistent consistent
      have settled := later.settle_reaches record result engine.config.retry draw now
      rw [answer] at settled
      exact renewed.reaches.trans settled

theorem Work.entered_renewed {move : Move Business} {jobs : Store.Table}
    (work : Work engine move jobs) (consistent : engine.database.jobs.Consistent) :
    ∃ left, Store.Table.Renewed engine.database.jobs
      ((engine.entered move).map Enqueued.receipt) left ∧ Store.Table.Reaches left jobs := by
  have reaches := work.reaches consistent
  cases work with
  | idle _ notices strays =>
      exact ⟨_, by simpa [entered, notices, strays] using .nil _, reaches⟩
  | enqueued _ _ _ _ _ renewed => exact ⟨_, renewed, .refl⟩
  | canceled isMove =>
      rw [isMove, entered_cancel]
      exact ⟨_, .nil _, reaches⟩
  | requeued isMove =>
      rw [isMove, entered_requeue]
      exact ⟨_, .nil _, reaches⟩
  | recovered isMove =>
      rw [isMove]
      exact ⟨_, .nil _, reaches⟩
  | ticked _ isMove =>
      rw [isMove, entered_decide]
      exact ⟨_, .nil _, reaches⟩
  | @settled told record result settlement middle draw now _ _ _ _ _ _ renewed answer =>
      have settled := (renewed.reaches.consistent consistent).settle_reaches record result
        engine.config.retry draw now
      rw [answer] at settled
      exact ⟨_, renewed, settled⟩

/-- What a program is given ids for stays or is taken back as a whole, except for what comes after a
lapse; whether it stays or not, an id is past all that there were. -/
theorem Kept.handedOut_renewed {move : Move Business} (kept : engine.Kept)
    (leavesJobs : move.LeavesJobs) :
    ∃ undone rest, engine.handedOut move = undone ++ rest ∧
      (undone = [] ∨ rest = engine.strays move) ∧
      (∃ left, Store.Table.Renewed engine.database.jobs (undone.map Enqueued.receipt) left) ∧
      ∃ left, Store.Table.Renewed engine.database.jobs (rest.map Enqueued.receipt) left := by
  have ofRun : ∀ {Error Value : Type} (program : Program Business Error Value) (now : Instant),
      program.LeavesJobs → ∃ undone rest,
        (program.run (Transaction.begin engine.registry now engine.database)).2.enqueued =
          undone ++ rest ∧
        (undone = [] ∨ rest = engine.straying program now) ∧
        (∃ left, Store.Table.Renewed engine.database.jobs (undone.map Enqueued.receipt) left) ∧
        ∃ left, Store.Table.Renewed engine.database.jobs (rest.map Enqueued.receipt) left := by
    intro Error Value program now leaves
    obtain ⟨undone, areAll, onlyLapsed, left, areUndone⟩ :=
      leaves.enqueued_run engine.registry now engine.database
    refine ⟨undone, _, areAll, onlyLapsed.imp_right fun lapses => ?_,
      ⟨left, areUndone.renewed kept.owned.consistent⟩, _, kept.renewed_lasting leaves now⟩
    obtain ⟨_, isRest⟩ := Option.ne_none_iff_exists'.mp lapses
    simp [straying, isRest, lasting]
  have attempted : ∀ {Value : Type} (program : Program Business EngineError Value) (now : Instant),
      program.LeavesJobs → ∃ undone rest,
        handedOut.attempted engine program now = undone ++ rest ∧
        (undone = [] ∨
          rest = if engine.isWriterStopped then [] else engine.straying program now) ∧
        (∃ left, Store.Table.Renewed engine.database.jobs (undone.map Enqueued.receipt) left) ∧
        ∃ left, Store.Table.Renewed engine.database.jobs (rest.map Enqueued.receipt) left := by
    intro Value program now leaves
    unfold handedOut.attempted
    split
    · exact ⟨[], [], rfl, .inl rfl, ⟨_, .nil _⟩, _, .nil _⟩
    · exact ofRun program now leaves
  cases move with
  | transact program now => exact attempted program now leavesJobs
  | enqueue job now => exact attempted _ now leavesJobs_enqueuing
  | enqueueAll jobs correlation now => exact attempted _ now leavesJobs_enqueuingAll
  | runQueued executor draw now =>
      simp only [handedOut, strays]
      cases engine.nextQueued? with
      | none => exact ⟨[], [], rfl, .inl rfl, ⟨_, .nil _⟩, _, .nil _⟩
      | some execution => exact ofRun _ now (leavesJobs execution.record)
  | _ => exact ⟨[], [], rfl, .inl rfl, ⟨_, .nil _⟩, _, .nil _⟩

end Works

end Engine

end DurableJobs
