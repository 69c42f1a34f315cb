import DurableJobs.Proofs.Engine.Executions
import DurableJobs.Proofs.Engine.Ownership
import DurableJobs.Proofs.Engine.Transactional
import DurableJobs.Proofs.Transaction.Calls

/-!
Who holds which claimed record, and what a move does to it.

Every move, seen from the job table, is one of the deals that can happen to owned records. It takes a
record from its owner in two ways only: the owner settles it, or the writer is stopped. Programs
inside of transactions are taken to touch the job table by enqueuing only.
-/

set_option autoImplicit false

namespace DurableJobs.Engine

variable {Business : Type}

/-- The programs that the move runs touch the job table by enqueuing only. -/
def Move.LeavesJobs : Move Business → Prop
  | .transact program _ => program.LeavesJobs
  | .runQueued executor _ _ => ∀ record, (executor record).LeavesJobs
  | _ => True

/-- The engines that moves lead to whose programs touch the job table by enqueuing only, on any job
table that keeps the rules. -/
inductive Orderly : Engine Business → Prop where
  | fresh {engine : Engine Business} (fresh : engine.Fresh)
      (consistent : engine.database.jobs.Consistent) : Orderly engine
  | moved {engine after : Engine Business} (orderly : Orderly engine) (move : Move Business)
      (leavesJobs : move.LeavesJobs) (taken : engine.step move = some after) : Orderly after

theorem Orderly.run {engine after : Engine Business} (orderly : Orderly engine)
    {moves : List (Move Business)} (leaveJobs : ∀ move ∈ moves, move.LeavesJobs)
    (ran : engine.run? moves = some after) : Orderly after := by
  induction moves generalizing engine with
  | nil => exact Option.some.inj ran ▸ orderly
  | cons move rest ih =>
      obtain ⟨middle, taken, isRest⟩ := Option.bind_eq_some_iff.mp ran
      exact ih (orderly.moved move (leaveJobs move List.mem_cons_self) taken)
        (fun other member => leaveJobs other (List.mem_cons_of_mem _ member)) isRest

def owned (engine : Engine Business) : List Record :=
  (engine.executions.filter fun execution => execution.stage.isOwning).map Execution.record ++
    engine.launching

def Settles (engine : Engine Business) (record : Record) : Move Business → Prop
  | .settle ticket _ _ =>
      engine.isWriterStopped = false ∧
        ∃ execution, engine.execution? ticket = some execution ∧ execution.record = record
  | .runQueued _ _ _ =>
      ∃ execution, engine.nextQueued? = some execution ∧ execution.record = record
  | _ => False

/-! ### Who owns what after a step -/

section Owned

variable {engine after : Engine Business}

theorem SameWork.owned (same : SameWork engine after) : after.owned = engine.owned := by
  rw [Engine.owned, Engine.owned, same.executions, same.launching]

theorem owned_of_dispatcher {dispatcher : Dispatcher}
    (found : engine.dispatcher = some dispatcher) :
    engine.owned =
      (dispatcher.executions.filter fun execution => execution.stage.isOwning).map
          Execution.record ++
        dispatcher.phase.claimed := by
  rw [owned, executions_of_dispatcher found, launching_of_dispatcher found]

theorem owning_reap (dispatcher : Dispatcher) :
    ((Dispatcher.reap dispatcher).executions.filter fun execution => execution.stage.isOwning) =
      dispatcher.executions.filter fun execution => execution.stage.isOwning :=
  filter_reap dispatcher fun execution ended => by rw [ended]; rfl

theorem Turned.owned {before later : Dispatcher} (turned : Turned engine after before later) :
    after.owned = engine.owned := by
  rw [owned_of_dispatcher turned.found, owned_of_dispatcher turned.dispatcher, turned.claimed]
  rcases turned.executions with same | reaped
  · rw [same]
  · rw [reaped, owning_reap]

theorem Staged.split {execution : Execution} {stage : ExecutionStage}
    (staged : Staged engine after execution stage) (sound : engine.Sound) :
    ∃ left right, engine.executions = left ++ execution :: right ∧
      after.executions = left ++ { execution with stage := stage } :: right := by
  obtain ⟨left, right, isSplit⟩ := List.append_of_mem staged.member
  refine ⟨left, right, isSplit, ?_⟩
  have distinct := sound.distinct
  rw [isSplit, List.map_append, List.map_cons, List.nodup_middle, List.nodup_cons,
    ← List.map_append] at distinct
  have others : ∀ list : List Execution, (∀ other ∈ list, other ∈ left ++ right) →
      list.map (fun other =>
        if other.ticket = execution.ticket then { other with stage := stage } else other) = list := by
    intro list listed
    have different : ∀ other ∈ list, other.ticket ≠ execution.ticket := fun other member same =>
      distinct.1 (List.mem_map.mpr ⟨other, listed other member, same⟩)
    rw [List.map_congr_left fun other member => if_neg (different other member), List.map_id']
  rw [staged.executions, isSplit, List.map_append, List.map_cons, if_pos rfl,
    others left fun _ member => List.mem_append_left _ member,
    others right fun _ member => List.mem_append_right _ member]

theorem Staged.owned_eq {execution : Execution} {stage : ExecutionStage}
    (staged : Staged engine after execution stage) (sound : engine.Sound)
    (same : stage.isOwning = execution.stage.isOwning) : after.owned = engine.owned := by
  obtain ⟨left, right, before, later⟩ := staged.split sound
  rw [owned, owned, staged.launching, before, later]
  simp only [List.filter_append, List.filter_cons, same]
  split <;> simp

theorem Staged.owned_of_settled {execution : Execution} {stage : ExecutionStage}
    (staged : Staged engine after execution stage) (sound : engine.Sound)
    (owning : execution.stage.isOwning = true) (done : stage.isOwning = false) :
    ∃ left right, engine.owned = left ++ execution.record :: right ∧
      after.owned = left ++ right := by
  obtain ⟨left, right, before, later⟩ := staged.split sound
  refine ⟨(left.filter fun other => other.stage.isOwning).map Execution.record,
    (right.filter fun other => other.stage.isOwning).map Execution.record ++ engine.launching,
    ?_, ?_⟩
  · simp [owned, before, owning]
  · simp [owned, staged.launching, later, done]

end Owned

/-! ### What a step does to claimed records -/

/-- Every claimed record is running as it was claimed, and those to be launched have an executor. -/
structure Kept (engine : Engine Business) : Prop where
  sound : engine.Sound
  owned : engine.database.jobs.Owned engine.owned
  registered : ∀ record ∈ engine.launching, engine.registry.isRegistered record.jobType = true

/-- A step is a deal, and takes a record from its owner only to settle it or because the writer is
stopped. -/
structure Dealt (engine after : Engine Business) (move : Move Business) : Prop where
  deal : Store.Table.Deal engine.database.jobs engine.owned after.database.jobs after.owned
  registered : ∀ record ∈ after.launching, after.registry.isRegistered record.jobType = true
  keeps : ∀ record ∈ engine.owned, record ∈ after.owned ∨
    (after.isWriterStopped = true ∧ after.database.jobs = engine.database.jobs) ∨
    engine.Settles record move

section Steps

variable {engine after : Engine Business} {move : Move Business}

theorem Dealt.of_same (kept : engine.Kept)
    (deal : Store.Table.Deal engine.database.jobs engine.owned after.database.jobs engine.owned)
    (owned : after.owned = engine.owned) (launching : after.launching = engine.launching)
    (registry : after.registry = engine.registry) : Dealt engine after move where
  deal := by
    rw [owned]
    exact deal
  registered := by
    rw [launching, registry]
    exact kept.registered
  keeps := by
    rw [owned]
    exact fun record member => .inl member

theorem deal_refl (engine : Engine Business) :
    Store.Table.Deal engine.database.jobs engine.owned engine.database.jobs engine.owned :=
  .enqueued .refl

theorem Dealt.of_sameWork (kept : engine.Kept) (same : SameWork engine after)
    (deal : Store.Table.Deal engine.database.jobs engine.owned after.database.jobs engine.owned) :
    Dealt engine after move :=
  .of_same kept deal same.owned same.launching same.registry

theorem Dealt.of_turned {before later : Dispatcher} (kept : engine.Kept)
    (turned : Turned engine after before later) : Dealt engine after move := by
  refine .of_same kept ?_ turned.owned ?_ turned.registry
  · rw [turned.database]
    exact deal_refl engine
  · rw [launching_of_dispatcher turned.found, launching_of_dispatcher turned.dispatcher,
      turned.claimed]

theorem Dealt.of_staged {execution : Execution} {stage : ExecutionStage} (kept : engine.Kept)
    (staged : Staged engine after execution stage)
    (same : stage.isOwning = execution.stage.isOwning)
    (database : after.database = engine.database) : Dealt engine after move := by
  refine .of_same kept ?_ (staged.owned_eq kept.sound same) staged.launching staged.registry
  rw [database]
  exact deal_refl engine

theorem Dealt.tell (dealt : Dealt engine after move) (notice : Notice) (now : Instant) :
    Dealt engine (after.tell notice now) move := by
  have same := sameWork_tell after notice now
  refine ⟨?_, ?_, ?_⟩
  · rw [same.owned, database_tell]
    exact dealt.deal
  · rw [same.launching, same.registry]
    exact dealt.registered
  · rw [same.owned, same.isWriterStopped, database_tell]
    exact dealt.keeps

/-- An execution gives its record up: the writer is stopped, or it has settled it. -/
theorem Dealt.of_settled {execution : Execution} {stage : ExecutionStage} (kept : engine.Kept)
    (staged : Staged engine after execution stage) (owning : execution.stage.isOwning = true)
    (done : stage.isOwning = false)
    (deal : ∀ left right : List Record, Store.Table.Deal engine.database.jobs
      (left ++ execution.record :: right) after.database.jobs (left ++ right))
    (settles : (after.isWriterStopped = true ∧ after.database.jobs = engine.database.jobs) ∨
      engine.Settles execution.record move) :
    Dealt engine after move := by
  obtain ⟨left, right, before, later⟩ := staged.owned_of_settled kept.sound owning done
  refine ⟨?_, ?_, ?_⟩
  · rw [before, later]
    exact deal left right
  · rw [staged.launching, staged.registry]
    exact kept.registered
  · intro record member
    rw [before] at member
    rw [later]
    rcases List.mem_append.mp member with isLeft | rest
    · exact .inl (List.mem_append_left _ isLeft)
    · rcases List.mem_cons.mp rest with rfl | isRight
      · exact .inr settles
      · exact .inl (List.mem_append_right _ isRight)

theorem Kept.transact_dealt {Value : Type} (kept : engine.Kept)
    (program : Program Business EngineError Value) (now : Instant)
    (leavesJobs : program.LeavesJobs) : Dealt engine (engine.transact program now).2 move := by
  have enqueues : Store.Table.Enqueues engine.database.jobs
      (engine.database.replay now (engine.lasting program now)).jobs :=
    (leavesJobs.enqueuedAll_lasting engine.registry now engine.database).enqueues
  rcases engine.transact_cases program now with
    ⟨_, same, _⟩ | ⟨_, ⟨_, _, _, _, committed⟩ | ⟨_, _, lapsed⟩⟩
  · rw [same]
    exact .of_sameWork kept (.refl engine) (deal_refl engine)
  · rw [committed]
    exact .of_sameWork kept (sameWork_committed engine _ _) (.enqueued enqueues)
  · rw [lapsed]
    exact .of_sameWork kept (sameWork_committed engine _ engine.owed) (.enqueued enqueues)

theorem Kept.launch_dealt {now : Instant} (kept : engine.Kept)
    (taken : engine.launch now = some after) : Dealt engine after move := by
  obtain ⟨dispatcher, found, told | dropped | launched | ended⟩ := launch_cases taken
  · obtain ⟨notice, notices, claimed, tick, isLaunching, rfl⟩ := told
    have launching := launching_of_dispatcher found
    have owned := owned_of_dispatcher found
    rw [isLaunching] at launching owned
    have dealt : Dealt engine
        (engine.enterPhase dispatcher (.launching notices claimed tick)) move :=
      .of_same kept (deal_refl engine) owned.symm launching.symm rfl
    exact dealt.tell notice now
  · obtain ⟨record, claimed, tick, isLaunching, unknown, rfl⟩ := dropped
    have listed : record ∈ engine.launching := by
      rw [launching_of_dispatcher found, isLaunching]
      exact List.mem_cons_self
    rw [kept.registered record listed] at unknown
    cases unknown
  · obtain ⟨record, claimed, tick, kind, stage, free, isLaunching, _, _, owning, rfl⟩ := launched
    have before := owned_of_dispatcher found
    rw [isLaunching] at before
    have registered : ∀ other ∈ claimed, engine.registry.isRegistered other.jobType = true := by
      intro other member
      refine kept.registered other ?_
      rw [launching_of_dispatcher found, isLaunching]
      exact List.mem_cons_of_mem _ member
    by_cases owns : stage.isOwning = true
    · have same : ({ engine with
          dispatcher := some
            { dispatcher with
              phase := .launching [] claimed tick
              free := free
              executions := dispatcher.executions ++ [⟨engine.nextTicket, record, kind, stage⟩] }
          telemetry := engine.telemetry.started record now
          nextTicket := engine.nextTicket + 1 } : Engine Business).owned = engine.owned := by
        rw [before, Engine.owned]
        simp [executions, launching, DispatcherPhase.claimed, owns]
      refine ⟨?_, registered, ?_⟩
      · rw [same]
        exact deal_refl engine
      · rw [same]
        exact fun other member => .inl member
    · obtain ⟨_, stopped⟩ := owning.resolve_left owns
      refine ⟨.lost .refl ?_, registered, fun _ _ => .inr (.inl ⟨stopped, rfl⟩)⟩
      rw [before, Engine.owned]
      simp [executions, launching, DispatcherPhase.claimed, owns]
  · obtain ⟨tick, isLaunching, rfl⟩ := ended
    have same : dispatcher.phase.notices = [] ∧ dispatcher.phase.claimed = [] := by
      rw [isLaunching]
      exact ⟨rfl, rfl⟩
    have turns : ∃ before later,
        Turned engine (engine.enterPhase dispatcher (.resting tick)) before later :=
      turned_of_enterPhase found same rfl
    obtain ⟨before, later, turned⟩ := turns
    exact .of_turned kept turned

theorem Kept.decide_dealt {now : Instant} (kept : engine.Kept)
    (taken : engine.decide now = some after) : Dealt engine after move := by
  obtain ⟨dispatcher, lanes, found, deciding,
    ⟨_, _, turned⟩ | ⟨tick, jobs, notices, _, answer, rfl⟩⟩ := decide_cases taken
  · exact .of_turned kept turned
  · have ticked := kept.owned.consistent.tick_spec answer
    have before := owned_of_dispatcher found
    have idle : (DispatcherPhase.deciding lanes).claimed = [] := rfl
    rw [deciding, idle, List.append_nil] at before
    have later : ({ engine.enterPhase dispatcher (.launching notices tick.claimed tick) with
        database := { engine.database with jobs := jobs } } : Engine Business).owned =
        engine.owned ++ tick.claimed := by
      rw [before]
      rfl
    refine ⟨?_, ticked.registered, ?_⟩
    · rw [later]
      exact .ticked answer
    · rw [later]
      exact fun record member => .inl (List.mem_append_left _ member)

theorem Kept.recover_dealt {draw : Nat} {now : Instant} (kept : engine.Kept)
    (taken : engine.recover draw now = some after) : Dealt engine after move := by
  obtain ⟨dispatcher, jobs, found, recovering, recovered, rfl⟩ := recover_cases taken
  have idle : engine.owned = [] := by
    rw [owned_of_dispatcher found, kept.sound.recovering dispatcher found (by rw [recovering]; rfl),
      recovering]
    rfl
  have later : ({ engine.enterPhase dispatcher .counting with
      database := { engine.database with jobs := jobs } } : Engine Business).owned = [] := by
    rw [← idle, owned_of_dispatcher found, recovering]
    rfl
  refine ⟨?_, by simp [launching, enterPhase, DispatcherPhase.claimed], ?_⟩
  · rw [later, idle]
    rcases recovered with same | ⟨_, same⟩
    · rw [same]
      exact .enqueued .refl
    · rw [same]
      exact .recovered _ _ draw now
  · simp [idle]

theorem Kept.settle_dealt {ticket draw : Nat} {now : Instant} (kept : engine.Kept)
    (taken : engine.settle ticket draw now = some after) :
    Dealt engine after (.settle ticket draw now) := by
  obtain ⟨execution, result, found, returned, ended⟩ := settle_cases taken
  obtain ⟨member, rfl⟩ := mem_of_execution? found
  have owning : execution.stage.isOwning = true := by rw [returned]; rfl
  rcases ended with
    ⟨stopped, rfl⟩ | ⟨_, ⟨error, refused⟩, rfl⟩ | ⟨settlement, jobs, running, answer, rfl⟩
  · refine .of_settled kept (staged_setStage member rfl (.refl engine)) owning rfl ?_
      (.inl ⟨stopped, rfl⟩)
    exact fun left right =>
      .lost .refl ((List.append_sublist_append_left left).mpr (List.sublist_cons_self _ _))
  · obtain ⟨settlement, settled⟩ := kept.owned.consistent.settle_succeeds execution.record result
      engine.config.retry draw now
    rw [settled] at refused
    cases refused
  · refine .of_settled kept
      (staged_setStage member rfl (sameWork_committed engine _ engine.owed)) owning rfl ?_
      (.inr ⟨running, execution, found, rfl⟩)
    exact fun left right => .settled .refl answer

/-- The move runs a unit that cannot be committed as a whole. -/
def CutsOff (engine : Engine Business) (record : Record) : Move Business → Prop
  | .runQueued executor _ now =>
      IsCutOff engine.database engine.registry (executor record) now
  | _ => False

/-- A unit settles its record after it has enqueued jobs, and tells of it at the end; unless it is cut
off, where it may settle the record silently or leave it as it is. -/
theorem runTransactional_settles {database : Database Business}
    (consistent : database.jobs.Consistent) (registry : Registry) (policy : RetryPolicy)
    (record : Record) {program : Program Business JobError TransactionalOutcome}
    (leavesJobs : program.LeavesJobs) (draw : Nat) (now : Instant) :
    ∃ notices? after,
      runTransactional database registry policy record program draw now = (notices?, after) ∧
      ((∃ settlement middle result, Store.Table.Enqueues database.jobs middle ∧
          middle.settle record result policy draw now = (.ok settlement, after.jobs) ∧
          ((∃ told, notices? = some (told ++ [.settled record settlement]) ∧
              ¬ IsCutOff database registry program now) ∨
            notices? = none ∧ IsCutOff database registry program now)) ∨
        Store.Table.Enqueues database.jobs after.jobs ∧ notices? = none ∧
          IsCutOff database registry program now) := by
  have enqueues := (leavesJobs.enqueuedAll_lasting registry now database).enqueues
  have later := (consistent.enqueues_spares enqueues).1
  obtain ⟨notices?, after, ran, concluded⟩ :=
    runTransactional_concluded database registry policy record program draw now
  refine ⟨notices?, after, ran, ?_⟩
  cases concluded with
  | @done result settlement jobs ended stays settled accepted =>
      refine .inl ⟨settlement, _, .ok result.outcome, enqueues, settled,
        .inl ⟨[.enqueued _, .effects result.effects], rfl, ?_⟩⟩
      rintro (lapses | ⟨_, _, refusal, rfl, refused⟩)
      · exact lapses stays
      · cases accepted.symm.trans refused
  | @failed error settlement jobs ended stays settled =>
      refine .inl ⟨settlement, _, .error error, .refl, settled, .inl ⟨[], rfl, ?_⟩⟩
      rintro (lapses | ⟨⟨result, isDone⟩, _⟩)
      · exact lapses stays
      · simp [isDone, Ending.jobError?] at ended
  | @outcomeRefused result refusal ended stays refused =>
      obtain ⟨settlement, settled⟩ := later.settle_succeeds record (.ok result.outcome) policy draw now
      cases refused.symm.trans settled
  | @commitRefused result settlement refusal ended stays settled refused =>
      exact .inr ⟨.refl, rfl, .inr ⟨⟨result, ended⟩, _, refusal, rfl, refused⟩⟩
  | @failureRefused error refusal ended stays refused =>
      obtain ⟨settlement, settled⟩ := consistent.settle_succeeds record (.error error) policy draw now
      cases refused.symm.trans settled
  | @lapsedDone result answer jobs ended lapses settled =>
      obtain ⟨settlement, succeeds⟩ := later.settle_succeeds record (.ok result.outcome) policy draw now
      obtain rfl : .ok settlement = answer := succeeds.symm.trans (congrArg Prod.fst settled)
      exact .inl ⟨settlement, _, .ok result.outcome, enqueues, settled, .inr ⟨rfl, .inl lapses⟩⟩
  | lapsedFailed ended lapses => exact .inr ⟨enqueues, rfl, .inl lapses⟩

theorem Kept.runQueued_dealt
    {executor : Record → Program Business JobError TransactionalOutcome} {draw : Nat}
    {now : Instant} (kept : engine.Kept) (leavesJobs : ∀ record, (executor record).LeavesJobs)
    (taken : engine.runQueued executor draw now = some after) :
    Dealt engine after (.runQueued executor draw now) := by
  obtain ⟨execution, notices, database, next, ran, rfl⟩ := runQueued_cases taken
  obtain ⟨member, queued⟩ := mem_of_nextQueued? next
  have owning : execution.stage.isOwning = true := by rw [queued]; rfl
  have unqueued : (stageAfter notices).isQueued = false := isQueued_stageAfter _
  have idle : (stageAfter notices).isOwning = false := isOwning_stageAfter _
  obtain ⟨_, _, isRun, ends⟩ := runTransactional_settles kept.owned.consistent engine.registry
    engine.config.retry execution.record (leavesJobs execution.record) draw now
  obtain ⟨rfl, rfl⟩ := Prod.mk.inj (ran.symm.trans isRun)
  refine .of_settled kept
    (staged_setStage member unqueued (sameWork_committed engine database engine.owed)) owning idle ?_
    (.inr ⟨execution, next, rfl⟩)
  intro left right
  rcases ends with ⟨_, _, _, enqueues, answer, _⟩ | ⟨enqueues, _⟩
  · exact .settled enqueues answer
  · exact .lost enqueues
      ((List.append_sublist_append_left left).mpr (List.sublist_cons_self _ _))

theorem owned_stopWriter_sublist (engine : Engine Business) :
    engine.stopWriter.owned.Sublist engine.owned := by
  cases found : engine.dispatcher with
  | none => simp [Engine.owned, executions, launching, stopWriter, found]
  | some dispatcher =>
      have later : engine.stopWriter.dispatcher = _ := congrArg (Option.map _) found
      rw [owned_of_dispatcher found, owned_of_dispatcher later]
      refine List.Sublist.append ?_ (.refl _)
      dsimp only
      induction dispatcher.executions with
      | nil => exact .slnil
      | cons execution rest ih =>
          rw [List.map_cons, List.filter_cons, List.filter_cons]
          cases stage : execution.stage with
          | queued => exact ih.cons _
          | reporting notices => simpa [stage, ExecutionStage.isOwning] using ih
          | ended => simpa [stage, ExecutionStage.isOwning] using ih
          | _ => simpa [stage, ExecutionStage.isOwning] using ih

theorem launching_stopWriter (engine : Engine Business) :
    engine.stopWriter.launching = engine.launching := by
  cases found : engine.dispatcher <;> simp [launching, stopWriter, found]

theorem Kept.stopWriter_dealt (kept : engine.Kept) : Dealt engine engine.stopWriter move := by
  refine ⟨.lost .refl (owned_stopWriter_sublist engine), ?_, fun _ _ => .inr (.inl ⟨rfl, rfl⟩)⟩
  rw [launching_stopWriter]
  exact kept.registered

theorem Kept.start_dealt (kept : engine.Kept) : Dealt engine engine.start.2 move := by
  rcases engine.start_cases with same | ⟨idle, marked | ⟨free, started⟩⟩
  · rw [same]
    exact .of_sameWork kept (.refl engine) (deal_refl engine)
  · rw [marked]
    exact .of_same kept (deal_refl engine) rfl rfl rfl
  · have unstarted := kept.sound.dispatcher_eq_none idle
    rw [started]
    refine .of_same kept (deal_refl engine) ?_ ?_ rfl
    · simp [Engine.owned, executions, launching, unstarted, DispatcherPhase.claimed]
    · simp [launching, unstarted, DispatcherPhase.claimed]

theorem Kept.finish_dealt (kept : engine.Kept) (taken : engine.finish = some after) :
    Dealt engine after move := by
  obtain ⟨dispatcher, found, draining, ended, rfl⟩ := finish_cases taken
  have idle : engine.owned = [] := by
    rw [owned_of_dispatcher found, ← owning_reap, ended, draining]
    rfl
  refine .of_same kept (deal_refl engine) (by rw [idle]; rfl) ?_ rfl
  rw [launching_of_dispatcher found, draining]
  rfl

theorem Kept.dealt (kept : engine.Kept) (leavesJobs : move.LeavesJobs)
    (taken : engine.step move = some after) : Dealt engine after move := by
  cases move with
  | transact program now => exact Option.some.inj taken ▸ kept.transact_dealt program now leavesJobs
  | enqueue job now =>
      refine Option.some.inj taken ▸ kept.transact_dealt _ now ?_
      intro answer
      cases answer <;> trivial
  | enqueueAll jobs correlation now =>
      refine Option.some.inj taken ▸ kept.transact_dealt _ now ?_
      intro answer
      cases answer <;> trivial
  | cancel id =>
      obtain rfl := Option.some.inj taken
      rcases engine.cancel_cases id with same | ⟨_, _, canceled⟩
      · rw [same]
        exact .of_sameWork kept (.refl engine) (deal_refl engine)
      · rw [canceled]
        exact .of_sameWork kept (sameWork_committed engine _ _) (.canceled id)
  | requeue id now =>
      obtain rfl := Option.some.inj taken
      rcases engine.requeue_cases id now with same | ⟨_, _, requeued⟩
      · rw [same]
        exact .of_sameWork kept (.refl engine) (deal_refl engine)
      · rw [requeued]
        exact .of_sameWork kept (sameWork_committed engine _ _) (.requeued id now)
  | announce place now =>
      obtain ⟨same, database⟩ := announce_sameWork taken
      refine .of_sameWork kept same ?_
      rw [database]
      exact deal_refl engine
  | start => exact Option.some.inj taken ▸ kept.start_dealt
  | requestStop =>
      obtain ⟨_, _, turned⟩ := requestStop_turned taken
      exact .of_turned kept turned
  | recover draw now => exact kept.recover_dealt taken
  | count =>
      obtain ⟨_, _, turned⟩ := count_turned taken
      exact .of_turned kept turned
  | scan now later =>
      obtain ⟨_, _, turned⟩ := scan_turned taken
      exact .of_turned kept turned
  | decide now => exact kept.decide_dealt taken
  | launch now => exact kept.launch_dealt taken
  | rest now =>
      obtain ⟨_, _, turned⟩ := rest_turned taken
      exact .of_turned kept turned
  | wake waking =>
      obtain ⟨_, _, turned⟩ := wake_turned taken
      exact .of_turned kept turned
  | finish => exact kept.finish_dealt taken
  | runQueued executor draw now => exact kept.runQueued_dealt leavesJobs taken
  | acquire ticket =>
      obtain ⟨execution, left, found, waiting, rfl⟩ := acquire_cases taken
      obtain ⟨member, rfl⟩ := mem_of_execution? found
      exact .of_staged kept (staged_setFree member rfl _) (by rw [waiting]; rfl) rfl
  | giveBack ticket result =>
      obtain ⟨execution, found, running, rfl⟩ := return?_cases taken
      obtain ⟨member, rfl⟩ := mem_of_execution? found
      exact .of_staged kept (staged_setFree member rfl _) (by rw [running]; rfl) rfl
  | settle ticket draw now => exact kept.settle_dealt taken
  | report ticket now =>
      obtain ⟨execution, found, told⟩ := report_cases taken
      obtain ⟨member, rfl⟩ := mem_of_execution? found
      rcases told with ⟨silent, rfl⟩ | ⟨notice, rest, speaking, rfl⟩
      · exact .of_staged kept (staged_setStage member rfl (.refl engine)) (by rw [silent]; rfl) rfl
      · have staged := staged_setStage member
          (rfl : (ExecutionStage.reporting rest).isQueued = false) (.refl engine)
        exact (Dealt.of_staged kept staged (by rw [speaking]; rfl) rfl).tell notice now
  | stopWriter => exact Option.some.inj taken ▸ kept.stopWriter_dealt

theorem Kept.step (kept : engine.Kept) (leavesJobs : move.LeavesJobs)
    (taken : engine.step move = some after) : after.Kept := by
  have dealt := kept.dealt leavesJobs taken
  exact ⟨(step_shift taken).sound kept.sound, dealt.deal.owned kept.owned, dealt.registered⟩

theorem Orderly.kept (orderly : Orderly engine) : engine.Kept := by
  induction orderly with
  | @fresh engine fresh consistent =>
      have idle : engine.owned = [] := by
        simp [Engine.owned, executions, launching, fresh.dispatcher]
      refine ⟨fresh.sound, ?_, by simp [launching, fresh.dispatcher]⟩
      rw [idle]
      exact ⟨consistent, .nil, by simp⟩
  | moved _ _ leavesJobs taken ih => exact ih.step leavesJobs taken

end Steps

end DurableJobs.Engine
