import DurableJobs.Proofs.Engine.Deeds
import DurableJobs.Proofs.Engine.Tallies

/-!
A transactional execution is atomic, unless its transaction lapses.

What its program wrote is committed together with the outcome; after a failure, the failure is
settled on the database as it was before the program ran. The execution publishes what was committed
and nothing else, and not before. A transaction that lapses ends all that: what the program writes
after it stays, and of the execution nothing is told.
-/

set_option autoImplicit false

namespace DurableJobs.Engine

variable {Business : Type}

/-- What the execution with a ticket tells of what it committed: the events of these notices, the
counts of the events and the effects that were asked for. -/
structure Announced (engine after : Engine Business) (ticket : Nat) (notices : List Notice) :
    Prop where
  -- Committing publishes nothing yet, and leaves nothing for others to tell.
  silent : Published engine after []
  owed : after.owed = engine.owed
  phase : after.dispatcher.map Dispatcher.phase = engine.dispatcher.map Dispatcher.phase
  -- Nothing was told before it was committed, however the engine got there.
  unheard : ∀ start moves, Reachable start → start.run? moves = some engine →
    start.reports moves ticket = []
  -- However the engine goes on, what is told is the beginning of the notices, each told once.
  inOrder : ∀ moves final, after.run? moves = some final →
    Published after final (after.log moves) ∧ after.reports moves ticket <+: notices
  -- And nothing keeps the execution from telling them all.
  complete : ∀ now, ∃ final,
    after.run? (List.replicate notices.length (.report ticket now)) = some final ∧
    Published after final (notices.map fun notice => .told (some ticket) notice now)

section Atomicity

variable {engine after : Engine Business} {execution : Execution}

theorem Staged.untold {notices? : Option (List Notice)}
    (staged : Staged engine after execution (stageAfter notices?)) (sound : engine.Sound) :
    after.Untold execution.ticket (notices?.getD []) := by
  have later := staged.sound sound
  refine ⟨staged.nextTicket ▸ sound.issued execution staged.member, ?_⟩
  cases notices? with
  | some notices => exact .inl ⟨_, staged.reached, rfl, rfl⟩
  | none =>
      refine .inr ⟨rfl, fun other member isTicket => ?_⟩
      rw [later.eq_of_ticket member staged.reached isTicket]
      rfl

theorem Staged.complete {notices? : Option (List Notice)}
    (staged : Staged engine after execution (stageAfter notices?)) (sound : engine.Sound)
    (now : Instant) :
    ∃ final,
      after.run? (List.replicate (notices?.getD []).length (.report execution.ticket now)) =
        some final ∧
      Published after final
        ((notices?.getD []).map fun notice => .told (some execution.ticket) notice now) := by
  cases notices? with
  | some notices =>
      have reached : { execution with stage := .reporting notices } ∈ after.executions :=
        staged.reached
      obtain ⟨final, ran, log⟩ := (staged.sound sound).tell_all reached rfl now
      exact ⟨final, ran, log ▸ (run_told ran).published⟩
  | none => exact ⟨after, rfl, (Told.silent rfl rfl).published⟩

/-- An execution that is next in the queue settles and tells of it, unless it is cut off. -/
theorem Orderly.notices_eq_none_iff (orderly : Orderly engine) {record : Record}
    {program : Program Business JobError TransactionalOutcome} (leavesJobs : program.LeavesJobs)
    {draw : Nat} {now : Instant} {notices? : Option (List Notice)} {database : Database Business}
    (ran : runTransactional engine.database engine.registry engine.config.retry record program draw
      now = (notices?, database)) :
    notices? = none ↔ IsCutOff engine.database engine.registry program now := by
  obtain ⟨_, _, isRun, ends⟩ := runTransactional_settles orderly.kept.owned.consistent
    engine.registry engine.config.retry record leavesJobs draw now
  obtain ⟨rfl, rfl⟩ := Prod.mk.inj (ran.symm.trans isRun)
  rcases ends with ⟨_, _, _, _, _, ⟨_, rfl, whole⟩ | ⟨rfl, cutOff⟩⟩ | ⟨_, rfl, cutOff⟩
  · exact iff_of_false nofun whole
  · exact iff_of_true rfl cutOff
  · exact iff_of_true rfl cutOff

/-- A failure is settled on the database as it was, and this is told, if and only if the transaction
has not lapsed. -/
theorem Concluded.failed_iff {database left : Database Business} {registry : Registry}
    {policy : RetryPolicy} {record : Record}
    {program : Program Business JobError TransactionalOutcome} {draw : Nat} {now : Instant}
    {writes : List (Write Business)} {notices? : Option (List Notice)} {error : JobError}
    (consistent : database.jobs.Consistent)
    (concluded : Concluded database registry policy record program draw now writes notices? left)
    (ended : (program.run (Transaction.begin registry now database)).1.jobError? = some error) :
    (∃ settlement jobs,
        database.jobs.settleFailure record error policy draw now = (.ok settlement, jobs) ∧
        left = { database with jobs := jobs } ∧ notices? = some [.settled record settlement]) ↔
      program.lapse? (Transaction.begin registry now database) = none := by
  cases concluded with
  | done isDone => simp [isDone, Ending.jobError?] at ended
  | outcomeRefused isDone => simp [isDone, Ending.jobError?] at ended
  | commitRefused isDone => simp [isDone, Ending.jobError?] at ended
  | lapsedDone isDone => simp [isDone, Ending.jobError?] at ended
  | failed isError stays settled =>
      obtain rfl := Option.some.inj (ended.symm.trans isError)
      exact iff_of_true ⟨_, _, settled, rfl, rfl⟩ stays
  | failureRefused isError stays refused =>
      obtain rfl := Option.some.inj (ended.symm.trans isError)
      obtain ⟨settlement, settled⟩ := consistent.settle_succeeds record (.error error) policy draw now
      cases refused.symm.trans settled
  | lapsedFailed _ lapses =>
      refine iff_of_false ?_ lapses
      rintro ⟨_, _, _, _, ⟨⟩⟩

/-- The execution that is next in the queue of the writer can be run, whatever its program is, and it
tells what it committed. It is cut off only by a lapse of its transaction, or by a commit that is
refused; else its run commits all of the program, or it settles a failure on the database as it
was. -/
theorem transactional_execution_is_atomic (reachable : Reachable engine)
    (queued : engine.nextQueued? = some execution)
    (executor : Record → Program Business JobError TransactionalOutcome) (draw : Nat)
    (now : Instant) :
    ∃ after notices?, engine.step (.runQueued executor draw now) = some after ∧
      Concluded engine.database engine.registry engine.config.retry execution.record
        (executor execution.record) draw now (engine.lasting (executor execution.record) now)
        notices? after.database ∧
      Announced engine after execution.ticket (notices?.getD []) ∧
      (Orderly engine → (executor execution.record).LeavesJobs →
        (notices? = none ↔
          IsCutOff engine.database engine.registry (executor execution.record) now) ∧
        ∀ error,
          ((executor execution.record).run
            (Transaction.begin engine.registry now engine.database)).1.jobError? = some error →
          ((∃ settlement jobs,
              engine.database.jobs.settleFailure execution.record error engine.config.retry draw
                now = (.ok settlement, jobs) ∧
              after.database = { engine.database with jobs := jobs } ∧
              notices? = some [.settled execution.record settlement]) ↔
            (executor execution.record).lapse?
              (Transaction.begin engine.registry now engine.database) = none)) := by
  have sound := reachable.sound
  obtain ⟨member, isQueued⟩ := mem_of_nextQueued? queued
  obtain ⟨notices?, database, ran, concluded⟩ := runTransactional_concluded engine.database
    engine.registry engine.config.retry execution.record (executor execution.record) draw now
  have leaves : (stageAfter notices?).isQueued = false := isQueued_stageAfter _
  have staged := staged_setStage member leaves (sameWork_committed engine database engine.owed)
  have untold := staged.untold sound
  have taken : engine.step (.runQueued executor draw now) =
      some ({ engine with database := database }.setStage execution.ticket (stageAfter notices?)) := by
    simp only [step, runQueued, queued, ran]
    cases notices? <;> rfl
  refine ⟨_, notices?, taken, concluded,
    { silent := Told.published (.silent rfl rfl)
      owed := rfl
      phase := ?_
      unheard := ?_
      inOrder := ?_
      complete := staged.complete sound }, ?_⟩
  · obtain ⟨before, free, found, isLater⟩ := staged.dispatcher
    rw [isLater, found]
    rfl
  · intro start moves isStart led
    exact reports_of_owning isStart.sound led member (by rw [isQueued]; rfl)
  · intro moves final led
    obtain ⟨rest, isSplit, _⟩ := untold.run (staged.sound sound) led
    exact ⟨(run_told led).published, rest, isSplit.symm⟩
  · intro orderly leavesJobs
    exact ⟨orderly.notices_eq_none_iff leavesJobs ran,
      fun error => concluded.failed_iff orderly.kept.owned.consistent⟩

/-- An execution enqueues a job and asks for two effects after the commit. -/
theorem transactional_execution_is_atomic_sample :
    ∃ (engine : Engine Unit) (execution : Execution) (after : Engine Unit) (notices : List Notice)
      (program : Program Unit JobError TransactionalOutcome),
      sample.run? (firstMoves ++ [.decide Instant.epoch, .launch Instant.epoch]) = some engine ∧
      engine.nextQueued? = some execution ∧
      Concluded engine.database engine.registry engine.config.retry execution.record program 0
        Instant.epoch (engine.lasting program Instant.epoch) (some notices) after.database ∧
      Announced engine after execution.ticket notices ∧
      notices.flatMap Notice.begins = [.invalidated ["count"], .ran ⟨"done", false⟩] := by
  let effects : AfterCommit := (AfterCommit.none.invalidate "count").andThen ⟨"done", false⟩
  let program : Program Unit JobError TransactionalOutcome :=
    .enqueue (Job.new "reindex" [119] Uuid.zero) fun _ => .done ⟨.success, effects⟩
  let moves : List (Move Unit) := firstMoves ++ [.decide Instant.epoch, .launch Instant.epoch]
  have waits : ((sample.run? moves).bind fun engine =>
      engine.nextQueued?.map fun _ =>
        ((program.lapse? (Transaction.begin engine.registry Instant.epoch engine.database)).isNone,
          (engine.database.replay Instant.epoch (engine.lasting program Instant.epoch)).refusal? () ())) =
      some (true, none) := by decide +kernel
  obtain ⟨engine, ran, isNext⟩ := Option.bind_eq_some_iff.mp waits
  obtain ⟨execution, queued, seen⟩ := Option.map_eq_some_iff.mp isNext
  obtain ⟨stays, accepted⟩ := Prod.mk.inj seen
  have orderly : Orderly engine := (Orderly.fresh fresh_sample consistent_sample).run
    (by simp [moves, firstMoves, Move.LeavesJobs]) ran
  obtain ⟨after, notices?, _, concluded, announced, ends⟩ := transactional_execution_is_atomic
    ((Reachable.fresh fresh_sample).run ran) queued (fun _ => program) 0 Instant.epoch
  have whole : ¬ IsCutOff engine.database engine.registry program Instant.epoch := by
    rintro (lapses | ⟨_, _, refusal, rfl, refused⟩)
    · exact lapses (Option.isNone_iff_eq_none.mp stays)
    · cases accepted.symm.trans refused
  obtain ⟨notices, rfl⟩ := Option.ne_none_iff_exists'.mp
    (mt (ends orderly fun _ => trivial).1.mp whole)
  have begins : notices.flatMap Notice.begins = [.invalidated ["count"], .ran ⟨"done", false⟩] := by
    generalize after.database = left at concluded
    cases concluded with
    | done isDone =>
        obtain rfl := Ending.done.inj (isDone.symm.trans rfl)
        rfl
    | failed ended => cases ended
  exact ⟨engine, execution, after, notices, program, ran, queued, concluded, announced, begins⟩

/-- The store has used up its ids, and its refusal takes the transaction of an execution back. The
execution goes on: its second job coalesces into a pending one, and then it fails. The change stays,
and the failure is not settled. -/
theorem failed_execution_leaves_change :
    ∃ (first engine after : Engine Unit) (moves : List (Move Unit)) (execution : Execution)
      (program : Program Unit JobError TransactionalOutcome) (error : JobError),
      first.Fresh ∧ program.LeavesJobs ∧ first.run? moves = some engine ∧
      engine.nextQueued? = some execution ∧
      (program.run (Transaction.begin engine.registry Instant.epoch engine.database)).1 =
        .failed error ∧
      engine.step (.runQueued (fun _ => program) 0 Instant.epoch) = some after ∧
      after.database.jobs ≠
        (engine.database.jobs.settleFailure execution.record error engine.config.retry 0
          Instant.epoch).2 ∧
      after.database.jobs ≠ engine.database.jobs ∧
      ∃ row ∈ after.database.jobs.rows, row.id = execution.record.id ∧ row.state = .running := by
  let next (payload : List UInt8) : Job :=
    (Job.new "reindex" payload Uuid.zero).withDebounceKey "k"
  let first : Engine Unit :=
    { sample with
      database :=
        { sample.database with jobs := { sample.database.jobs with mark := 0x7ffffffffffffffe } } }
  let moves : List (Move Unit) :=
    firstMoves ++
      [.decide Instant.epoch, .launch Instant.epoch, .enqueue (next [118]) Instant.epoch]
  let program : Program Unit JobError TransactionalOutcome :=
    .enqueue (Job.new "reindex" [119] Uuid.zero) fun _ =>
      .enqueue (next [119]) fun _ => .fail (.failed "boom")
  have ran : ((first.run? moves).bind fun engine => engine.nextQueued?.bind fun execution =>
      (engine.step (.runQueued (fun _ => program) 0 Instant.epoch)).map fun after =>
        (Decidable.decide (after.database.jobs ≠
            (engine.database.jobs.settleFailure execution.record (.failed "boom")
              engine.config.retry 0 Instant.epoch).2 ∧
          after.database.jobs ≠ engine.database.jobs ∧
          ∃ row ∈ after.database.jobs.rows, row.id = execution.record.id ∧ row.state = .running))) =
      some true := by decide +kernel
  obtain ⟨engine, came, isNext⟩ := Option.bind_eq_some_iff.mp ran
  obtain ⟨execution, queued, isAfter⟩ := Option.bind_eq_some_iff.mp isNext
  obtain ⟨after, taken, seen⟩ := Option.map_eq_some_iff.mp isAfter
  exact ⟨first, engine, after, moves, execution, program, _, ⟨rfl, rfl, rfl⟩, fun _ _ => trivial, came,
    queued, rfl, taken, of_decide_eq_true seen⟩

end Atomicity

end DurableJobs.Engine
