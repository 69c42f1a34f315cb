import DurableJobs.Proofs.Engine.Moves

/-!
Executions and their tickets.

Every execution has a ticket of its own, so a step of an execution changes no other one. A dispatcher
that recovers has no executions yet, and one ends only after all of its own; once the writer is
stopped, none waits for it.
-/

set_option autoImplicit false

namespace DurableJobs.Engine

variable {Business : Type}

def executions (engine : Engine Business) : List Execution :=
  match engine.dispatcher with
  | none => []
  | some dispatcher => dispatcher.executions

/-- The records that were claimed and are still to be launched. -/
def launching (engine : Engine Business) : List Record :=
  match engine.dispatcher with
  | none => []
  | some dispatcher => dispatcher.phase.claimed

structure Sound (engine : Engine Business) : Prop where
  dispatching : engine.dispatcher.isSome = true → engine.isDispatching = true
  distinct : (engine.executions.map Execution.ticket).Nodup
  issued : ∀ execution ∈ engine.executions, execution.ticket < engine.nextTicket
  recovering : ∀ dispatcher, engine.dispatcher = some dispatcher →
    dispatcher.phase.isRecovering = true → dispatcher.executions = []
  unqueued : engine.isWriterStopped = true →
    ∀ execution ∈ engine.executions, execution.stage.isQueued = false

theorem executions_of_dispatcher {engine : Engine Business} {dispatcher : Dispatcher}
    (found : engine.dispatcher = some dispatcher) : engine.executions = dispatcher.executions := by
  simp [executions, found]

theorem launching_of_dispatcher {engine : Engine Business} {dispatcher : Dispatcher}
    (found : engine.dispatcher = some dispatcher) :
    engine.launching = dispatcher.phase.claimed := by
  simp [launching, found]

/-- Reaping drops no execution but those that have ended. -/
theorem filter_reap {holds : Execution → Bool} (dispatcher : Dispatcher)
    (ended : ∀ execution : Execution, execution.stage = .ended → holds execution = false) :
    (Dispatcher.reap dispatcher).executions.filter holds = dispatcher.executions.filter holds := by
  rw [Dispatcher.reap, List.filter_filter]
  refine List.filter_congr fun execution _ => ?_
  cases stage : execution.stage with
  | ended => simp [ended execution stage]
  | _ => simp

theorem SameWork.executions {engine after : Engine Business} (same : SameWork engine after) :
    after.executions = engine.executions := by
  simp [Engine.executions, same.dispatcher]

theorem SameWork.launching {engine after : Engine Business} (same : SameWork engine after) :
    after.launching = engine.launching := by
  simp [Engine.launching, same.dispatcher]

theorem SameWork.sound {engine after : Engine Business} (same : SameWork engine after)
    (sound : engine.Sound) : after.Sound where
  dispatching := by
    rw [same.dispatcher, same.isDispatching]
    exact sound.dispatching
  distinct := same.executions ▸ sound.distinct
  issued := by
    rw [same.executions, same.nextTicket]
    exact sound.issued
  recovering := by
    rw [same.dispatcher]
    exact sound.recovering
  unqueued := by
    rw [same.isWriterStopped, same.executions]
    exact sound.unqueued

/-! ### Steps of executions -/

theorem mem_of_execution? {engine : Engine Business} {ticket : Nat} {execution : Execution}
    (found : engine.execution? ticket = some execution) :
    execution ∈ engine.executions ∧ execution.ticket = ticket := by
  cases isDispatcher : engine.dispatcher with
  | none => simp [execution?, isDispatcher] at found
  | some dispatcher =>
      rw [execution?, isDispatcher, Option.bind_some] at found
      rw [executions_of_dispatcher isDispatcher]
      exact ⟨List.mem_of_find?_eq_some found, by simpa using List.find?_some found⟩

theorem mem_of_nextQueued? {engine : Engine Business} {execution : Execution}
    (found : engine.nextQueued? = some execution) :
    execution ∈ engine.executions ∧ execution.stage = .queued := by
  cases isDispatcher : engine.dispatcher with
  | none => simp [nextQueued?, isDispatcher] at found
  | some dispatcher =>
      rw [nextQueued?, isDispatcher, Option.bind_some] at found
      rw [executions_of_dispatcher isDispatcher]
      refine ⟨List.mem_of_find?_eq_some found, ?_⟩
      have queued := List.find?_some found
      split at queued
      · assumption
      · cases queued

/-- A step of an execution: it reaches another stage, in which it does not wait for the writer. -/
structure Staged (engine after : Engine Business) (execution : Execution)
    (stage : ExecutionStage) : Prop where
  member : execution ∈ engine.executions
  dispatcher : ∃ before free, engine.dispatcher = some before ∧
    after.dispatcher = some
      { before with
        free := free
        executions := before.executions.map fun other =>
          if other.ticket = execution.ticket then { other with stage := stage } else other }
  leaves : stage.isQueued = false
  isDispatching : after.isDispatching = engine.isDispatching
  nextTicket : after.nextTicket = engine.nextTicket
  isWriterStopped : after.isWriterStopped = engine.isWriterStopped
  registry : after.registry = engine.registry
  config : after.config = engine.config

theorem staged_setStage {engine changed : Engine Business} {execution : Execution}
    {stage : ExecutionStage} (member : execution ∈ engine.executions)
    (leaves : stage.isQueued = false) (same : SameWork engine changed) :
    Staged engine (changed.setStage execution.ticket stage) execution stage := by
  cases found : engine.dispatcher with
  | none => simp [executions, found] at member
  | some dispatcher =>
      refine ⟨member, ⟨dispatcher, dispatcher.free, found, ?_⟩, leaves, same.isDispatching,
        same.nextTicket, same.isWriterStopped, same.registry, same.config⟩
      simp [setStage, same.dispatcher, found]

theorem staged_setFree {engine : Engine Business} {execution : Execution}
    {stage : ExecutionStage} (member : execution ∈ engine.executions)
    (leaves : stage.isQueued = false) (change : Lanes → Lanes) :
    Staged engine ((engine.setFree change).setStage execution.ticket stage) execution stage := by
  cases found : engine.dispatcher with
  | none => simp [executions, found] at member
  | some dispatcher =>
      refine ⟨member, ⟨dispatcher, change dispatcher.free, found, ?_⟩, leaves, rfl, rfl, rfl, rfl,
        rfl⟩
      simp [setStage, setFree, found]

theorem Staged.sameWork {engine middle after : Engine Business} {execution : Execution}
    {stage : ExecutionStage} (staged : Staged engine middle execution stage)
    (same : SameWork middle after) : Staged engine after execution stage where
  member := staged.member
  dispatcher := same.dispatcher ▸ staged.dispatcher
  leaves := staged.leaves
  isDispatching := same.isDispatching.trans staged.isDispatching
  nextTicket := same.nextTicket.trans staged.nextTicket
  isWriterStopped := same.isWriterStopped.trans staged.isWriterStopped
  registry := same.registry.trans staged.registry
  config := same.config.trans staged.config

def stageAfter : Option (List Notice) → ExecutionStage
  | none => .ended
  | some notices => .reporting notices

theorem isQueued_stageAfter (notices? : Option (List Notice)) :
    (stageAfter notices?).isQueued = false := by
  cases notices? <;> rfl

theorem isOwning_stageAfter (notices? : Option (List Notice)) :
    (stageAfter notices?).isOwning = false := by
  cases notices? <;> rfl

theorem runQueued_cases {engine after : Engine Business}
    {executor : Record → Program Business JobError TransactionalOutcome} {draw : Nat}
    {now : Instant} (taken : engine.runQueued executor draw now = some after) :
    ∃ execution notices database, engine.nextQueued? = some execution ∧
      runTransactional engine.database engine.registry engine.config.retry execution.record
        (executor execution.record) draw now = (notices, database) ∧
      after =
        { engine with database := database }.setStage execution.ticket (stageAfter notices) := by
  unfold runQueued at taken
  cases found : engine.nextQueued? with
  | none => simp [found] at taken
  | some execution =>
      cases ran : runTransactional engine.database engine.registry engine.config.retry
          execution.record (executor execution.record) draw now with
      | mk notices database =>
          simp only [found, ran, Option.some.injEq] at taken
          subst taken
          refine ⟨execution, notices, database, rfl, ran, ?_⟩
          cases notices <;> rfl

theorem acquire_cases {engine after : Engine Business} {ticket : Nat}
    (taken : engine.acquire ticket = some after) :
    ∃ execution left, engine.execution? ticket = some execution ∧ execution.stage = .waiting ∧
      after = (engine.setFree fun _ => left).setStage ticket .running := by
  unfold acquire at taken
  split at taken
  · next dispatcher execution _ found =>
      split at taken
      · next left waiting free =>
          cases taken
          exact ⟨execution, left, found, waiting, rfl⟩
      · cases taken
  · cases taken

theorem return?_cases {engine after : Engine Business} {ticket : Nat}
    {result : Except JobError Outcome} (taken : engine.return? ticket result = some after) :
    ∃ execution, engine.execution? ticket = some execution ∧ execution.stage = .running ∧
      after = (engine.setFree fun free => free.release execution.kind).setStage ticket
        (.returned result) := by
  unfold return? at taken
  split at taken
  · next execution found =>
      split at taken
      · next running =>
          cases taken
          exact ⟨execution, found, running, rfl⟩
      · cases taken
  · cases taken

theorem settle_cases {engine after : Engine Business} {ticket draw : Nat} {now : Instant}
    (taken : engine.settle ticket draw now = some after) :
    ∃ execution result, engine.execution? ticket = some execution ∧
      execution.stage = .returned result ∧
      ((engine.isWriterStopped = true ∧ after = engine.setStage ticket .ended) ∨
        (engine.isWriterStopped = false ∧
          (∃ error, (engine.database.jobs.settle execution.record result engine.config.retry draw
            now).1 = .error error) ∧ after = engine.setStage ticket .ended) ∨
        ∃ settlement jobs, engine.isWriterStopped = false ∧
          engine.database.jobs.settle execution.record result engine.config.retry draw now =
            (.ok settlement, jobs) ∧
          after =
            { engine with database := { engine.database with jobs := jobs } }.setStage ticket
              (.reporting [.settled execution.record settlement])) := by
  unfold settle at taken
  split at taken
  · next execution found =>
      split at taken
      · next result returned =>
          refine ⟨execution, result, found, returned, ?_⟩
          dsimp only at taken
          split at taken
          · next stopped =>
              cases taken
              exact .inl ⟨stopped, rfl⟩
          · next running =>
              have goesOn : engine.isWriterStopped = false := by simpa using running
              split at taken
              · next error jobs answer =>
                  cases taken
                  exact .inr (.inl ⟨goesOn, ⟨error, by rw [answer]⟩, rfl⟩)
              · next settlement jobs answer =>
                  cases taken
                  exact .inr (.inr ⟨settlement, jobs, goesOn, answer, rfl⟩)
      · cases taken
  · cases taken

theorem report_cases {engine after : Engine Business} {ticket : Nat} {now : Instant}
    (taken : engine.report ticket now = some after) :
    ∃ execution, engine.execution? ticket = some execution ∧
      ((execution.stage = .reporting [] ∧ after = engine.setStage ticket .ended) ∨
        ∃ notice rest, execution.stage = .reporting (notice :: rest) ∧
          after = (engine.setStage ticket (.reporting rest)).tell notice now) := by
  unfold report at taken
  split at taken
  · next execution found =>
      refine ⟨execution, found, ?_⟩
      split at taken
      · next silent =>
          cases taken
          exact .inl ⟨silent, rfl⟩
      · next notice rest speaking =>
          cases taken
          exact .inr ⟨notice, rest, speaking, rfl⟩
      · cases taken
  · cases taken

/-! ### What a move does to the executions -/

def Move.reporter? : Move Business → Option Nat
  | .report ticket _ => some ticket
  | _ => none

/-- Whether the move runs an execution that is queued. -/
def Move.isRun : Move Business → Bool
  | .runQueued _ _ _ => true
  | _ => false

def Move.isLaunch : Move Business → Bool
  | .launch _ => true
  | _ => false

def Move.isStop : Move Business → Bool
  | .stopWriter => true
  | _ => false

/-- How an execution that the move is about goes on: it tells the next notice, or it goes on with
its record. -/
def GoesOn (move : Move Business) (execution : Execution) (stage : ExecutionStage) : Prop :=
  (execution.stage.isOwning = true ∧ move.reporter? = none ∧
      move.isRun = execution.stage.isQueued) ∨
    (move.reporter? = some execution.ticket ∧
      ((execution.stage = .reporting [] ∧ stage = .ended) ∨
        ∃ notice rest, execution.stage = .reporting (notice :: rest) ∧ stage = .reporting rest))

/-- What a move does to the dispatcher and its executions. -/
inductive Shift (engine : Engine Business) (move : Move Business) (after : Engine Business) :
    Prop where
  | same (same : SameWork engine after)
  | begun (idle : engine.isDispatching = false) (isDispatching : after.isDispatching = true)
      (dispatcher : after.dispatcher = engine.dispatcher ∨
        ∃ free, after.dispatcher = some ⟨.recovering, false, free, []⟩)
      (nextTicket : after.nextTicket = engine.nextTicket)
      (isWriterStopped : after.isWriterStopped = engine.isWriterStopped)
  | redirected {before later : Dispatcher} (redirected : Redirected engine after before later)
  | launched {before later : Dispatcher} {execution : Execution}
      (found : engine.dispatcher = some before) (dispatcher : after.dispatcher = some later)
      (executions : later.executions = before.executions ++ [execution])
      (ticket : execution.ticket = engine.nextTicket)
      (nextTicket : after.nextTicket = engine.nextTicket + 1)
      (goesOn : execution.stage.isQueued = true → engine.isWriterStopped = false)
      (resting : later.phase.isRecovering = false)
      (isDispatching : after.isDispatching = engine.isDispatching)
      (isWriterStopped : after.isWriterStopped = engine.isWriterStopped)
      (isLaunch : move.isLaunch = true)
  | staged {execution : Execution} {stage : ExecutionStage}
      (staged : Staged engine after execution stage) (goesOn : GoesOn move execution stage)
  | finished {before : Dispatcher} (found : engine.dispatcher = some before)
      (ended : (Dispatcher.reap before).executions = []) (dispatcher : after.dispatcher = none)
      (nextTicket : after.nextTicket = engine.nextTicket)
  | stopped (isStopped : after = engine.stopWriter) (isStop : move.isStop = true)

section Shift

variable {engine after : Engine Business}

theorem Shift.of_turned {move : Move Business}
    (turns : ∃ before later, Turned engine after before later) : Shift engine move after := by
  obtain ⟨before, later, turned⟩ := turns
  exact .redirected turned.toRedirected

theorem launch_shift {now : Instant} (taken : engine.launch now = some after) :
    Shift engine (.launch now) after := by
  obtain ⟨dispatcher, found, told | dropped | launched | ended⟩ := launch_cases taken
  · obtain ⟨notice, notices, claimed, tick, _, rfl⟩ := told
    have told := sameWork_tell
      (engine.enterPhase dispatcher (.launching notices claimed tick)) notice now
    exact .redirected (.of_phase found told.dispatcher rfl told.isDispatching told.nextTicket
      told.isWriterStopped)
  · obtain ⟨record, claimed, tick, _, _, rfl⟩ := dropped
    exact .redirected (.of_phase found rfl rfl rfl rfl rfl)
  · obtain ⟨record, claimed, tick, kind, stage, free, _, _, goesOn, _, rfl⟩ := launched
    exact .launched found rfl rfl rfl rfl goesOn rfl rfl rfl rfl
  · obtain ⟨tick, _, rfl⟩ := ended
    exact .redirected (.of_phase found rfl rfl rfl rfl rfl)

theorem step_shift {move : Move Business} (taken : engine.step move = some after) :
    Shift engine move after := by
  cases move with
  | transact program now => exact .same (called_of_step rfl taken).toSameWork
  | enqueue job now => exact .same (called_of_step rfl taken).toSameWork
  | enqueueAll jobs correlation now => exact .same (called_of_step rfl taken).toSameWork
  | cancel id => exact .same (called_of_step rfl taken).toSameWork
  | requeue id now => exact .same (called_of_step rfl taken).toSameWork
  | announce place now => exact .same (announce_sameWork taken).1
  | start =>
      obtain rfl := Option.some.inj taken
      rcases engine.start_cases with same | ⟨idle, marked | ⟨free, started⟩⟩
      · exact .same (by rw [same]; exact .refl engine)
      · rw [marked]
        exact .begun idle rfl (.inl rfl) rfl rfl
      · rw [started]
        exact .begun idle rfl (.inr ⟨free, rfl⟩) rfl rfl
  | requestStop => exact .of_turned (requestStop_turned taken)
  | recover draw now =>
      obtain ⟨dispatcher, jobs, found, _, _, rfl⟩ := recover_cases taken
      exact .redirected (.of_phase found rfl rfl rfl rfl rfl)
  | count => exact .of_turned (count_turned taken)
  | scan now later => exact .of_turned (scan_turned taken)
  | decide now =>
      obtain ⟨dispatcher, _, found, _, turned | ⟨_, _, _, _, _, rfl⟩⟩ := decide_cases taken
      · exact .of_turned turned
      · exact .redirected (.of_phase found rfl rfl rfl rfl rfl)
  | launch now => exact launch_shift taken
  | rest now => exact .of_turned (rest_turned taken)
  | wake waking => exact .of_turned (wake_turned taken)
  | finish =>
      obtain ⟨dispatcher, found, _, ended, rfl⟩ := finish_cases taken
      exact .finished found ended rfl rfl
  | runQueued executor draw now =>
      obtain ⟨execution, notices, database, next, _, rfl⟩ := runQueued_cases taken
      obtain ⟨member, queued⟩ := mem_of_nextQueued? next
      have leaves : (stageAfter notices).isQueued = false := isQueued_stageAfter _
      exact .staged (staged_setStage member leaves (sameWork_committed engine database engine.owed))
        (.inl ⟨by rw [queued]; rfl, rfl, by rw [queued]; rfl⟩)
  | acquire ticket =>
      obtain ⟨execution, left, found, waiting, rfl⟩ := acquire_cases taken
      obtain ⟨member, rfl⟩ := mem_of_execution? found
      exact .staged (staged_setFree member rfl _) (.inl ⟨by rw [waiting]; rfl, rfl, by rw [waiting]; rfl⟩)
  | giveBack ticket result =>
      obtain ⟨execution, found, running, rfl⟩ := return?_cases taken
      obtain ⟨member, rfl⟩ := mem_of_execution? found
      exact .staged (staged_setFree member rfl _) (.inl ⟨by rw [running]; rfl, rfl, by rw [running]; rfl⟩)
  | settle ticket draw now =>
      obtain ⟨execution, result, found, returned, ended⟩ := settle_cases taken
      obtain ⟨member, rfl⟩ := mem_of_execution? found
      have owning : execution.stage.isOwning = true := by rw [returned]; rfl
      have unqueued : execution.stage.isQueued = false := by rw [returned]; rfl
      rcases ended with ⟨_, rfl⟩ | ⟨_, _, rfl⟩ | ⟨settlement, jobs, _, _, rfl⟩
      · exact .staged (staged_setStage member rfl (.refl engine)) (.inl ⟨owning, rfl, unqueued.symm⟩)
      · exact .staged (staged_setStage member rfl (.refl engine)) (.inl ⟨owning, rfl, unqueued.symm⟩)
      · exact .staged (staged_setStage member rfl (sameWork_committed engine _ engine.owed))
          (.inl ⟨owning, rfl, unqueued.symm⟩)
  | report ticket now =>
      obtain ⟨execution, found, told⟩ := report_cases taken
      obtain ⟨member, rfl⟩ := mem_of_execution? found
      rcases told with ⟨silent, rfl⟩ | ⟨notice, rest, speaking, rfl⟩
      · exact .staged (staged_setStage member rfl (.refl engine))
          (.inr ⟨rfl, .inl ⟨silent, rfl⟩⟩)
      · exact .staged
          ((staged_setStage member rfl (.refl engine)).sameWork (sameWork_tell _ notice now))
          (.inr ⟨rfl, .inr ⟨notice, rest, speaking, rfl⟩⟩)
  | stopWriter => exact .stopped (Option.some.inj taken).symm rfl

end Shift

/-! ### Every move keeps the tickets apart -/

theorem Fresh.sound {engine : Engine Business} (fresh : engine.Fresh) : engine.Sound where
  dispatching := by simp [fresh.dispatcher]
  distinct := by simp [executions, fresh.dispatcher]
  issued := by simp [executions, fresh.dispatcher]
  recovering := by simp [fresh.dispatcher]
  unqueued := by simp [executions, fresh.dispatcher]

section Sound

variable {engine after : Engine Business}

theorem Redirected.sublist {before later : Dispatcher}
    (redirected : Redirected engine after before later) :
    after.executions.Sublist engine.executions := by
  rw [executions_of_dispatcher redirected.found, executions_of_dispatcher redirected.dispatcher]
  rcases redirected.executions with same | reaped
  · rw [same]
  · rw [reaped]
    exact List.filter_sublist

theorem Redirected.sound {before later : Dispatcher}
    (redirected : Redirected engine after before later) (sound : engine.Sound) : after.Sound := by
  have sublist := redirected.sublist
  refine ⟨?_, sound.distinct.sublist (sublist.map _), ?_, ?_, ?_⟩
  · rw [redirected.isDispatching]
    exact fun _ => sound.dispatching (by simp [redirected.found])
  · intro execution member
    rw [redirected.nextTicket]
    exact sound.issued execution (sublist.mem member)
  · intro dispatcher isDispatcher recovering
    obtain rfl := Option.some.inj (redirected.dispatcher.symm.trans isDispatcher)
    have none := sound.recovering before redirected.found (redirected.resting recovering)
    rw [executions_of_dispatcher redirected.found, executions_of_dispatcher redirected.dispatcher,
      none, List.sublist_nil] at sublist
    exact sublist
  · intro stopped execution member
    exact sound.unqueued (redirected.isWriterStopped ▸ stopped) execution (sublist.mem member)

theorem Staged.executions {execution : Execution} {stage : ExecutionStage}
    (staged : Staged engine after execution stage) :
    after.executions = engine.executions.map fun other =>
      if other.ticket = execution.ticket then { other with stage := stage } else other := by
  obtain ⟨before, free, found, isLater⟩ := staged.dispatcher
  rw [executions_of_dispatcher found, executions_of_dispatcher isLater]

theorem Staged.reached {execution : Execution} {stage : ExecutionStage}
    (staged : Staged engine after execution stage) :
    { execution with stage := stage } ∈ after.executions := by
  rw [staged.executions]
  exact List.mem_map.mpr ⟨execution, staged.member, if_pos rfl⟩

theorem Staged.launching {execution : Execution} {stage : ExecutionStage}
    (staged : Staged engine after execution stage) : after.launching = engine.launching := by
  obtain ⟨before, free, found, isLater⟩ := staged.dispatcher
  rw [launching_of_dispatcher found, launching_of_dispatcher isLater]

theorem Staged.sound {execution : Execution} {stage : ExecutionStage}
    (staged : Staged engine after execution stage) (sound : engine.Sound) : after.Sound := by
  have sameTickets : after.executions.map Execution.ticket =
      engine.executions.map Execution.ticket := by
    rw [staged.executions, List.map_map]
    refine List.map_congr_left fun other _ => ?_
    dsimp only [Function.comp_apply]
    split <;> rfl
  obtain ⟨before, free, found, isLater⟩ := staged.dispatcher
  refine ⟨?_, sameTickets ▸ sound.distinct, ?_, ?_, ?_⟩
  · rw [staged.isDispatching]
    exact fun _ => sound.dispatching (by simp [found])
  · intro other member
    have listed : other.ticket ∈ engine.executions.map Execution.ticket :=
      sameTickets ▸ List.mem_map_of_mem member
    obtain ⟨old, oldMember, sameTicket⟩ := List.mem_map.mp listed
    rw [staged.nextTicket, ← sameTicket]
    exact sound.issued old oldMember
  · intro dispatcher isDispatcher recovering
    obtain rfl := Option.some.inj (isLater.symm.trans isDispatcher)
    simp [sound.recovering before found recovering]
  · intro stopped other member
    rw [staged.executions] at member
    obtain ⟨old, oldMember, rfl⟩ := List.mem_map.mp member
    split
    · exact staged.leaves
    · exact sound.unqueued (staged.isWriterStopped ▸ stopped) old oldMember

theorem Sound.launched (sound : engine.Sound) {before later : Dispatcher} {execution : Execution}
    (found : engine.dispatcher = some before) (dispatcher : after.dispatcher = some later)
    (executions : later.executions = before.executions ++ [execution])
    (ticket : execution.ticket = engine.nextTicket)
    (nextTicket : after.nextTicket = engine.nextTicket + 1)
    (goesOn : execution.stage.isQueued = true → engine.isWriterStopped = false)
    (resting : later.phase.isRecovering = false)
    (isDispatching : after.isDispatching = engine.isDispatching)
    (isWriterStopped : after.isWriterStopped = engine.isWriterStopped) : after.Sound := by
  have all : after.executions = engine.executions ++ [execution] := by
    rw [executions_of_dispatcher found, executions_of_dispatcher dispatcher, executions]
  refine ⟨?_, ?_, ?_, ?_, ?_⟩
  · rw [isDispatching]
    exact fun _ => sound.dispatching (by simp [found])
  · rw [all, List.map_append]
    refine List.Nodup.append sound.distinct (by simp) ?_
    intro old isOld isNew
    obtain ⟨other, member, rfl⟩ := List.mem_map.mp isOld
    have issued := sound.issued other member
    rw [List.mem_singleton.mp isNew, ticket] at issued
    exact Nat.lt_irrefl _ issued
  · intro other member
    rw [all] at member
    rw [nextTicket]
    rcases List.mem_append.mp member with isOld | isNew
    · exact Nat.lt_succ_of_lt (sound.issued other isOld)
    · rw [List.mem_singleton.mp isNew, ticket]
      exact Nat.lt_succ_self _
  · intro other isOther recovering
    obtain rfl := Option.some.inj (dispatcher.symm.trans isOther)
    cases resting.symm.trans recovering
  · intro stopped other member
    rw [isWriterStopped] at stopped
    rw [all] at member
    rcases List.mem_append.mp member with isOld | isNew
    · exact sound.unqueued stopped other isOld
    · rw [List.mem_singleton.mp isNew, Bool.eq_false_iff]
      intro queued
      cases (goesOn queued).symm.trans stopped

theorem executions_stopWriter (engine : Engine Business) :
    engine.stopWriter.executions = engine.executions.map fun execution =>
      match execution.stage with
      | .queued => { execution with stage := .ended }
      | _ => execution := by
  cases found : engine.dispatcher with
  | none => simp [executions, stopWriter, found]
  | some dispatcher =>
      have later : engine.stopWriter.dispatcher = _ := congrArg (Option.map _) found
      exact (executions_of_dispatcher later).trans
        (congrArg (List.map _) (executions_of_dispatcher found).symm)

theorem Sound.stopWriter (sound : engine.Sound) : engine.stopWriter.Sound := by
  have same : engine.stopWriter.executions.map Execution.ticket =
      engine.executions.map Execution.ticket := by
    rw [executions_stopWriter, List.map_map]
    refine List.map_congr_left fun execution _ => ?_
    dsimp only [Function.comp_apply]
    split <;> rfl
  refine ⟨?_, same ▸ sound.distinct, ?_, ?_, ?_⟩
  · intro present
    exact sound.dispatching (by simpa [Engine.stopWriter] using present)
  · intro execution member
    have listed : execution.ticket ∈ engine.executions.map Execution.ticket :=
      same ▸ List.mem_map_of_mem member
    obtain ⟨old, oldMember, sameTicket⟩ := List.mem_map.mp listed
    exact sameTicket ▸ sound.issued old oldMember
  · intro later isLater recovering
    obtain ⟨before, found, rfl⟩ := Option.map_eq_some_iff.mp isLater
    simp [sound.recovering before found recovering]
  · intro _ execution member
    rw [executions_stopWriter] at member
    obtain ⟨old, _, rfl⟩ := List.mem_map.mp member
    split
    · rfl
    · next notQueued =>
        cases stage : old.stage <;> first | rfl | exact absurd stage notQueued

theorem Sound.dispatcher_eq_none (sound : engine.Sound) (idle : engine.isDispatching = false) :
    engine.dispatcher = none := by
  cases found : engine.dispatcher with
  | none => rfl
  | some dispatcher => cases idle.symm.trans (sound.dispatching (by rw [found]; rfl))

theorem Shift.sound {move : Move Business} (shift : Shift engine move after)
    (sound : engine.Sound) : after.Sound := by
  cases shift with
  | same same => exact same.sound sound
  | begun idle isDispatching dispatcher nextTicket isWriterStopped =>
      have unstarted := sound.dispatcher_eq_none idle
      rcases dispatcher with same | ⟨free, started⟩
      · rw [unstarted] at same
        exact ⟨fun _ => isDispatching, by simp [executions, same], by simp [executions, same],
          by simp [same], by simp [executions, same]⟩
      · refine ⟨fun _ => isDispatching, by simp [executions, started],
          by simp [executions, started], ?_, by simp [executions, started]⟩
        intro dispatcher isDispatcher _
        rw [← Option.some.inj (started.symm.trans isDispatcher)]
  | redirected redirected => exact redirected.sound sound
  | launched found dispatcher executions ticket nextTicket goesOn resting isDispatching stays =>
      exact sound.launched found dispatcher executions ticket nextTicket goesOn resting
        isDispatching stays
  | staged staged _ => exact staged.sound sound
  | finished _ _ dispatcher _ =>
      exact ⟨by simp [dispatcher], by simp [executions, dispatcher],
        by simp [executions, dispatcher], by simp [dispatcher], by simp [executions, dispatcher]⟩
  | stopped isStopped _ => exact isStopped ▸ sound.stopWriter

theorem Reachable.sound (reachable : Reachable engine) : engine.Sound := by
  induction reachable with
  | fresh fresh => exact fresh.sound
  | moved _ _ taken ih => exact (step_shift taken).sound ih

/-- Once the writer is stopped, nothing is written any more. -/
theorem Sound.step_of_stopped {move : Move Business} (sound : engine.Sound)
    (stopped : engine.isWriterStopped = true) (taken : engine.step move = some after) :
    after.isWriterStopped = true ∧ after.database = engine.database := by
  have calls : Called engine after →
      after.isWriterStopped = true ∧ after.database = engine.database :=
    fun called => ⟨called.isWriterStopped.trans stopped, called.database stopped⟩
  have turns : ∀ {before later : Dispatcher}, Turned engine after before later →
      after.isWriterStopped = true ∧ after.database = engine.database :=
    fun turned => ⟨turned.isWriterStopped.trans stopped, turned.database⟩
  cases move with
  | transact program now => exact calls (called_of_step rfl taken)
  | enqueue job now => exact calls (called_of_step rfl taken)
  | enqueueAll jobs correlation now => exact calls (called_of_step rfl taken)
  | cancel id => exact calls (called_of_step rfl taken)
  | requeue id now => exact calls (called_of_step rfl taken)
  | announce place now =>
      obtain ⟨same, database⟩ := announce_sameWork taken
      exact ⟨same.isWriterStopped.trans stopped, database⟩
  | start =>
      obtain rfl := Option.some.inj taken
      rcases engine.start_cases with same | ⟨_, marked | ⟨free, started⟩⟩
      · exact same.symm ▸ ⟨stopped, rfl⟩
      · exact marked.symm ▸ ⟨stopped, rfl⟩
      · exact started.symm ▸ ⟨stopped, rfl⟩
  | requestStop =>
      obtain ⟨_, _, turned⟩ := requestStop_turned taken
      exact turns turned
  | recover draw now =>
      obtain ⟨dispatcher, jobs, _, _, same | ⟨running, _⟩, rfl⟩ := recover_cases taken
      · rw [same]
        exact ⟨stopped, rfl⟩
      · cases running.symm.trans stopped
  | count =>
      obtain ⟨_, _, turned⟩ := count_turned taken
      exact turns turned
  | scan now later =>
      obtain ⟨_, _, turned⟩ := scan_turned taken
      exact turns turned
  | decide now =>
      obtain ⟨_, _, _, _, ⟨_, _, turned⟩ | ⟨_, _, _, running, _, _⟩⟩ := decide_cases taken
      · exact turns turned
      · cases running.symm.trans stopped
  | launch now =>
      obtain ⟨dispatcher, found, told | dropped | launched | ended⟩ := launch_cases taken
      · obtain ⟨notice, notices, claimed, tick, _, rfl⟩ := told
        exact ⟨(sameWork_tell _ notice now).isWriterStopped.trans stopped,
          database_tell _ notice now⟩
      · obtain ⟨_, _, _, _, _, rfl⟩ := dropped
        exact ⟨stopped, rfl⟩
      · obtain ⟨_, _, _, _, _, _, _, _, _, _, rfl⟩ := launched
        exact ⟨stopped, rfl⟩
      · obtain ⟨_, _, rfl⟩ := ended
        exact ⟨stopped, rfl⟩
  | rest now =>
      obtain ⟨_, _, turned⟩ := rest_turned taken
      exact turns turned
  | wake waking =>
      obtain ⟨_, _, turned⟩ := wake_turned taken
      exact turns turned
  | finish =>
      obtain ⟨_, _, _, _, rfl⟩ := finish_cases taken
      exact ⟨stopped, rfl⟩
  | runQueued executor draw now =>
      -- A stopped writer has nothing in its queue.
      obtain ⟨execution, _, _, next, _, _⟩ := runQueued_cases taken
      obtain ⟨member, queued⟩ := mem_of_nextQueued? next
      have unqueued := sound.unqueued stopped execution member
      rw [queued] at unqueued
      cases unqueued
  | acquire ticket =>
      obtain ⟨_, _, _, _, rfl⟩ := acquire_cases taken
      exact ⟨stopped, rfl⟩
  | giveBack ticket result =>
      obtain ⟨_, _, _, rfl⟩ := return?_cases taken
      exact ⟨stopped, rfl⟩
  | settle ticket draw now =>
      obtain ⟨_, _, _, _, ⟨_, rfl⟩ | ⟨_, _, rfl⟩ | ⟨_, _, running, _, _⟩⟩ := settle_cases taken
      · exact ⟨stopped, rfl⟩
      · exact ⟨stopped, rfl⟩
      · cases running.symm.trans stopped
  | report ticket now =>
      obtain ⟨_, _, ⟨_, rfl⟩ | ⟨notice, _, _, rfl⟩⟩ := report_cases taken
      · exact ⟨stopped, rfl⟩
      · exact ⟨(sameWork_tell _ notice now).isWriterStopped.trans stopped,
          database_tell _ notice now⟩
  | stopWriter =>
      obtain rfl := Option.some.inj taken
      exact ⟨rfl, rfl⟩

end Sound

/-- No move changes what the engine executes, or its configuration. -/
theorem settings_of_step {engine after : Engine Business} {move : Move Business}
    (taken : engine.step move = some after) :
    after.registry = engine.registry ∧ after.config = engine.config := by
  have same : SameWork engine after →
      after.registry = engine.registry ∧ after.config = engine.config :=
    fun same => ⟨same.registry, same.config⟩
  have turns : (∃ before later, Turned engine after before later) →
      after.registry = engine.registry ∧ after.config = engine.config := by
    rintro ⟨_, _, turned⟩
    exact ⟨turned.registry, turned.config⟩
  cases move with
  | transact program now => exact same (called_of_step rfl taken).toSameWork
  | enqueue job now => exact same (called_of_step rfl taken).toSameWork
  | enqueueAll jobs correlation now => exact same (called_of_step rfl taken).toSameWork
  | cancel id => exact same (called_of_step rfl taken).toSameWork
  | requeue id now => exact same (called_of_step rfl taken).toSameWork
  | announce place now => exact same (announce_sameWork taken).1
  | start =>
      obtain rfl := Option.some.inj taken
      rcases engine.start_cases with same | ⟨_, marked | ⟨_, started⟩⟩
      · rw [same]
        exact ⟨rfl, rfl⟩
      · rw [marked]
        exact ⟨rfl, rfl⟩
      · rw [started]
        exact ⟨rfl, rfl⟩
  | requestStop => exact turns (requestStop_turned taken)
  | recover draw now =>
      obtain ⟨_, _, _, _, _, rfl⟩ := recover_cases taken
      exact ⟨rfl, rfl⟩
  | count => exact turns (count_turned taken)
  | scan now later => exact turns (scan_turned taken)
  | decide now =>
      obtain ⟨_, _, _, _, turned | ⟨_, _, _, _, _, rfl⟩⟩ := decide_cases taken
      · exact turns turned
      · exact ⟨rfl, rfl⟩
  | launch now =>
      obtain ⟨dispatcher, _, told | dropped | launched | ended⟩ := launch_cases taken
      · obtain ⟨notice, notices, claimed, tick, _, rfl⟩ := told
        have told := sameWork_tell
          (engine.enterPhase dispatcher (.launching notices claimed tick)) notice now
        exact ⟨told.registry, told.config⟩
      · obtain ⟨_, _, _, _, _, rfl⟩ := dropped
        exact ⟨rfl, rfl⟩
      · obtain ⟨_, _, _, _, _, _, _, _, _, _, rfl⟩ := launched
        exact ⟨rfl, rfl⟩
      · obtain ⟨_, _, rfl⟩ := ended
        exact ⟨rfl, rfl⟩
  | rest now => exact turns (rest_turned taken)
  | wake waking => exact turns (wake_turned taken)
  | finish =>
      obtain ⟨_, _, _, _, rfl⟩ := finish_cases taken
      exact ⟨rfl, rfl⟩
  | runQueued executor draw now =>
      obtain ⟨_, _, _, _, _, rfl⟩ := runQueued_cases taken
      exact ⟨rfl, rfl⟩
  | acquire ticket =>
      obtain ⟨_, _, _, _, rfl⟩ := acquire_cases taken
      exact ⟨rfl, rfl⟩
  | giveBack ticket result =>
      obtain ⟨_, _, _, rfl⟩ := return?_cases taken
      exact ⟨rfl, rfl⟩
  | settle ticket draw now =>
      obtain ⟨_, _, _, _, ⟨_, rfl⟩ | ⟨_, _, rfl⟩ | ⟨_, _, _, _, rfl⟩⟩ := settle_cases taken
      · exact ⟨rfl, rfl⟩
      · exact ⟨rfl, rfl⟩
      · exact ⟨rfl, rfl⟩
  | report ticket now =>
      obtain ⟨_, _, ⟨_, rfl⟩ | ⟨notice, rest, _, rfl⟩⟩ := report_cases taken
      · exact ⟨rfl, rfl⟩
      · have told := sameWork_tell (engine.setStage ticket (.reporting rest)) notice now
        exact ⟨told.registry, told.config⟩
  | stopWriter =>
      obtain rfl := Option.some.inj taken
      exact ⟨rfl, rfl⟩

end DurableJobs.Engine
