import DurableJobs.Proofs.Engine.Notices
import DurableJobs.Proofs.Engine.Works
import Mathlib.Algebra.Order.Group.Multiset
import Mathlib.Tactic.Abel

/-!
What is committed and still to be told.

Notices wait with the call that committed them, with the dispatcher or with an execution. A move
commits some or tells some of them, so in any run what was told and what still waits is together what
was committed: nothing is told twice, and nothing gets lost.
-/

set_option autoImplicit false

namespace DurableJobs

namespace ExecutionStage

def notices : ExecutionStage → List Notice
  | .reporting notices => notices
  | _ => []

theorem notices_of_isOwning {stage : ExecutionStage} (owning : stage.isOwning = true) :
    stage.notices = [] := by
  cases stage <;> first | rfl | cases owning

end ExecutionStage

def Utterance.notice? : Utterance → Option Notice
  | .told _ notice _ => some notice
  | .started _ _ => none

namespace Engine

variable {Business : Type}

/-- What the last tick gave up and the dispatcher has still to tell. -/
def tickNotices (engine : Engine Business) : List Notice :=
  match engine.dispatcher with
  | none => []
  | some dispatcher => dispatcher.phase.notices

def executionNotices (engine : Engine Business) : List Notice :=
  engine.executions.flatMap fun execution => execution.stage.notices

def unannounced (engine : Engine Business) : Multiset Notice :=
  engine.owed.flatten + engine.tickNotices + engine.executionNotices

def said (engine : Engine Business) (move : Move Business) : List Notice :=
  (engine.utterances move).filterMap Utterance.notice?

/-- What was said and what now waits is what waited before and what was committed. -/
def Announces (engine after : Engine Business) (said notices : List Notice) : Prop :=
  (said : Multiset Notice) + after.unannounced = engine.unannounced + notices

section Announces

variable {engine after : Engine Business}

theorem Announces.of_eq (same : after.unannounced = engine.unannounced) :
    Announces engine after [] [] := by
  rw [Announces, same]
  exact add_comm _ _

theorem tickNotices_of_dispatcher {dispatcher : Dispatcher}
    (found : engine.dispatcher = some dispatcher) :
    engine.tickNotices = dispatcher.phase.notices := by
  simp [tickNotices, found]

theorem Fresh.unannounced (fresh : engine.Fresh) : engine.unannounced = 0 := by
  simp [Engine.unannounced, tickNotices, executionNotices, executions, fresh.owed, fresh.dispatcher]

theorem Announces.of_dispatcher (owed : after.owed = engine.owed)
    (dispatcher : after.dispatcher = engine.dispatcher) : Announces engine after [] [] :=
  .of_eq (by simp only [unannounced, tickNotices, executionNotices, executions, owed, dispatcher])

theorem Announces.owing {database : Database Business} {notices : List Notice} :
    Announces engine
      { engine with database := database, owed := engine.owed ++ [notices] } [] notices := by
  simp only [Announces, unannounced, tickNotices, executionNotices, executions,
    List.flatten_append, List.flatten_singleton, ← Multiset.coe_add, Multiset.coe_nil]
  abel

theorem owed_tell (engine : Engine Business) (notice : Notice) (now : Instant) :
    (engine.tell notice now).owed = engine.owed := by
  cases notice with
  | enqueued jobs => by_cases none : jobs.isEmpty <;> simp [tell, none]
  | _ => rfl

theorem unannounced_tell (engine : Engine Business) (notice : Notice) (now : Instant) :
    (engine.tell notice now).unannounced = engine.unannounced := by
  have dispatcher := (sameWork_tell engine notice now).dispatcher
  simp only [unannounced, tickNotices, executionNotices, executions, owed_tell, dispatcher]

/-- Executions that have ended have nothing to tell. -/
theorem flatMap_notices_reap (dispatcher : Dispatcher) :
    ((Dispatcher.reap dispatcher).executions.flatMap fun execution => execution.stage.notices) =
      dispatcher.executions.flatMap fun execution => execution.stage.notices := by
  rw [Dispatcher.reap]
  induction dispatcher.executions with
  | nil => rfl
  | cons execution rest ih =>
      rw [List.filter_cons, List.flatMap_cons]
      cases stage : execution.stage with
      | ended => simpa [ExecutionStage.notices] using ih
      | _ => simp [stage, ih]

theorem Redirected.executionNotices {before later : Dispatcher}
    (redirected : Redirected engine after before later) :
    after.executionNotices = engine.executionNotices := by
  rw [Engine.executionNotices, Engine.executionNotices, executions_of_dispatcher redirected.found,
    executions_of_dispatcher redirected.dispatcher]
  rcases redirected.executions with same | reaped
  · rw [same]
  · rw [reaped, flatMap_notices_reap]

/-- The dispatcher enters another phase, with the notices of that in place of its own. -/
theorem Redirected.unannounced {before later : Dispatcher}
    (redirected : Redirected engine after before later) (owed : after.owed = engine.owed) :
    (before.phase.notices : Multiset Notice) + after.unannounced =
      engine.unannounced + later.phase.notices := by
  rw [Engine.unannounced, Engine.unannounced, owed, redirected.executionNotices,
    tickNotices_of_dispatcher redirected.found, tickNotices_of_dispatcher redirected.dispatcher]
  abel

theorem Announces.of_redirected {before later : Dispatcher} {notices : List Notice}
    (redirected : Redirected engine after before later) (owed : after.owed = engine.owed)
    (silent : before.phase.notices = []) (isNotices : later.phase.notices = notices) :
    Announces engine after [] notices := by
  have moved := redirected.unannounced owed
  rw [silent, isNotices] at moved
  exact moved

theorem Announces.of_turned (turns : ∃ before later, Turned engine after before later) :
    Announces engine after [] [] := by
  obtain ⟨before, later, turned⟩ := turns
  refine .of_eq ?_
  rw [unannounced, unannounced, turned.owed, turned.toRedirected.executionNotices,
    tickNotices_of_dispatcher turned.found, tickNotices_of_dispatcher turned.dispatcher,
    turned.notices]

/-- An execution enters another stage, with the notices of that in place of its own. -/
theorem Staged.unannounced {execution : Execution} {stage : ExecutionStage}
    (staged : Staged engine after execution stage) (sound : engine.Sound)
    (owed : after.owed = engine.owed) :
    (execution.stage.notices : Multiset Notice) + after.unannounced =
      engine.unannounced + stage.notices := by
  obtain ⟨left, right, before, later⟩ := staged.split sound
  obtain ⟨dispatcher, free, found, isLater⟩ := staged.dispatcher
  rw [Engine.unannounced, Engine.unannounced, owed, tickNotices_of_dispatcher found,
    tickNotices_of_dispatcher isLater, executionNotices, executionNotices, before, later]
  simp only [List.flatMap_append, List.flatMap_cons, ← Multiset.coe_add]
  abel

theorem Announces.of_staged {execution : Execution} {stage : ExecutionStage} {notices : List Notice}
    (staged : Staged engine after execution stage) (sound : engine.Sound)
    (owed : after.owed = engine.owed) (owning : execution.stage.isOwning = true)
    (isNotices : stage.notices = notices) : Announces engine after [] notices := by
  have moved := staged.unannounced sound owed
  rw [ExecutionStage.notices_of_isOwning owning, isNotices] at moved
  exact moved

/-- The first of the waiting notices is told, and the others wait on. -/
theorem Announces.of_told {notice : Notice} {rest : List Notice}
    (moved : ((notice :: rest : List Notice) : Multiset Notice) + after.unannounced =
      engine.unannounced + rest) : Announces engine after [notice] [] := by
  rw [Announces, Multiset.coe_nil, add_zero, Multiset.coe_singleton]
  apply add_right_cancel
  calc
    {notice} + after.unannounced + (rest : Multiset Notice)
        = notice ::ₘ rest + after.unannounced := by
          rw [← Multiset.singleton_add]
          abel
    _ = engine.unannounced + rest := moved

/-! ### Moves -/

theorem transact_announces {Value : Type} (engine : Engine Business)
    (program : Program Business EngineError Value) (now : Instant) :
    Announces engine (engine.transact program now).2 [] (engine.committed program now) := by
  rw [committed_eq_drop]
  rcases engine.transact_cases program now with
    ⟨_, same, _⟩ | ⟨_, ⟨_, _, _, _, committed⟩ | ⟨_, _, lapsed⟩⟩
  · rw [same, List.drop_length]
    exact .of_dispatcher rfl rfl
  · rw [committed]
    simp only [List.drop_left, List.flatten_cons, List.flatten_nil, List.append_nil]
    exact .owing
  · rw [lapsed]
    simp only [List.drop_length]
    exact .of_dispatcher rfl rfl

theorem cancel_announces (engine : Engine Business) (id : Int) :
    Announces engine (engine.cancel id).2 [] (engine.notices (.cancel id)) := by
  simp only [cancel, execute, notices]
  split
  · exact .of_dispatcher rfl rfl
  · cases engine.database.jobs.cancel id with
    | mk answer jobs =>
        cases answer with
        | error error => exact .of_dispatcher rfl rfl
        | ok jobType? => cases jobType? <;> exact .owing

theorem requeue_announces (engine : Engine Business) (id : Int) (now : Instant) :
    Announces engine (engine.requeue id now).2 [] (engine.notices (.requeue id now)) := by
  simp only [requeue, notices, requeued]
  split
  · exact .of_dispatcher rfl rfl
  · cases engine.database.jobs.requeue id now with
    | mk answer jobs =>
        cases answer with
        | error error => exact .of_dispatcher rfl rfl
        | ok reply => cases reply <;> exact .owing

theorem flatten_eraseIdx {owed : List (List Notice)} {place : Nat}
    (silent : owed[place]? = some []) : (owed.eraseIdx place).flatten = owed.flatten := by
  induction owed generalizing place with
  | nil => rfl
  | cons first rest ih =>
      cases place with
      | zero =>
          obtain rfl := Option.some.inj silent
          rfl
      | succ place => exact congrArg (first ++ ·) (ih silent)

theorem flatten_set {owed : List (List Notice)} {place : Nat} {notice : Notice}
    {others : List Notice} (speaking : owed[place]? = some (notice :: others)) :
    ((owed.set place others).flatten : Multiset Notice) + [notice] = owed.flatten := by
  induction owed generalizing place with
  | nil => cases speaking
  | cons first rest ih =>
      cases place with
      | zero =>
          obtain rfl := Option.some.inj speaking
          simp only [List.set_cons_zero, List.flatten_cons, List.cons_append, ← Multiset.cons_coe,
            ← Multiset.coe_add, ← Multiset.singleton_add, Multiset.coe_nil, add_zero]
          abel
      | succ place =>
          rw [List.set_cons_succ, List.flatten_cons, List.flatten_cons, ← Multiset.coe_add,
            ← Multiset.coe_add, add_assoc, ih speaking]

theorem announce_announces {place : Nat} {now : Instant}
    (taken : engine.announce place now = some after) :
    Announces engine after (engine.said (.announce place now)) [] := by
  unfold announce at taken
  split at taken
  · cases taken
  · next silent =>
      cases taken
      simp only [said, utterances, silent]
      refine .of_eq ?_
      simp only [unannounced, tickNotices, executionNotices, executions, flatten_eraseIdx silent]
  · next notice rest speaking =>
      cases taken
      simp only [Announces, said, utterances, speaking, unannounced_tell]
      simp only [unannounced, tickNotices, executionNotices, executions, ← flatten_set speaking,
        List.filterMap_cons, Utterance.notice?, List.filterMap_nil, Multiset.coe_nil]
      abel

theorem Sound.start_announces (sound : engine.Sound) : Announces engine engine.start.2 [] [] := by
  rcases engine.start_cases with same | ⟨idle, marked | ⟨free, started⟩⟩
  · rw [same]
    exact .of_dispatcher rfl rfl
  · rw [marked]
    exact .of_dispatcher rfl rfl
  · have unstarted := sound.dispatcher_eq_none idle
    rw [started]
    refine .of_eq ?_
    simp only [unannounced, tickNotices, executionNotices, executions, unstarted]
    rfl

theorem recover_announces {draw : Nat} {now : Instant} (taken : engine.recover draw now = some after) :
    Announces engine after [] [] := by
  obtain ⟨dispatcher, jobs, found, recovering, _, rfl⟩ := recover_cases taken
  refine .of_redirected (.of_phase found rfl rfl rfl rfl rfl) rfl ?_ rfl
  rw [recovering]
  rfl

theorem decide_announces {now : Instant} (taken : engine.decide now = some after) :
    Announces engine after [] (engine.notices (.decide now)) := by
  obtain ⟨dispatcher, lanes, found, deciding, ended⟩ := decide_ticks taken
  have silent : dispatcher.phase.notices = [] := by
    rw [deciding]
    rfl
  rcases ended with ⟨none, phase, quiet, rfl⟩ | ⟨tick, jobs, isTick, _, rfl⟩
  · simp only [notices, none, Option.elim_none]
    rcases quiet with rfl | rfl
    · exact .of_redirected (.of_phase found rfl rfl rfl rfl rfl) rfl silent rfl
    · exact .of_redirected (.of_phase found rfl rfl rfl rfl rfl) rfl silent rfl
  · simp only [notices, isTick, Option.elim_some]
    exact .of_redirected (.of_phase found rfl rfl rfl rfl rfl) rfl silent rfl

theorem launch_announces {now : Instant} (taken : engine.launch now = some after) :
    Announces engine after (engine.said (.launch now)) [] := by
  obtain ⟨dispatcher, found, told | dropped | launched | ended⟩ := launch_cases taken
  · obtain ⟨notice, notices, claimed, tick, isLaunching, rfl⟩ := told
    have redirected : Redirected engine
        (engine.enterPhase dispatcher (.launching notices claimed tick)) dispatcher
        { dispatcher with phase := .launching notices claimed tick } :=
      .of_phase found rfl rfl rfl rfl rfl
    have moved := redirected.unannounced rfl
    rw [isLaunching, ← unannounced_tell _ notice now] at moved
    simp only [said, utterances, found, Option.map_some, isLaunching]
    exact .of_told moved
  · obtain ⟨record, claimed, tick, isLaunching, unknown, rfl⟩ := dropped
    simp only [said, utterances, found, Option.map_some, isLaunching, unknown]
    refine .of_redirected (.of_phase found rfl rfl rfl rfl rfl) rfl ?_ rfl
    rw [isLaunching]
    rfl
  · obtain ⟨record, claimed, tick, kind, stage, free, isLaunching, known, _, owning, rfl⟩ := launched
    have silent : stage.notices = [] := by
      rcases owning with owning | ⟨rfl, _⟩
      · exact ExecutionStage.notices_of_isOwning owning
      · rfl
    simp only [said, utterances, found, Option.map_some, isLaunching, known, if_true]
    refine .of_eq ?_
    rw [unannounced, unannounced, tickNotices_of_dispatcher found, isLaunching]
    simp only [executionNotices, executions, found, List.flatMap_append, List.flatMap_singleton,
      silent, List.append_nil]
    rfl
  · obtain ⟨tick, isLaunching, rfl⟩ := ended
    simp only [said, utterances, found, Option.map_some, isLaunching]
    refine .of_redirected (.of_phase found rfl rfl rfl rfl rfl) rfl ?_ rfl
    rw [isLaunching]
    rfl

theorem finish_announces (taken : engine.finish = some after) : Announces engine after [] [] := by
  obtain ⟨dispatcher, found, draining, ended, rfl⟩ := finish_cases taken
  have silent : engine.executionNotices = [] := by
    rw [executionNotices, executions_of_dispatcher found, ← flatMap_notices_reap, ended]
    rfl
  refine .of_eq ?_
  rw [unannounced, unannounced, silent, tickNotices_of_dispatcher found, draining]
  rfl

theorem Sound.runQueued_announces (sound : engine.Sound)
    {executor : Record → Program Business JobError TransactionalOutcome} {draw : Nat}
    {now : Instant} (taken : engine.runQueued executor draw now = some after) :
    Announces engine after [] (engine.notices (.runQueued executor draw now)) := by
  obtain ⟨execution, notices?, database, next, ran, rfl⟩ := runQueued_cases taken
  obtain ⟨member, queued⟩ := mem_of_nextQueued? next
  have leaves : (stageAfter notices?).isQueued = false := isQueued_stageAfter _
  refine .of_staged (staged_setStage member leaves (sameWork_committed engine database engine.owed))
    sound rfl (by rw [queued]; rfl) ?_
  simp only [notices, next, ran]
  cases notices? <;> rfl

theorem Sound.settle_announces (sound : engine.Sound) {ticket draw : Nat} {now : Instant}
    (taken : engine.settle ticket draw now = some after) :
    Announces engine after [] (engine.notices (.settle ticket draw now)) := by
  obtain ⟨execution, result, found, returned, ended⟩ := settle_cases taken
  obtain ⟨member, rfl⟩ := mem_of_execution? found
  have owning : execution.stage.isOwning = true := by
    rw [returned]
    rfl
  have settles := settlement?_of_returned found returned draw now
  rcases ended with
    ⟨stopped, rfl⟩ | ⟨goesOn, ⟨error, refused⟩, rfl⟩ | ⟨settlement, jobs, goesOn, answer, rfl⟩
  · refine .of_staged (staged_setStage member rfl (.refl engine)) sound rfl owning ?_
    simp [notices, settles, stopped, ExecutionStage.notices]
  · refine .of_staged (staged_setStage member rfl (.refl engine)) sound rfl owning ?_
    simp [notices, settles, goesOn, refused, ExecutionStage.notices]
  · refine .of_staged (staged_setStage member rfl (sameWork_committed engine _ engine.owed)) sound rfl
      owning ?_
    simp [notices, settles, goesOn, answer, ExecutionStage.notices]

theorem Sound.report_announces (sound : engine.Sound) {ticket : Nat} {now : Instant}
    (taken : engine.report ticket now = some after) :
    Announces engine after (engine.said (.report ticket now)) [] := by
  obtain ⟨execution, found, told⟩ := report_cases taken
  obtain ⟨member, rfl⟩ := mem_of_execution? found
  rcases told with ⟨silent, rfl⟩ | ⟨notice, rest, speaking, rfl⟩
  · simp only [said, utterances, found, Option.map_some, silent]
    have staged := staged_setStage member
      (rfl : ExecutionStage.ended.isQueued = false) (.refl engine)
    have moved := staged.unannounced sound rfl
    rw [silent] at moved
    exact moved
  · simp only [said, utterances, found, Option.map_some, speaking]
    have staged := staged_setStage member
      (rfl : (ExecutionStage.reporting rest).isQueued = false) (.refl engine)
    have moved := staged.unannounced sound rfl
    rw [speaking, ← unannounced_tell _ notice now] at moved
    exact .of_told moved

theorem stopWriter_announces (engine : Engine Business) :
    Announces engine engine.stopWriter [] [] := by
  have phase : engine.stopWriter.tickNotices = engine.tickNotices := by
    cases found : engine.dispatcher <;> simp [tickNotices, stopWriter, found]
  have executions : engine.stopWriter.executionNotices = engine.executionNotices := by
    rw [executionNotices, executions_stopWriter, List.flatMap_map, executionNotices]
    refine List.flatMap_congr fun execution _ => ?_
    cases stage : execution.stage <;> simp [stage, ExecutionStage.notices]
  exact .of_eq (by rw [unannounced, unannounced, phase, executions]; rfl)

/-- A move tells nothing that was not committed, and nothing that it commits is forgotten. -/
theorem Sound.announces {move : Move Business} (sound : engine.Sound)
    (taken : engine.step move = some after) :
    Announces engine after (engine.said move) (engine.notices move) := by
  cases move with
  | transact program now => exact Option.some.inj taken ▸ engine.transact_announces program now
  | enqueue job now => exact Option.some.inj taken ▸ engine.transact_announces _ now
  | enqueueAll jobs correlation now => exact Option.some.inj taken ▸ engine.transact_announces _ now
  | cancel id => exact Option.some.inj taken ▸ engine.cancel_announces id
  | requeue id now => exact Option.some.inj taken ▸ engine.requeue_announces id now
  | announce place now => exact announce_announces taken
  | start => exact Option.some.inj taken ▸ sound.start_announces
  | requestStop => exact .of_turned (requestStop_turned taken)
  | recover draw now => exact recover_announces taken
  | count => exact .of_turned (count_turned taken)
  | scan now later => exact .of_turned (scan_turned taken)
  | decide now => exact decide_announces taken
  | launch now => exact launch_announces taken
  | rest now => exact .of_turned (rest_turned taken)
  | wake waking => exact .of_turned (wake_turned taken)
  | finish => exact finish_announces taken
  | runQueued executor draw now => exact sound.runQueued_announces taken
  | acquire ticket =>
      obtain ⟨execution, left, found, waiting, rfl⟩ := acquire_cases taken
      obtain ⟨member, rfl⟩ := mem_of_execution? found
      exact .of_staged (staged_setFree member rfl _) sound rfl (by rw [waiting]; rfl) rfl
  | giveBack ticket result =>
      obtain ⟨execution, found, running, rfl⟩ := return?_cases taken
      obtain ⟨member, rfl⟩ := mem_of_execution? found
      exact .of_staged (staged_setFree member rfl _) sound rfl (by rw [running]; rfl) rfl
  | settle ticket draw now => exact sound.settle_announces taken
  | report ticket now => exact sound.report_announces taken
  | stopWriter => exact Option.some.inj taken ▸ engine.stopWriter_announces

/-! ### Runs -/

/-- What each of some moves is said to do, one after the other. -/
def gather {Value : Type} (each : Engine Business → Move Business → List Value)
    (engine : Engine Business) : List (Move Business) → List Value
  | [] => []
  | move :: rest =>
      each engine move ++
        match engine.step move with
        | none => []
        | some after => gather each after rest

/-- What was told in the course of some moves. -/
def told (engine : Engine Business) (moves : List (Move Business)) : List Notice :=
  (engine.log moves).filterMap Utterance.notice?

/-- What was committed in the course of some moves and was to be told. -/
def commits (engine : Engine Business) (moves : List (Move Business)) : List Notice :=
  engine.gather notices moves

theorem gather_cons {Value : Type} (each : Engine Business → Move Business → List Value)
    {move : Move Business} (taken : engine.step move = some after) (rest : List (Move Business)) :
    engine.gather each (move :: rest) = each engine move ++ after.gather each rest := by
  simp [gather, taken]

theorem gather_append {Value : Type} (each : Engine Business → Move Business → List Value)
    {moves : List (Move Business)} (ran : engine.run? moves = some after)
    (rest : List (Move Business)) :
    engine.gather each (moves ++ rest) = engine.gather each moves ++ after.gather each rest := by
  induction moves generalizing engine with
  | nil =>
      obtain rfl := Option.some.inj ran
      rfl
  | cons move others ih =>
      obtain ⟨middle, taken, isRest⟩ := Option.bind_eq_some_iff.mp ran
      rw [List.cons_append, gather_cons each taken, gather_cons each taken, ih isRest,
        List.append_assoc]

theorem gather_eq_nil {Value : Type} {each : Engine Business → Move Business → List Value}
    {moves : List (Move Business)} (silent : ∀ move ∈ moves, ∀ engine, each engine move = []) :
    engine.gather each moves = [] := by
  induction moves generalizing engine with
  | nil => rfl
  | cons move rest ih =>
      rw [gather, silent move List.mem_cons_self, List.nil_append]
      split
      · rfl
      · exact ih fun other member => silent other (List.mem_cons_of_mem _ member)

theorem commits_cons {move : Move Business} (taken : engine.step move = some after)
    (rest : List (Move Business)) :
    engine.commits (move :: rest) = engine.notices move ++ after.commits rest :=
  gather_cons notices taken rest

theorem told_cons {move : Move Business} (taken : engine.step move = some after)
    (rest : List (Move Business)) :
    engine.told (move :: rest) = engine.said move ++ after.told rest := by
  simp [told, log, said, taken]

theorem log_eq_gather (engine : Engine Business) (moves : List (Move Business)) :
    engine.log moves = engine.gather utterances moves := by
  induction moves generalizing engine with
  | nil => rfl
  | cons move rest ih =>
      rw [log, gather]
      cases engine.step move with
      | none => rfl
      | some after => exact congrArg _ (ih after)

theorem told_append {moves : List (Move Business)} (ran : engine.run? moves = some after)
    (rest : List (Move Business)) :
    engine.told (moves ++ rest) = engine.told moves ++ after.told rest := by
  rw [told, log_eq_gather, gather_append utterances ran, List.filterMap_append, ← log_eq_gather,
    ← log_eq_gather]
  rfl

/-- What was told and what is still to be told is what was committed. -/
theorem Sound.told_run {moves : List (Move Business)} (sound : engine.Sound)
    (ran : engine.run? moves = some after) :
    (engine.told moves : Multiset Notice) + after.unannounced =
      engine.unannounced + engine.commits moves := by
  induction moves generalizing engine with
  | nil =>
      obtain rfl := Option.some.inj ran
      exact add_comm _ _
  | cons move rest ih =>
      obtain ⟨middle, taken, isRest⟩ := Option.bind_eq_some_iff.mp ran
      have step := sound.announces taken
      have later := ih ((step_shift taken).sound sound) isRest
      rw [told_cons taken, commits_cons taken, ← Multiset.coe_add, ← Multiset.coe_add]
      calc
        (engine.said move : Multiset Notice) + middle.told rest + after.unannounced
            = engine.said move + (middle.told rest + after.unannounced) := add_assoc _ _ _
        _ = (engine.said move + middle.unannounced) + middle.commits rest := by
            rw [later, add_assoc]
        _ = engine.unannounced + (engine.notices move + middle.commits rest) := by
            rw [step, add_assoc]

end Announces

end Engine

end DurableJobs
