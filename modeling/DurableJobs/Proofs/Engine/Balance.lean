import DurableJobs.Proofs.Engine.Tallies
import DurableJobs.Proofs.Engine.Batches

/-!
Starts and settlements balance.

An execution that was started is in flight until its settlement is told, and that is told once; only
an execution whose settlement fails ends without one. If every stored type is registered, nobody but
the executions tells of settlements. So once none is in flight and none has failed, the counts of
settlements add up to that of starts.
-/

set_option autoImplicit false

namespace DurableJobs

/-- Whether it counts executions that were settled. -/
def Count.isSettlement : Count → Bool
  | .completed => true
  | .retried => true
  | .failedAttempt => true
  | .deadLettered => true
  | .superseded => true
  | _ => false

/-- The notice tells that a record was settled. -/
def Notice.isSettlement : Notice → Bool
  | .settled _ .missing => false
  | .settled _ _ => true
  | _ => false

def Utterance.started? : Utterance → Option Record
  | .told _ _ _ => none
  | .started record _ => some record

theorem countP_isSettlement (events : List Event) :
    (events.countP fun event => event.change.kind.isSettlement) =
      (events.countP fun event => event.change.kind = .completed) +
        (events.countP fun event => event.change.kind = .retried) +
        (events.countP fun event => event.change.kind = .failedAttempt) +
        (events.countP fun event => event.change.kind = .deadLettered) +
        events.countP fun event => event.change.kind = .superseded := by
  induction events with
  | nil => rfl
  | cons event rest ih =>
      simp only [List.countP_cons, ih]
      cases event.change.kind <;> simp [Count.isSettlement] <;> omega

theorem Telemetry.Tallies.settlements {telemetry : Telemetry} (tallies : telemetry.Tallies) :
    telemetry.metrics.global.completed + telemetry.metrics.global.retried +
        telemetry.metrics.global.failedAttempts + telemetry.metrics.global.deadLettered +
        telemetry.metrics.global.superseded =
      telemetry.events.countP fun event => event.change.kind.isSettlement := by
  rw [countP_isSettlement, ← tallies.events, ← tallies.events, ← tallies.events,
    ← tallies.events, ← tallies.events]
  rfl

theorem Notice.countP_events (notice : Notice) (now : Instant) :
    ((notice.events now).countP fun event => event.change.kind.isSettlement) =
        notice.isSettlement.toNat ∧
      ((notice.events now).countP fun event => event.change.kind = .started) = 0 := by
  cases notice with
  | enqueued jobs =>
      refine ⟨List.countP_eq_zero.mpr ?_, List.countP_eq_zero.mpr ?_⟩ <;>
        rintro _ member <;>
        obtain ⟨job, _, rfl⟩ := List.mem_map.mp member <;>
        cases coalesced : job.receipt.isCoalesced <;>
        simp [Enqueued.event, Change.kind, coalesced, Count.isSettlement]
  | settled record settlement =>
      cases settlement with
      | retrying notBefore error => cases error <;> exact ⟨rfl, rfl⟩
      | _ => exact ⟨rfl, rfl⟩
  | _ => exact ⟨rfl, rfl⟩

/-- The events of what was uttered are of its starts and of the settlements among its notices. -/
theorem countP_flatMap_events (utterances : List Utterance) :
    ((utterances.flatMap Utterance.events).countP fun event => event.change.kind.isSettlement) =
        (utterances.filterMap Utterance.notice?).countP Notice.isSettlement ∧
      ((utterances.flatMap Utterance.events).countP fun event => event.change.kind = .started) =
        (utterances.filterMap Utterance.started?).length := by
  induction utterances with
  | nil => exact ⟨rfl, rfl⟩
  | cons utterance rest ih =>
      obtain ⟨settlements, starts⟩ := ih
      rw [List.flatMap_cons, List.countP_append, List.countP_append, settlements, starts]
      cases utterance with
      | told teller notice now =>
          obtain ⟨first, none⟩ := notice.countP_events now
          simp only [Utterance.events, Utterance.notice?, Utterance.started?, List.filterMap_cons,
            List.countP_cons, first, none]
          constructor
          · cases notice.isSettlement <;> simp [Nat.add_comm]
          · exact Nat.zero_add _
      | started record now =>
          constructor
          · exact Nat.zero_add _
          · exact Nat.add_comm _ _

/-- Every type that the table has a record of is registered. -/
def Registry.Covers (registry : Registry) (table : Store.Table) : Prop :=
  ∀ row ∈ table.rows, ∀ jobType, row.jobType = .text jobType →
    registry.isRegistered jobType = true

instance (registry : Registry) (table : Store.Table) : Decidable (registry.Covers table) :=
  decidable_of_iff
    (table.rows.all fun row =>
      match row.jobType with
      | .text jobType => registry.isRegistered jobType
      | _ => true) <| by
    rw [List.all_eq_true, Registry.Covers]
    refine forall₂_congr fun row _ => ?_
    cases row.jobType <;> simp

/-- A tick gives nothing up if all types are registered. -/
theorem Registry.Covers.unknown_of_tick {registry : Registry} {table after : Store.Table}
    (covers : registry.Covers table) {lanes : Lanes} {batch : Nat} {now : Instant} {tick : Tick}
    (answer : table.tick registry lanes batch now = (.ok tick, after)) : tick.unknown = [] := by
  obtain ⟨records, isReady, applied⟩ := Store.Table.applyPicks_of_tick answer
  have givenUp := Store.Table.map_fst_unknown_of_applyPicks applied
  rw [givenUp_pick] at givenUp
  refine List.map_eq_nil_iff.mp (givenUp.trans (List.filter_eq_nil_iff.mpr ?_))
  intro record member
  obtain ⟨row, isRow, isRecord⟩ := Store.row_of_mem_mapM isReady member
  have stored : row ∈ table.rows :=
    (Store.Table.mem_admitted_pending.mp
      (List.mem_of_mem_filter (List.mem_of_mem_take isRow))).1
  have isType := (Store.Row.holds_of_record isRecord).jobType
  simp [Registry.isUnknown, covers row stored record.jobType isType]

/-! ### Executions in flight -/

/-- One as long as the execution is still to be settled or to tell that it was, else none. -/
def ExecutionStage.unsettled : ExecutionStage → Nat
  | .reporting notices => notices.countP Notice.isSettlement
  | .ended => 0
  | _ => 1

theorem ExecutionStage.unsettled_of_isOwning {stage : ExecutionStage}
    (owning : stage.isOwning = true) : stage.unsettled = 1 := by
  cases stage with
  | reporting notices => cases owning
  | ended => cases owning
  | _ => rfl

namespace Engine

variable {Business : Type}

/-- The number of executions whose settlement is still to be told. -/
def unsettled (engine : Engine Business) : Nat :=
  (engine.executions.map fun execution => execution.stage.unsettled).sum

/-- The records whose execution a move starts. -/
def starts (engine : Engine Business) (move : Move Business) : List Record :=
  (engine.utterances move).filterMap Utterance.started?

/-- The records whose execution a move ends although they are not settled: the writer is stopped, or
it refuses the settlement, or the record is gone. -/
def forfeited (engine : Engine Business) : Move Business → List Record
  | .launch _ =>
      match engine.dispatcher.map Dispatcher.phase with
      | some (.launching [] (record :: _) _) =>
          if engine.registry.kindOf record.jobType = some .transactional ∧
              engine.isWriterStopped then [record]
          else []
      | _ => []
  | .runQueued executor draw now =>
      if (engine.notices (.runQueued executor draw now)).any Notice.isSettlement then []
      else (engine.nextQueued?.map Execution.record).toList
  | .settle ticket draw now =>
      if (engine.notices (.settle ticket draw now)).any Notice.isSettlement then []
      else ((engine.execution? ticket).map Execution.record).toList
  | .stopWriter =>
      (engine.executions.filter fun execution => execution.stage.isQueued).map Execution.record
  | _ => []

/-- The records whose settlement failed in the course of some moves. -/
def forfeits (engine : Engine Business) (moves : List (Move Business)) : List Record :=
  engine.gather forfeited moves

/-- All types are registered before each of the moves. -/
def Covered (engine : Engine Business) (moves : List (Move Business)) : Prop :=
  ∀ earlier middle, earlier <+: moves → engine.run? earlier = some middle →
    middle.registry.Covers middle.database.jobs

/-- Only executions have settlements to tell. -/
structure Quiet (engine : Engine Business) : Prop where
  owed : ∀ notices ∈ engine.owed, ∀ notice ∈ notices, notice.isSettlement = false
  ticked : ∀ notice ∈ engine.tickNotices, notice.isSettlement = false

/-- What a move starts is in flight after it, and what it tells to be settled or forfeits is not any
more. -/
def Evens (engine after : Engine Business) (said : List Notice) (forfeited started : List Record) :
    Prop :=
  after.unsettled + said.countP Notice.isSettlement + forfeited.length =
    engine.unsettled + started.length

section Balance

variable {engine after first last : Engine Business} {move : Move Business}

theorem unsettled_of_dispatcher (same : after.dispatcher = engine.dispatcher) :
    after.unsettled = engine.unsettled := by
  simp only [unsettled, executions, same]

theorem unsettled_enterPhase {dispatcher : Dispatcher}
    (found : engine.dispatcher = some dispatcher) (phase : DispatcherPhase) :
    (engine.enterPhase dispatcher phase).unsettled = engine.unsettled := by
  rw [unsettled, unsettled, executions_of_dispatcher found]
  rfl

theorem sum_unsettled_reap (dispatcher : Dispatcher) :
    ((Dispatcher.reap dispatcher).executions.map fun execution => execution.stage.unsettled).sum =
      (dispatcher.executions.map fun execution => execution.stage.unsettled).sum := by
  rw [Dispatcher.reap]
  induction dispatcher.executions with
  | nil => rfl
  | cons execution rest ih =>
      rw [List.filter_cons, List.map_cons, List.sum_cons]
      cases stage : execution.stage with
      | ended => simpa [ExecutionStage.unsettled] using ih
      | _ => simp [stage, ih]

theorem Redirected.unsettled {before later : Dispatcher}
    (redirected : Redirected engine after before later) : after.unsettled = engine.unsettled := by
  rw [Engine.unsettled, Engine.unsettled, executions_of_dispatcher redirected.found,
    executions_of_dispatcher redirected.dispatcher]
  rcases redirected.executions with same | reaped
  · rw [same]
  · rw [reaped, sum_unsettled_reap]

theorem Staged.unsettled {execution : Execution} {stage : ExecutionStage}
    (staged : Staged engine after execution stage) (sound : engine.Sound) :
    after.unsettled + execution.stage.unsettled = engine.unsettled + stage.unsettled := by
  obtain ⟨left, right, before, later⟩ := staged.split sound
  rw [Engine.unsettled, Engine.unsettled, before, later]
  simp only [List.map_append, List.map_cons, List.sum_append, List.sum_cons]
  omega

/-! ### Who tells of settlements -/

theorem Staged.tickNotices {execution : Execution} {stage : ExecutionStage}
    (staged : Staged engine after execution stage) : after.tickNotices = engine.tickNotices := by
  obtain ⟨before, free, found, isLater⟩ := staged.dispatcher
  rw [tickNotices_of_dispatcher found, tickNotices_of_dispatcher isLater]

theorem Fresh.quiet (fresh : engine.Fresh) : engine.Quiet := by
  constructor
  · simp [fresh.owed]
  · simp [tickNotices, fresh.dispatcher]

theorem Quiet.of_same (quiet : engine.Quiet) (owed : after.owed = engine.owed)
    (ticked : after.tickNotices ⊆ engine.tickNotices) : after.Quiet where
  owed := owed ▸ quiet.owed
  ticked := fun notice member => quiet.ticked notice (ticked member)

theorem Quiet.of_turned (quiet : engine.Quiet)
    (turns : ∃ before later, Turned engine after before later) : after.Quiet := by
  obtain ⟨before, later, turned⟩ := turns
  refine quiet.of_same turned.owed ?_
  rw [tickNotices_of_dispatcher turned.found, tickNotices_of_dispatcher turned.dispatcher,
    turned.notices]
  exact List.Subset.refl _

theorem Quiet.of_staged (quiet : engine.Quiet) {execution : Execution} {stage : ExecutionStage}
    (staged : Staged engine after execution stage) (owed : after.owed = engine.owed) :
    after.Quiet :=
  quiet.of_same owed (staged.tickNotices ▸ List.Subset.refl _)

/-- A call commits no settlement that its caller would tell. -/
theorem Quiet.owing (quiet : engine.Quiet) {database : Database Business} {notices : List Notice}
    (silent : ∀ notice ∈ notices, notice.isSettlement = false) :
    ({ engine with database := database, owed := engine.owed ++ [notices] } :
      Engine Business).Quiet where
  owed := fun others member => by
    rcases List.mem_append.mp member with old | new
    · exact quiet.owed others old
    · rw [List.mem_singleton.mp new]
      exact silent
  ticked := quiet.ticked

theorem Quiet.transact {Value : Type} (quiet : engine.Quiet)
    (program : Program Business EngineError Value) (now : Instant) :
    (engine.transact program now).2.Quiet := by
  rcases engine.transact_cases program now with
    ⟨_, same, _⟩ | ⟨_, ⟨_, _, _, _, committed⟩ | ⟨_, _, lapsed⟩⟩
  · rw [same]
    exact quiet
  · rw [committed]
    exact quiet.owing (by simp [Notice.isSettlement])
  · rw [lapsed]
    exact quiet.of_same rfl (List.Subset.refl _)

theorem Quiet.cancel (quiet : engine.Quiet) (id : Int) : (engine.cancel id).2.Quiet := by
  simp only [Engine.cancel, execute]
  split
  · exact quiet
  · cases engine.database.jobs.cancel id with
    | mk answer jobs =>
        cases answer with
        | error error => exact quiet.of_same rfl (List.Subset.refl _)
        | ok jobType? => cases jobType? <;> exact quiet.owing (by simp [Notice.isSettlement])

theorem Quiet.requeue (quiet : engine.Quiet) (id : Int) (now : Instant) :
    (engine.requeue id now).2.Quiet := by
  unfold Engine.requeue
  split
  · exact quiet
  · cases engine.database.jobs.requeue id now with
    | mk answer jobs =>
        cases answer with
        | error error => exact quiet
        | ok rescheduled => cases rescheduled <;> exact quiet.owing (by simp [Notice.isSettlement])

theorem tickNotices_tell (engine : Engine Business) (notice : Notice) (now : Instant) :
    (engine.tell notice now).tickNotices = engine.tickNotices := by
  simp only [tickNotices, (sameWork_tell engine notice now).dispatcher]

theorem Quiet.tell (quiet : engine.Quiet) (notice : Notice) (now : Instant) :
    (engine.tell notice now).Quiet := by
  refine quiet.of_same (owed_tell engine notice now) ?_
  rw [tickNotices_tell]
  exact List.Subset.refl _

theorem Quiet.announce (quiet : engine.Quiet) {place : Nat} {now : Instant}
    (taken : engine.announce place now = some after) : after.Quiet := by
  obtain ⟨_, rfl⟩ | ⟨notice, rest, speaking, rfl⟩ := announce_cases taken
  · exact ⟨fun notices member => quiet.owed notices (List.mem_of_mem_eraseIdx member), quiet.ticked⟩
  · refine Quiet.tell ?_ notice now
    refine ⟨fun notices member => ?_, quiet.ticked⟩
    rcases List.mem_or_eq_of_mem_set member with old | rfl
    · exact quiet.owed notices old
    · intro other isRest
      exact quiet.owed _ (List.mem_of_getElem? speaking) other (List.mem_cons_of_mem _ isRest)

theorem Quiet.start (quiet : engine.Quiet) : engine.start.2.Quiet := by
  rcases engine.start_cases with same | ⟨_, marked | ⟨free, started⟩⟩
  · rw [same]
    exact quiet
  · rw [marked]
    exact quiet.of_same rfl (List.Subset.refl _)
  · rw [started]
    exact quiet.of_same rfl (List.nil_subset _)

theorem Quiet.decide (quiet : engine.Quiet) (covers : engine.registry.Covers engine.database.jobs)
    {now : Instant} (taken : engine.decide now = some after) : after.Quiet := by
  obtain ⟨dispatcher, lanes, _, _, ⟨_, phase, goesOn, rfl⟩ | ⟨tick, jobs, _, answer, rfl⟩⟩ :=
    decide_ticks taken
  · refine quiet.of_same rfl ?_
    rcases goesOn with rfl | rfl
    · exact List.nil_subset _
    · exact List.nil_subset _
  · refine quiet.of_same rfl ?_
    rw [covers.unknown_of_tick answer]
    exact List.nil_subset _

theorem Quiet.launch (quiet : engine.Quiet) {now : Instant}
    (taken : engine.launch now = some after) : after.Quiet := by
  obtain ⟨dispatcher, found, told | dropped | launched | ended⟩ := launch_cases taken
  · obtain ⟨notice, notices, claimed, tick, isLaunching, rfl⟩ := told
    refine Quiet.tell ?_ notice now
    refine quiet.of_same rfl ?_
    rw [tickNotices_of_dispatcher found, isLaunching]
    exact List.subset_cons_self notice notices
  · obtain ⟨record, claimed, tick, _, _, rfl⟩ := dropped
    exact quiet.of_same rfl (List.nil_subset _)
  · obtain ⟨record, claimed, tick, kind, stage, free, _, _, _, _, rfl⟩ := launched
    exact quiet.of_same rfl (List.nil_subset _)
  · obtain ⟨tick, _, rfl⟩ := ended
    exact quiet.of_same rfl (List.nil_subset _)

/-- If all types are registered, no move leaves a settlement to anyone but an execution. -/
theorem Quiet.step (quiet : engine.Quiet) (covers : engine.registry.Covers engine.database.jobs)
    (taken : engine.step move = some after) : after.Quiet := by
  cases move with
  | transact program now => exact Option.some.inj taken ▸ quiet.transact program now
  | enqueue job now => exact Option.some.inj taken ▸ quiet.transact _ now
  | enqueueAll jobs correlation now => exact Option.some.inj taken ▸ quiet.transact _ now
  | cancel id => exact Option.some.inj taken ▸ quiet.cancel id
  | requeue id now => exact Option.some.inj taken ▸ quiet.requeue id now
  | announce place now => exact quiet.announce taken
  | start => exact Option.some.inj taken ▸ quiet.start
  | requestStop => exact quiet.of_turned (requestStop_turned taken)
  | recover draw now =>
      obtain ⟨dispatcher, jobs, _, _, _, rfl⟩ := recover_cases taken
      exact quiet.of_same rfl (List.nil_subset _)
  | count => exact quiet.of_turned (count_turned taken)
  | scan now later => exact quiet.of_turned (scan_turned taken)
  | decide now => exact quiet.decide covers taken
  | launch now => exact quiet.launch taken
  | rest now => exact quiet.of_turned (rest_turned taken)
  | wake waking => exact quiet.of_turned (wake_turned taken)
  | finish =>
      obtain ⟨_, _, _, _, rfl⟩ := finish_cases taken
      exact quiet.of_same rfl (List.nil_subset _)
  | runQueued executor draw now =>
      obtain ⟨execution, notices?, database, next, _, rfl⟩ := runQueued_cases taken
      have leaves : (stageAfter notices?).isQueued = false := isQueued_stageAfter _
      exact quiet.of_staged (staged_setStage (mem_of_nextQueued? next).1 leaves
        (sameWork_committed engine database engine.owed)) rfl
  | acquire ticket =>
      obtain ⟨execution, left, found, _, rfl⟩ := acquire_cases taken
      obtain ⟨member, rfl⟩ := mem_of_execution? found
      exact quiet.of_staged (staged_setFree member rfl _) rfl
  | giveBack ticket result =>
      obtain ⟨execution, found, _, rfl⟩ := return?_cases taken
      obtain ⟨member, rfl⟩ := mem_of_execution? found
      exact quiet.of_staged (staged_setFree member rfl _) rfl
  | settle ticket draw now =>
      obtain ⟨execution, result, found, _, ended⟩ := settle_cases taken
      obtain ⟨member, rfl⟩ := mem_of_execution? found
      rcases ended with ⟨_, rfl⟩ | ⟨_, _, rfl⟩ | ⟨settlement, jobs, _, _, rfl⟩
      · exact quiet.of_staged (staged_setStage member rfl (.refl engine)) rfl
      · exact quiet.of_staged (staged_setStage member rfl (.refl engine)) rfl
      · exact quiet.of_staged
          (staged_setStage member rfl (sameWork_committed engine _ engine.owed)) rfl
  | report ticket now =>
      obtain ⟨execution, found, told⟩ := report_cases taken
      obtain ⟨member, rfl⟩ := mem_of_execution? found
      rcases told with ⟨_, rfl⟩ | ⟨notice, rest, _, rfl⟩
      · exact quiet.of_staged (staged_setStage member rfl (.refl engine)) rfl
      · refine Quiet.tell ?_ notice now
        exact quiet.of_staged (staged_setStage member rfl (.refl engine)) rfl
  | stopWriter =>
      obtain rfl := Option.some.inj taken
      refine quiet.of_same rfl ?_
      cases found : engine.dispatcher <;> simp [tickNotices, stopWriter, found]

/-! ### One move -/

theorem Evens.of_eq (same : after.unsettled = engine.unsettled) : Evens engine after [] [] [] :=
  same

theorem Evens.of_told {notice : Notice} (same : after.unsettled = engine.unsettled)
    (silent : notice.isSettlement = false) : Evens engine after [notice] [] [] := by
  simp [Evens, same, silent]

theorem Evens.of_turned (turns : ∃ before later, Turned engine after before later) :
    Evens engine after [] [] [] := by
  obtain ⟨before, later, turned⟩ := turns
  exact .of_eq turned.toRedirected.unsettled

/-- An execution goes on without being settled. -/
theorem Evens.of_owning {execution : Execution} {stage : ExecutionStage}
    (staged : Staged engine after execution stage) (sound : engine.Sound)
    (owning : execution.stage.isOwning = true) (stays : stage.isOwning = true) :
    Evens engine after [] [] [] := by
  have moved := staged.unsettled sound
  rw [ExecutionStage.unsettled_of_isOwning owning, ExecutionStage.unsettled_of_isOwning stays]
    at moved
  exact .of_eq (by omega)

/-- An execution is settled, which it is to tell, or its record is forfeited. -/
theorem Evens.of_settled {execution : Execution} {stage : ExecutionStage} {notices : List Notice}
    {forfeited : List Record} (staged : Staged engine after execution stage) (sound : engine.Sound)
    (owning : execution.stage.isOwning = true)
    (isNotices : stage.unsettled = notices.countP Notice.isSettlement)
    (one : notices.countP Notice.isSettlement + forfeited.length = 1) :
    Evens engine after [] forfeited [] := by
  have moved := staged.unsettled sound
  rw [ExecutionStage.unsettled_of_isOwning owning, isNotices] at moved
  simp only [Evens, List.countP_nil, List.length_nil]
  omega

theorem announce_evens (quiet : engine.Quiet) {place : Nat} {now : Instant}
    (taken : engine.announce place now = some after) :
    Evens engine after (engine.said (.announce place now)) [] [] := by
  have same := unsettled_of_dispatcher (announce_sameWork taken).1.dispatcher
  obtain ⟨silent, _⟩ | ⟨notice, rest, speaking, _⟩ := announce_cases taken
  · simp only [said, utterances, silent]
    exact .of_eq same
  · simp only [said, utterances, speaking]
    exact .of_told same
      (quiet.owed _ (List.mem_of_getElem? speaking) notice List.mem_cons_self)

theorem Sound.start_evens (sound : engine.Sound) : Evens engine engine.start.2 [] [] [] := by
  rcases engine.start_cases with same | ⟨idle, marked | ⟨free, started⟩⟩
  · exact .of_eq (by rw [same])
  · exact .of_eq (by rw [marked]; rfl)
  · have unstarted := sound.dispatcher_eq_none idle
    rw [started]
    exact .of_eq (by simp [unsettled, executions, unstarted])

theorem launch_evens (quiet : engine.Quiet) {now : Instant}
    (taken : engine.launch now = some after) :
    Evens engine after (engine.said (.launch now)) (engine.forfeited (.launch now))
      (engine.starts (.launch now)) := by
  obtain ⟨dispatcher, found, told | dropped | launched | ended⟩ := launch_steps taken
  · obtain ⟨notice, notices, claimed, tick, isLaunching, rfl⟩ := told
    have ticked : notice ∈ engine.tickNotices := by
      rw [tickNotices_of_dispatcher found, isLaunching]
      exact List.mem_cons_self
    simp only [said, starts, utterances, forfeited, found, Option.map_some, isLaunching]
    refine .of_told ?_ (quiet.ticked notice ticked)
    rw [unsettled_of_dispatcher (sameWork_tell _ notice now).dispatcher, unsettled_enterPhase found]
  · obtain ⟨record, claimed, tick, isLaunching, unknown, rfl⟩ := dropped
    simp only [said, starts, utterances, forfeited, found, Option.map_some, isLaunching, unknown,
      Registry.isRegistered]
    exact .of_eq (unsettled_enterPhase found _)
  · obtain ⟨record, claimed, tick, kind, stage, later, isLaunching, isKind, reserved, rfl⟩ :=
      launched
    obtain ⟨_, free, isReserved, owning, _⟩ := reserve_cases dispatcher kind
    obtain ⟨rfl, rfl⟩ := Prod.mk.inj (isReserved.symm.trans reserved)
    simp only [said, starts, utterances, forfeited, found, Option.map_some, isLaunching, isKind,
      Registry.isRegistered, Option.isSome_some, if_true, Option.some.injEq]
    simp only [Evens, unsettled, executions, found, List.map_append, List.map_cons, List.map_nil,
      List.sum_append, List.sum_cons, List.sum_nil]
    split
    · simp [ExecutionStage.unsettled, Utterance.notice?, Utterance.started?]
    · simp [ExecutionStage.unsettled_of_isOwning owning, Utterance.notice?, Utterance.started?]
  · obtain ⟨tick, isLaunching, rfl⟩ := ended
    simp only [said, starts, utterances, forfeited, found, Option.map_some, isLaunching]
    exact .of_eq (unsettled_enterPhase found _)

theorem finish_evens (taken : engine.finish = some after) : Evens engine after [] [] [] := by
  obtain ⟨dispatcher, found, _, ended, rfl⟩ := finish_cases taken
  refine .of_eq ?_
  rw [unsettled, unsettled, executions_of_dispatcher found, ← sum_unsettled_reap, ended]
  rfl

/-- What an execution commits has at most one settlement. -/
theorem countP_runTransactional (database : Database Business) (registry : Registry)
    (policy : RetryPolicy) (record : Record)
    (program : Program Business JobError TransactionalOutcome) (draw : Nat) (now : Instant) :
    ((runTransactional database registry policy record program draw now).1.getD []).countP
        Notice.isSettlement =
      (((runTransactional database registry policy record program draw now).1.getD []).any
        Notice.isSettlement).toNat := by
  obtain ⟨notices?, after, ran, concluded⟩ :=
    runTransactional_concluded database registry policy record program draw now
  rw [ran]
  cases concluded with
  | @done _ settlement => cases settlement <;> rfl
  | @failed _ settlement => cases settlement <;> rfl
  | _ => rfl

/-- With at most one settlement among its notices, an execution is settled or forfeited. -/
theorem countP_add_length_eq_one {notices : List Notice} (record : Record)
    (atMostOne : notices.countP Notice.isSettlement = (notices.any Notice.isSettlement).toNat) :
    notices.countP Notice.isSettlement +
      (if notices.any Notice.isSettlement then [] else [record]).length = 1 := by
  rw [atMostOne]
  cases notices.any Notice.isSettlement <;> rfl

theorem Sound.runQueued_evens (sound : engine.Sound)
    {executor : Record → Program Business JobError TransactionalOutcome} {draw : Nat}
    {now : Instant} (taken : engine.runQueued executor draw now = some after) :
    Evens engine after [] (engine.forfeited (.runQueued executor draw now)) [] := by
  obtain ⟨execution, notices?, database, next, ran, rfl⟩ := runQueued_cases taken
  obtain ⟨member, queued⟩ := mem_of_nextQueued? next
  have leaves : (stageAfter notices?).isQueued = false := isQueued_stageAfter _
  have isNotices : engine.notices (.runQueued executor draw now) = notices?.getD [] := by
    simp [notices, next, ran]
  have atMostOne := countP_runTransactional engine.database engine.registry engine.config.retry
    execution.record (executor execution.record) draw now
  rw [ran] at atMostOne
  simp only [forfeited, isNotices, next, Option.map_some, Option.toList_some]
  refine .of_settled (staged_setStage member leaves (sameWork_committed engine database engine.owed))
    sound (by rw [queued]; rfl) ?_ (countP_add_length_eq_one execution.record atMostOne)
  cases notices? <;> rfl

theorem Sound.settle_evens (sound : engine.Sound) {ticket draw : Nat} {now : Instant}
    (taken : engine.settle ticket draw now = some after) :
    Evens engine after [] (engine.forfeited (.settle ticket draw now)) [] := by
  obtain ⟨execution, result, found, returned, ended⟩ := settle_cases taken
  have settles := settlement?_of_returned found returned draw now
  have owning : execution.stage.isOwning = true := by
    rw [returned]
    rfl
  obtain ⟨member, rfl⟩ := mem_of_execution? found
  simp only [forfeited, found, Option.map_some, Option.toList_some]
  rcases ended with
    ⟨stopped, rfl⟩ | ⟨goesOn, ⟨error, refused⟩, rfl⟩ | ⟨settlement, jobs, goesOn, answer, rfl⟩
  · have none : engine.notices (.settle execution.ticket draw now) = [] := by
      simp [notices, settles, stopped]
    rw [none]
    refine .of_settled (staged_setStage member rfl (.refl engine)) sound owning ?_
      (countP_add_length_eq_one execution.record rfl)
    rfl
  · have none : engine.notices (.settle execution.ticket draw now) = [] := by
      simp [notices, settles, goesOn, refused]
    rw [none]
    refine .of_settled (staged_setStage member rfl (.refl engine)) sound owning ?_
      (countP_add_length_eq_one execution.record rfl)
    rfl
  · have one : engine.notices (.settle execution.ticket draw now) =
        [.settled execution.record settlement] := by
      simp [notices, settles, goesOn, answer]
    rw [one]
    refine .of_settled (staged_setStage member rfl (sameWork_committed engine _ engine.owed)) sound
      owning rfl (countP_add_length_eq_one execution.record ?_)
    cases settlement <;> rfl

theorem Sound.report_evens (sound : engine.Sound) {ticket : Nat} {now : Instant}
    (taken : engine.report ticket now = some after) :
    Evens engine after (engine.said (.report ticket now)) [] [] := by
  obtain ⟨execution, found, told⟩ := report_cases taken
  obtain ⟨member, rfl⟩ := mem_of_execution? found
  rcases told with ⟨silent, rfl⟩ | ⟨notice, rest, speaking, rfl⟩
  · have staged := staged_setStage member
      (rfl : ExecutionStage.ended.isQueued = false) (.refl engine)
    have moved := staged.unsettled sound
    rw [silent] at moved
    simp only [said, utterances, found, Option.map_some, silent]
    exact .of_eq moved
  · have staged := staged_setStage member
      (rfl : (ExecutionStage.reporting rest).isQueued = false) (.refl engine)
    have moved := staged.unsettled sound
    rw [speaking, ← unsettled_of_dispatcher (sameWork_tell _ notice now).dispatcher] at moved
    simp only [ExecutionStage.unsettled, List.countP_cons] at moved
    simp only [Evens, said, utterances, found, Option.map_some, speaking, List.filterMap_cons,
      Utterance.notice?, List.filterMap_nil, List.countP_cons, List.countP_nil, List.length_nil]
    omega

theorem stopWriter_evens (engine : Engine Business) :
    Evens engine engine.stopWriter [] (engine.forfeited .stopWriter) [] := by
  simp only [Evens, unsettled, executions_stopWriter, forfeited, List.countP_nil, List.length_nil,
    List.length_map, ← List.countP_eq_length_filter, Nat.add_zero]
  induction engine.executions with
  | nil => rfl
  | cons execution rest ih =>
      simp only [List.map_cons, List.sum_cons, List.countP_cons]
      obtain ⟨ticket, record, kind, stage⟩ := execution
      cases stage with
      | queued =>
          change 0 + _ + (_ + 1) = 1 + _
          omega
      | _ =>
          change _ + _ + (_ + 0) = _ + _
          rw [← ih, Nat.add_zero, Nat.add_assoc]

/-- What is in flight changes by what is started, told to be settled and forfeited. -/
theorem Sound.evens (sound : engine.Sound) (quiet : engine.Quiet)
    (taken : engine.step move = some after) :
    Evens engine after (engine.said move) (engine.forfeited move) (engine.starts move) := by
  have calls : Called engine after → Evens engine after [] [] [] :=
    fun called => .of_eq (unsettled_of_dispatcher called.dispatcher)
  cases move with
  | transact program now => exact calls (called_of_step rfl taken)
  | enqueue job now => exact calls (called_of_step rfl taken)
  | enqueueAll jobs correlation now => exact calls (called_of_step rfl taken)
  | cancel id => exact calls (called_of_step rfl taken)
  | requeue id now => exact calls (called_of_step rfl taken)
  | announce place now =>
      have none : engine.starts (.announce place now) = [] := by
        simp only [starts, utterances]
        split <;> rfl
      rw [none]
      exact announce_evens quiet taken
  | start => exact Option.some.inj taken ▸ sound.start_evens
  | requestStop => exact .of_turned (requestStop_turned taken)
  | recover draw now =>
      obtain ⟨dispatcher, jobs, found, _, _, rfl⟩ := recover_cases taken
      exact .of_eq (unsettled_enterPhase found .counting)
  | count => exact .of_turned (count_turned taken)
  | scan now later => exact .of_turned (scan_turned taken)
  | decide now =>
      obtain ⟨dispatcher, lanes, found, _, ⟨_, phase, _, rfl⟩ | ⟨tick, jobs, _, _, rfl⟩⟩ :=
        decide_ticks taken
      · exact .of_eq (unsettled_enterPhase found phase)
      · exact .of_eq (unsettled_enterPhase found (.launching _ tick.claimed tick))
  | launch now => exact launch_evens quiet taken
  | rest now => exact .of_turned (rest_turned taken)
  | wake waking => exact .of_turned (wake_turned taken)
  | finish => exact finish_evens taken
  | runQueued executor draw now => exact sound.runQueued_evens taken
  | acquire ticket =>
      obtain ⟨execution, left, found, waiting, rfl⟩ := acquire_cases taken
      obtain ⟨member, rfl⟩ := mem_of_execution? found
      exact .of_owning (staged_setFree member rfl _) sound (by rw [waiting]; rfl) rfl
  | giveBack ticket result =>
      obtain ⟨execution, found, running, rfl⟩ := return?_cases taken
      obtain ⟨member, rfl⟩ := mem_of_execution? found
      exact .of_owning (staged_setFree member rfl _) sound (by rw [running]; rfl) rfl
  | settle ticket draw now => exact sound.settle_evens taken
  | report ticket now =>
      have none : engine.starts (.report ticket now) = [] := by
        simp only [starts, utterances]
        split <;> rfl
      rw [none]
      exact sound.report_evens taken
  | stopWriter => exact Option.some.inj taken ▸ engine.stopWriter_evens

/-! ### Runs -/

theorem Covered.tail {rest : List (Move Business)} (covered : engine.Covered (move :: rest))
    (taken : engine.step move = some after) : after.Covered rest := by
  intro earlier middle isPrefix ran
  refine covered (move :: earlier) middle ?_ ?_
  · exact (List.cons_prefix_cons).mpr ⟨rfl, isPrefix⟩
  · rw [run?, taken, Option.bind_some, ran]

/-- Each execution that was started is in flight, was told to be settled, or is forfeited. -/
theorem Sound.evens_run {moves : List (Move Business)} (sound : engine.Sound)
    (quiet : engine.Quiet) (covered : engine.Covered moves) (ran : engine.run? moves = some after) :
    Evens engine after (engine.told moves) (engine.forfeits moves) (engine.gather starts moves) := by
  induction moves generalizing engine with
  | nil =>
      obtain rfl := Option.some.inj ran
      exact .of_eq rfl
  | cons move rest ih =>
      obtain ⟨middle, taken, isRest⟩ := Option.bind_eq_some_iff.mp ran
      have step := sound.evens quiet taken
      have covers := covered [] engine List.nil_prefix rfl
      have later := ih ((step_shift taken).sound sound) (quiet.step covers taken)
        (covered.tail taken) isRest
      rw [told_cons taken, forfeits, gather_cons forfeited taken, gather_cons starts taken]
      simp only [Evens, forfeits, List.countP_append, List.length_append] at step later ⊢
      omega

theorem gather_starts (engine : Engine Business) (moves : List (Move Business)) :
    engine.gather starts moves = (engine.log moves).filterMap Utterance.started? := by
  induction moves generalizing engine with
  | nil => rfl
  | cons move rest ih =>
      rw [log, gather, List.filterMap_append]
      cases engine.step move with
      | none => rfl
      | some after => exact congrArg _ (ih after)

/-! ### Settlements that fail -/

/-- While the programs leave the job table alone, a settlement that is not hushed up is committed and
finds its record. -/
theorem Kept.settles_notices {record : Record} {result : Except JobError Outcome}
    (kept : engine.Kept) (leavesJobs : move.LeavesJobs) (taken : engine.step move = some after)
    (settles : engine.settlement? move = some (record, result)) (loud : engine.hushed move = []) :
    (engine.notices move).any Notice.isSettlement = true := by
  cases kept.work leavesJobs taken with
  | idle _ _ _ none => cases none.symm.trans settles
  | enqueued _ none => cases none.symm.trans settles
  | canceled isMove => rw [isMove] at settles; cases settles
  | requeued isMove => rw [isMove] at settles; cases settles
  | recovered isMove => rw [isMove] at settles; cases settles
  | ticked _ isMove => rw [isMove] at settles; cases settles
  | @settled told other _ settlement middle draw now notices _ _ _ _ member renewed answer =>
      obtain ⟨row, found, isRunning, _⟩ := kept.owned.running other member
      -- What the program has enqueued stands in pending rows, and this one is running.
      have unchanged := renewed.unchanged other.id fun listed => by
        cases isRunning.symm.trans (renewed.resting other.id listed row found)
      have consistent := renewed.reaches.consistent kept.owned.consistent
      obtain ⟨_, answered, isFound⟩ := consistent.settle_of_found other _ engine.config.retry draw
        now (unchanged.trans found)
      rw [answer] at answered
      obtain rfl := Except.ok.inj answered
      have isSettlement : (Notice.settled other settlement).isSettlement = true := by
        cases settlement with
        | missing => exact absurd rfl isFound
        | _ => rfl
      rcases notices with ⟨notices, _⟩ | ⟨_, _, hushed⟩
      · rw [notices, List.any_append, List.any_cons, isSettlement, Bool.true_or, Bool.or_true]
      · cases loud.symm.trans hushed

theorem Sound.running_of_step (sound : engine.Sound) (taken : engine.step move = some after)
    (running : after.isWriterStopped = false) : engine.isWriterStopped = false := by
  cases stopped : engine.isWriterStopped with
  | false => rfl
  | true => cases running.symm.trans (sound.step_of_stopped stopped taken).1

theorem Sound.running_of_run {moves : List (Move Business)} (sound : engine.Sound)
    (ran : engine.run? moves = some after) (running : after.isWriterStopped = false) :
    engine.isWriterStopped = false := by
  induction moves generalizing engine with
  | nil => exact Option.some.inj ran ▸ running
  | cons move rest ih =>
      obtain ⟨middle, taken, isRest⟩ := Option.bind_eq_some_iff.mp ran
      exact sound.running_of_step taken (ih ((step_shift taken).sound sound) isRest)

/-- A unit that can be committed as a whole settles its record and tells of it. -/
theorem settles_of_whole {execution : Execution}
    {executor : Record → Program Business JobError TransactionalOutcome} (draw : Nat) {now : Instant}
    (next : engine.nextQueued? = some execution)
    (whole : ¬ engine.CutsOff execution.record (.runQueued executor draw now)) :
    (∃ pair, engine.settlement? (.runQueued executor draw now) = some pair) ∧
      engine.hushed (.runQueued executor draw now) = [] := by
  obtain ⟨stays, accepted⟩ := not_or.mp whole
  have stays := not_not.mp stays
  constructor
  · cases ending : ((executor execution.record).run
        (Transaction.begin engine.registry now engine.database)).1 with
    | done result =>
        have free : (engine.database.replay now
              (engine.lasting (executor execution.record) now)).refusal? engine.database.business
            (engine.database.replay now
              (engine.lasting (executor execution.record) now)).business = none := by
          refine Option.eq_none_iff_forall_ne_some.mpr fun refusal refused => ?_
          exact accepted ⟨⟨result, ending⟩, _, refusal, rfl, refused⟩
        simp [settlement?, next, settledBy_of_accepted ending stays free]
    | failed error => simp [settlement?, next, settledBy, ending, stays]
    | broken breakdown => simp [settlement?, next, settledBy, ending, stays]
  · simp only [hushed, next, stays]
    split <;> simp_all

theorem Kept.forfeited_eq_nil (kept : engine.Kept) (leavesJobs : move.LeavesJobs)
    (taken : engine.step move = some after) (running : after.isWriterStopped = false)
    (whole : ∀ record, ¬ engine.CutsOff record move) : engine.forfeited move = [] := by
  have goesOn := kept.sound.running_of_step taken running
  cases move with
  | launch now =>
      simp only [forfeited, goesOn]
      split <;> simp
  | runQueued executor draw now =>
      obtain ⟨execution, notices?, database, next, _, _⟩ := runQueued_cases taken
      obtain ⟨⟨_, isSettlement⟩, loud⟩ :=
        settles_of_whole draw next (whole execution.record)
      rw [forfeited, if_pos (kept.settles_notices leavesJobs taken isSettlement loud)]
  | settle ticket draw now =>
      obtain ⟨execution, result, found, returned, _⟩ := settle_cases taken
      have isSettlement := settlement?_of_returned found returned draw now
      rw [goesOn, if_neg Bool.false_ne_true] at isSettlement
      rw [forfeited, if_pos (kept.settles_notices leavesJobs taken isSettlement rfl)]
  | stopWriter =>
      obtain rfl := Option.some.inj taken
      cases running
  | _ => rfl

/-- As long as the writer runs, the programs leave the job table alone and no unit is cut off, no
settlement fails. -/
theorem Kept.forfeits_eq_nil {moves : List (Move Business)} (kept : engine.Kept)
    (leaveJobs : ∀ move ∈ moves, move.LeavesJobs) (ran : engine.run? moves = some after)
    (running : after.isWriterStopped = false)
    (whole : ∀ earlier middle move, earlier ++ [move] <+: moves →
      engine.run? earlier = some middle → ∀ record, ¬ middle.CutsOff record move) :
    engine.forfeits moves = [] := by
  induction moves generalizing engine with
  | nil => rfl
  | cons move rest ih =>
      obtain ⟨middle, taken, isRest⟩ := Option.bind_eq_some_iff.mp ran
      have leavesJobs := leaveJobs move List.mem_cons_self
      have later := kept.step leavesJobs taken
      have goesOn := later.sound.running_of_run isRest running
      rw [forfeits, gather_cons forfeited taken, kept.forfeited_eq_nil leavesJobs taken goesOn
        (whole [] engine move (List.prefix_append [move] rest) rfl)]
      refine ih later (fun other member => leaveJobs other (List.mem_cons_of_mem _ member)) isRest ?_
      intro earlier reached other isPrefix came
      refine whole (move :: earlier) reached other (List.cons_prefix_cons.mpr ⟨rfl, isPrefix⟩) ?_
      rw [run?, taken, Option.bind_some, came]

/-- The counts, the events and the executions after some moves of an engine agree. -/
structure Agrees (engine : Engine Business) (moves : List (Move Business))
    (last : Engine Business) : Prop where
  tallies : last.telemetry.Tallies
  -- No counter of 64 bits overflows before so many events were published.
  fits : last.telemetry.events.length < 0x10000000000000000 →
    ∀ kind, last.telemetry.metrics.global.of kind < 0x10000000000000000
  -- If all types are registered, none is in flight and none has failed, all starts were settled.
  balance : engine.Covered moves → (∀ execution ∈ last.executions, execution.stage = .ended) →
    engine.forfeits moves = [] →
    last.telemetry.metrics.global.started =
      last.telemetry.metrics.global.completed + last.telemetry.metrics.global.retried +
        last.telemetry.metrics.global.failedAttempts +
        last.telemetry.metrics.global.deadLettered + last.telemetry.metrics.global.superseded

theorem unsettled_eq_zero (ended : ∀ execution ∈ engine.executions, execution.stage = .ended) :
    engine.unsettled = 0 := by
  refine List.sum_eq_zero_iff_forall_eq_nat.mpr fun count member => ?_
  obtain ⟨execution, isExecution, rfl⟩ := List.mem_map.mp member
  rw [ended execution isExecution]
  rfl

/-- With no execution left that is not reaped, all have ended. -/
theorem ended_of_reap {dispatcher : Dispatcher}
    (reaped : (Dispatcher.reap dispatcher).executions = []) :
    ∀ execution ∈ dispatcher.executions, execution.stage = .ended := by
  intro execution member
  cases stage : execution.stage with
  | ended => rfl
  | _ =>
      have kept : execution ∈ (Dispatcher.reap dispatcher).executions :=
        List.mem_filter.mpr ⟨member, by rw [stage]⟩
      rw [reaped] at kept
      cases kept

/-- In every run of an engine the counts agree with the events and with the executions. -/
theorem Fresh.counts_agree {moves : List (Move Business)} (fresh : first.Fresh)
    (uncounted : first.telemetry = Telemetry.empty) (ran : first.run? moves = some last) :
    Agrees first moves last := by
  have told := (run_told ran).telemetry
  have tallies : last.telemetry.Tallies := by
    rw [told, uncounted]
    exact Telemetry.tallies_empty.foldl _
  refine ⟨tallies, fun few kind => Nat.lt_of_le_of_lt (tallies.of_le kind) few,
    fun covered ended settled => ?_⟩
  have events : last.telemetry.events = (first.log moves).flatMap Utterance.events := by
    rw [told, Telemetry.events_foldl, uncounted]
    rfl
  obtain ⟨settlements, starts⟩ := countP_flatMap_events (first.log moves)
  have evens := fresh.sound.evens_run fresh.quiet covered ran
  have idle : first.unsettled = 0 := by simp [unsettled, executions, fresh.dispatcher]
  rw [Evens, unsettled_eq_zero ended, settled, idle, gather_starts, ← starts, Engine.told,
    ← settlements, ← events, ← tallies.settlements, ← tallies.events] at evens
  simp only [Counts.of, List.length_nil] at evens
  omega

end Balance

/-- A job fails once, is retried at once and completes. -/
def retriedMoves : List (Move Unit) :=
  firstMoves ++
    [.decide Instant.epoch, .launch Instant.epoch, .launch Instant.epoch,
      .giveBack 0 (.error (.failed "boom")), .settle 0 0 Instant.epoch, .report 0 Instant.epoch,
      .report 0 Instant.epoch, .rest Instant.epoch, .wake .time, .count,
      .scan Instant.epoch Instant.epoch, .decide Instant.epoch, .launch Instant.epoch,
      .giveBack 1 (.ok .success), .settle 1 0 Instant.epoch, .report 1 Instant.epoch,
      .report 1 Instant.epoch]

def retriedSample : Engine Unit :=
  { sample with
    registry := ⟨[("reindex", .normal)]⟩
    config := { EngineConfig.standard with retry := RetryPolicy.fixed Duration.zero } }

theorem covered_retriedMoves : retriedSample.Covered retriedMoves := by
  have covers : ((List.range (retriedMoves.length + 1)).all fun size =>
      (retriedSample.run? (retriedMoves.take size)).all fun middle =>
        Decidable.decide (middle.registry.Covers middle.database.jobs)) = true := by
    decide +kernel
  intro earlier middle isPrefix ran
  have sized : earlier.length < retriedMoves.length + 1 := Nat.lt_succ_of_le isPrefix.length_le
  have holds := List.all_eq_true.mp covers earlier.length (List.mem_range.mpr sized)
  rw [← List.prefix_iff_eq_take.mp isPrefix, ran] at holds
  exact of_decide_eq_true holds

theorem counts_agree_retried : ∃ (engine last : Engine Unit) (moves : List (Move Unit)),
    engine.Fresh ∧ engine.telemetry = Telemetry.empty ∧ engine.run? moves = some last ∧
      Agrees engine moves last ∧ engine.Covered moves ∧
      (∀ execution ∈ last.executions, execution.stage = .ended) ∧ engine.forfeits moves = [] ∧
      last.telemetry.metrics.global.started = 2 := by
  have fresh : retriedSample.Fresh := ⟨rfl, rfl, rfl⟩
  have counted : (retriedSample.run? retriedMoves).bind (fun last =>
      last.dispatcher.map fun dispatcher =>
        ((Dispatcher.reap dispatcher).executions.isEmpty, last.telemetry.metrics.global.started)) =
      some (true, 2) := by
    decide +kernel
  have settled : (retriedSample.forfeits retriedMoves).isEmpty = true := by decide +kernel
  obtain ⟨last, ran, isDispatching⟩ := Option.bind_eq_some_iff.mp counted
  obtain ⟨dispatcher, found, counts⟩ := Option.map_eq_some_iff.mp isDispatching
  obtain ⟨reaped, started⟩ := Prod.mk.inj counts
  refine ⟨retriedSample, last, retriedMoves, fresh, rfl, ran, fresh.counts_agree rfl ran,
    covered_retriedMoves, ?_, List.isEmpty_iff.mp settled, started⟩
  rw [executions_of_dispatcher found]
  exact ended_of_reap (List.isEmpty_iff.mp reaped)

end Engine

end DurableJobs
