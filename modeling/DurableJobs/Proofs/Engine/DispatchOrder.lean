import DurableJobs.Proofs.Engine.Announcements
import DurableJobs.Proofs.Engine.Regularity
import DurableJobs.Proofs.Engine.Urgency

/-!
The order in which transactional executions run.

What waits for the writer, and behind it what is still to be launched, is a queue: a tick puts what it
claims at the end, and an execution takes the front. So executions run in the order of their claims.
As a tick claims in the order of the ready records, the more urgent of two records runs first.
-/

set_option autoImplicit false

namespace DurableJobs.Engine

variable {Business : Type}

/-- The transactional records that a move claims. -/
def claims (engine : Engine Business) : Move Business → List Record
  | .decide now =>
      (engine.tick? now).elim [] fun tick => tick.claimed.filter engine.registry.isTransactional
  | _ => []

/-- The record whose transactional execution a move runs. -/
def executed (engine : Engine Business) : Move Business → List Record
  | .runQueued _ _ _ => engine.nextQueued?.toList.map Execution.record
  | _ => []

def queued (engine : Engine Business) : List Execution :=
  engine.executions.filter fun execution => execution.stage.isQueued

/-- The transactional records that were claimed and have not been executed, in order. -/
def queue (engine : Engine Business) : List Record :=
  engine.queued.map Execution.record ++ engine.launching.filter engine.registry.isTransactional

section Queue

variable {engine after : Engine Business}

theorem queued_of_dispatcher {dispatcher : Dispatcher}
    (found : engine.dispatcher = some dispatcher) :
    engine.queued = dispatcher.executions.filter fun execution => execution.stage.isQueued := by
  rw [queued, executions_of_dispatcher found]

theorem queue_of_idle (idle : engine.dispatcher = none) : engine.queue = [] := by
  simp [queue, queued, executions, launching, idle]

theorem head?_queued (engine : Engine Business) : engine.queued.head? = engine.nextQueued? := by
  cases found : engine.dispatcher with
  | none => simp [queued, executions, nextQueued?, found]
  | some dispatcher =>
      rw [queued_of_dispatcher found, List.head?_filter, nextQueued?, found, Option.bind_some]
      rfl

theorem queued_reap (dispatcher : Dispatcher) :
    ((Dispatcher.reap dispatcher).executions.filter fun execution => execution.stage.isQueued) =
      dispatcher.executions.filter fun execution => execution.stage.isQueued :=
  filter_reap dispatcher fun execution ended => by rw [ended]; rfl

theorem Redirected.queued {before later : Dispatcher}
    (redirected : Redirected engine after before later) : after.queued = engine.queued := by
  rw [queued_of_dispatcher redirected.found, queued_of_dispatcher redirected.dispatcher]
  rcases redirected.executions with same | reaped
  · rw [same]
  · rw [reaped, queued_reap]

theorem SameWork.queued (same : SameWork engine after) : after.queued = engine.queued := by
  rw [Engine.queued, Engine.queued, same.executions]

theorem SameWork.queue (same : SameWork engine after) : after.queue = engine.queue := by
  rw [Engine.queue, Engine.queue, same.queued, same.launching, same.registry]

theorem Turned.queue (turns : ∃ before later, Turned engine after before later) :
    after.queue = engine.queue := by
  obtain ⟨before, later, turned⟩ := turns
  rw [Engine.queue, Engine.queue, turned.toRedirected.queued, turned.registry,
    launching_of_dispatcher turned.found, launching_of_dispatcher turned.dispatcher, turned.claimed]

/-- An execution that does not wait for the writer goes on. -/
theorem Staged.queued {execution : Execution} {stage : ExecutionStage}
    (staged : Staged engine after execution stage) (sound : engine.Sound)
    (unqueued : execution.stage.isQueued = false) : after.queued = engine.queued := by
  obtain ⟨left, right, before, later⟩ := staged.split sound
  rw [Engine.queued, Engine.queued, before, later]
  simp [staged.leaves, unqueued]

theorem Staged.queue {execution : Execution} {stage : ExecutionStage}
    (staged : Staged engine after execution stage) (sound : engine.Sound)
    (unqueued : execution.stage.isQueued = false) : after.queue = engine.queue := by
  rw [Engine.queue, Engine.queue, staged.queued sound unqueued, staged.launching, staged.registry]

/-- The execution that runs is the one at the front of those that are queued. -/
theorem Staged.dequeued {execution : Execution} {stage : ExecutionStage}
    (staged : Staged engine after execution stage) (sound : engine.Sound)
    (next : engine.nextQueued? = some execution) : engine.queued = execution :: after.queued := by
  obtain ⟨left, right, before, later⟩ := staged.split sound
  have isQueued : execution.stage.isQueued = true := by
    rw [(mem_of_nextQueued? next).2]
    rfl
  have unqueued : left.filter (fun other => other.stage.isQueued) = [] := by
    have distinct := sound.distinct
    rw [before, List.map_append, List.map_cons, List.nodup_middle, List.nodup_cons,
      ← List.map_append] at distinct
    have first := head?_queued engine
    rw [next, Engine.queued, before, List.filter_append] at first
    cases isLeft : left.filter (fun other => other.stage.isQueued) with
    | nil => rfl
    | cons other others =>
        rw [isLeft] at first
        obtain rfl := Option.some.inj first
        have member : other ∈ left := (List.mem_filter.mp (isLeft ▸ List.mem_cons_self)).1
        exact absurd (List.mem_map_of_mem (List.mem_append_left right member)) distinct.1
  rw [Engine.queued, Engine.queued, before, later, List.filter_append, List.filter_append, unqueued,
    List.nil_append, List.nil_append]
  simp [isQueued, staged.leaves]

theorem Staged.dequeue {execution : Execution} {stage : ExecutionStage}
    (staged : Staged engine after execution stage) (sound : engine.Sound)
    (next : engine.nextQueued? = some execution) :
    engine.queue = execution.record :: after.queue := by
  rw [Engine.queue, Engine.queue, staged.dequeued sound next, staged.launching, staged.registry,
    List.map_cons, List.cons_append]

theorem queue_of_dispatcher {dispatcher : Dispatcher} (found : engine.dispatcher = some dispatcher) :
    engine.queue =
      engine.queued.map Execution.record ++
        dispatcher.phase.claimed.filter engine.registry.isTransactional := by
  rw [queue, launching_of_dispatcher found]

theorem queue_enterPhase {dispatcher : Dispatcher} (found : engine.dispatcher = some dispatcher)
    (phase : DispatcherPhase) :
    (engine.enterPhase dispatcher phase).queue =
      engine.queued.map Execution.record ++
        phase.claimed.filter engine.registry.isTransactional := by
  rw [queued_of_dispatcher found]
  rfl

theorem decide_queue {now : Instant} (taken : engine.decide now = some after) :
    engine.queue ++ engine.claims (.decide now) = after.queue := by
  obtain ⟨dispatcher, lanes, found, deciding, ended⟩ := decide_ticks taken
  have queue := queue_of_dispatcher found
  simp only [deciding, DispatcherPhase.claimed, List.filter_nil, List.append_nil] at queue
  rcases ended with ⟨none, phase, quiet, rfl⟩ | ⟨tick, jobs, isTick, _, rfl⟩
  · rw [queue, queue_enterPhase found, claims, none]
    rcases quiet with rfl | rfl <;> rfl
  · rw [queue, claims, isTick, queued_of_dispatcher found]
    rfl

/-- Launching hands a record on within the queue. -/
theorem launch_queue {now : Instant} (taken : engine.launch now = some after)
    (goesOn : engine.isWriterStopped = false) : after.queue = engine.queue := by
  obtain ⟨dispatcher, found, told | dropped | launched | ended⟩ := launch_steps taken
  · obtain ⟨notice, notices, claimed, tick, isLaunching, rfl⟩ := told
    rw [(sameWork_tell _ notice now).queue, queue_enterPhase found, queue_of_dispatcher found,
      isLaunching]
    rfl
  · obtain ⟨record, claimed, tick, isLaunching, unknown, rfl⟩ := dropped
    have skipped : engine.registry.isTransactional record = false := by
      rw [Registry.isTransactional, unknown]
      rfl
    rw [queue_enterPhase found, queue_of_dispatcher found, isLaunching]
    simp [DispatcherPhase.claimed, skipped]
  · obtain ⟨record, claimed, tick, kind, stage, later, isLaunching, isKind, reserved, rfl⟩ := launched
    obtain ⟨reached, free, isReached, _, transactional⟩ := reserve_cases dispatcher kind
    obtain ⟨rfl, rfl⟩ := Prod.mk.inj (isReached.symm.trans reserved)
    rw [queue_of_dispatcher found, isLaunching, queued_of_dispatcher found]
    by_cases isTransactional : kind = .transactional
    · subst isTransactional
      obtain rfl : .queued = reached := congrArg Prod.fst isReached
      simp [queue, queued, executions, launching, DispatcherPhase.claimed, goesOn,
        Registry.isTransactional, isKind, ExecutionStage.isQueued]
    · have unqueued : reached.isQueued = false :=
        Bool.eq_false_iff.mpr fun queued => isTransactional (transactional queued)
      simp [queue, queued, executions, launching, DispatcherPhase.claimed, goesOn,
        Registry.isTransactional, isKind, isTransactional, unqueued]
  · obtain ⟨tick, isLaunching, rfl⟩ := ended
    rw [queue_enterPhase found, queue_of_dispatcher found, isLaunching]
    rfl

/-- A move puts what it claims at the end of the queue and takes what it executes from its front, as
long as the writer runs. -/
theorem Sound.queue_step {move : Move Business} (sound : engine.Sound)
    (taken : engine.step move = some after) (goesOn : after.isWriterStopped = false) :
    engine.queue ++ engine.claims move = engine.executed move ++ after.queue := by
  have still : engine.claims move = [] → engine.executed move = [] → after.queue = engine.queue →
      engine.queue ++ engine.claims move = engine.executed move ++ after.queue := by
    intro unclaimed unexecuted same
    rw [unclaimed, unexecuted, same, List.append_nil, List.nil_append]
  cases move with
  | transact program now => exact still rfl rfl (called_of_step rfl taken).queue
  | enqueue job now => exact still rfl rfl (called_of_step rfl taken).queue
  | enqueueAll jobs correlation now => exact still rfl rfl (called_of_step rfl taken).queue
  | cancel id => exact still rfl rfl (called_of_step rfl taken).queue
  | requeue id now => exact still rfl rfl (called_of_step rfl taken).queue
  | announce place now => exact still rfl rfl (announce_sameWork taken).1.queue
  | start =>
      obtain rfl := Option.some.inj taken
      rcases engine.start_cases with same | ⟨idle, marked | ⟨free, started⟩⟩
      · exact still rfl rfl (by rw [same])
      · exact still rfl rfl (by rw [marked]; rfl)
      · refine still rfl rfl ?_
        rw [started, queue_of_idle (sound.dispatcher_eq_none idle)]
        rfl
  | requestStop => exact still rfl rfl (Turned.queue (requestStop_turned taken))
  | recover draw now =>
      obtain ⟨dispatcher, _, found, recovering, _, rfl⟩ := recover_cases taken
      refine still rfl rfl ?_
      rw [queue_of_dispatcher found, recovering, queued_of_dispatcher found]
      rfl
  | count => exact still rfl rfl (Turned.queue (count_turned taken))
  | scan now later => exact still rfl rfl (Turned.queue (scan_turned taken))
  | decide now => exact decide_queue taken
  | launch now =>
      have running : engine.isWriterStopped = false :=
        Bool.eq_false_iff.mpr fun stopped =>
          absurd (sound.step_of_stopped stopped taken).1 (Bool.eq_false_iff.mp goesOn)
      exact still rfl rfl (launch_queue taken running)
  | rest now => exact still rfl rfl (Turned.queue (rest_turned taken))
  | wake waking => exact still rfl rfl (Turned.queue (wake_turned taken))
  | finish =>
      obtain ⟨dispatcher, found, draining, ended, rfl⟩ := finish_cases taken
      refine still rfl rfl ?_
      rw [queue_of_idle rfl, queue_of_dispatcher found, draining, queued_of_dispatcher found,
        ← queued_reap, ended]
      rfl
  | runQueued executor draw now =>
      obtain ⟨execution, notices, database, next, _, rfl⟩ := runQueued_cases taken
      obtain ⟨member, _⟩ := mem_of_nextQueued? next
      have leaves : (stageAfter notices).isQueued = false := isQueued_stageAfter _
      have staged := staged_setStage member leaves (sameWork_committed engine database engine.owed)
      have isExecuted : engine.executed (.runQueued executor draw now) = [execution.record] := by
        rw [executed, next]
        rfl
      rw [isExecuted, staged.dequeue sound next]
      exact List.append_nil _
  | acquire ticket =>
      obtain ⟨execution, left, found, waiting, rfl⟩ := acquire_cases taken
      obtain ⟨member, rfl⟩ := mem_of_execution? found
      exact still rfl rfl ((staged_setFree member rfl _).queue sound (by rw [waiting]; rfl))
  | giveBack ticket result =>
      obtain ⟨execution, found, running, rfl⟩ := return?_cases taken
      obtain ⟨member, rfl⟩ := mem_of_execution? found
      exact still rfl rfl ((staged_setFree member rfl _).queue sound (by rw [running]; rfl))
  | settle ticket draw now =>
      obtain ⟨execution, result, found, returned, ended⟩ := settle_cases taken
      obtain ⟨member, rfl⟩ := mem_of_execution? found
      have unqueued : execution.stage.isQueued = false := by
        rw [returned]
        rfl
      rcases ended with ⟨_, rfl⟩ | ⟨_, _, rfl⟩ | ⟨settlement, jobs, _, _, rfl⟩
      · exact still rfl rfl ((staged_setStage member rfl (.refl engine)).queue sound unqueued)
      · exact still rfl rfl ((staged_setStage member rfl (.refl engine)).queue sound unqueued)
      · exact still rfl rfl ((staged_setStage member rfl
          (sameWork_committed engine _ engine.owed)).queue sound unqueued)
  | report ticket now =>
      obtain ⟨execution, found, told⟩ := report_cases taken
      obtain ⟨member, rfl⟩ := mem_of_execution? found
      rcases told with ⟨silent, rfl⟩ | ⟨notice, rest, speaking, rfl⟩
      · exact still rfl rfl ((staged_setStage member rfl (.refl engine)).queue sound
          (by rw [silent]; rfl))
      · exact still rfl rfl (((staged_setStage member rfl (.refl engine)).sameWork
          (sameWork_tell _ notice now)).queue sound (by rw [speaking]; rfl))
  | stopWriter =>
      obtain rfl := Option.some.inj taken
      cases goesOn

/-- Once the writer is stopped, no transactional execution runs. -/
theorem Sound.executed_of_stopped {move : Move Business} (sound : engine.Sound)
    (taken : engine.step move = some after) (stopped : after.isWriterStopped = true) :
    engine.executed move = [] := by
  cases move with
  | runQueued executor draw now =>
      obtain ⟨execution, _, _, next, _, rfl⟩ := runQueued_cases taken
      obtain ⟨member, isQueued⟩ := mem_of_nextQueued? next
      have unqueued := sound.unqueued stopped execution member
      rw [isQueued] at unqueued
      cases unqueued
  | _ => rfl

/-! ### Runs -/

theorem Sound.gather_executed_of_stopped {moves : List (Move Business)} (sound : engine.Sound)
    (stopped : engine.isWriterStopped = true) (ran : engine.run? moves = some after) :
    engine.gather executed moves = [] := by
  induction moves generalizing engine with
  | nil => rfl
  | cons move rest ih =>
      obtain ⟨middle, taken, isRest⟩ := Option.bind_eq_some_iff.mp ran
      have stays := (sound.step_of_stopped stopped taken).1
      rw [gather_cons executed taken, sound.executed_of_stopped taken stays,
        ih ((step_shift taken).sound sound) stays isRest]
      rfl

/-- What runs is the front of what waits and of what comes to wait, in order. -/
theorem Sound.executed_prefix {moves : List (Move Business)} (sound : engine.Sound)
    (ran : engine.run? moves = some after) :
    engine.gather executed moves <+: engine.queue ++ engine.gather claims moves := by
  induction moves generalizing engine with
  | nil => exact List.nil_prefix
  | cons move rest ih =>
      obtain ⟨middle, taken, isRest⟩ := Option.bind_eq_some_iff.mp ran
      have middleSound := (step_shift taken).sound sound
      rw [gather_cons executed taken, gather_cons claims taken]
      by_cases stopped : middle.isWriterStopped = true
      · rw [sound.executed_of_stopped taken stopped,
          middleSound.gather_executed_of_stopped stopped isRest]
        exact List.nil_prefix
      · rw [← List.append_assoc, sound.queue_step taken (Bool.eq_false_iff.mpr stopped),
          List.append_assoc]
        exact (List.prefix_append_right_inj _).mpr (ih middleSound isRest)

theorem registry_of_run {moves : List (Move Business)} (ran : engine.run? moves = some after) :
    after.registry = engine.registry := by
  induction moves generalizing engine with
  | nil => rw [Option.some.inj ran]
  | cons move rest ih =>
      obtain ⟨middle, taken, isRest⟩ := Option.bind_eq_some_iff.mp ran
      exact (ih isRest).trans (settings_of_step taken).1

/-- A tick that the dispatcher makes in the course of some moves, on the engine that it sees. -/
structure TicksIn (first : Engine Business) (moves before : List (Move Business))
    (seen : Engine Business) (now : Instant) (tick : Tick) : Prop where
  moves : ∃ rest, moves = before ++ .decide now :: rest
  ran : first.run? before = some seen
  tick : seen.tick? now = some tick

/-- Both transactional records are ready, and the first one is to be started first. -/
structure Urges (seen : Engine Business) (now : Instant) (earlier later : Record) : Prop where
  earlierReady : seen.database.jobs.IsReady now [] earlier
  laterReady : seen.database.jobs.IsReady now [] later
  earlierKind : seen.registry.isTransactional earlier = true
  laterKind : seen.registry.isTransactional later = true
  precedes : earlier.Precedes later

structure DispatchedInOrder (first : Engine Business) (moves : List (Move Business)) : Prop where
  -- Whatever was done since the dispatcher looked, a tick claims only what is pending and due.
  due : ∀ before seen now tick, TicksIn first moves before seen now tick →
    ∀ record ∈ tick.claimed, seen.database.jobs.WasDue now record
  -- The executions that run are the first ones that were claimed, in the order of the claims.
  inOrder : first.gather executed moves <+: first.gather claims moves
  -- If the later record is claimed, so is the earlier one before it; and unless the later one has not
  -- been executed, the earlier one was, before it.
  urgentFirst : ∀ before seen now tick earlier later, TicksIn first moves before seen now tick →
    Urges seen now earlier later → later.id ∈ tick.claimed.map Record.id →
    ∃ left claim between other right, claim.id = earlier.id ∧ other.id = later.id ∧
      seen.claims (.decide now) = left ++ claim :: (between ++ other :: right) ∧
      (first.gather executed moves <+: first.gather claims before ++ (left ++ claim :: between) ∨
        first.gather claims before ++ (left ++ claim :: (between ++ [other])) <+:
          first.gather executed moves)

theorem exists_split_of_sublist {Item : Type} {items : List Item} {first second : Item}
    (sublist : [first, second].Sublist items) :
    ∃ left between right, items = left ++ first :: (between ++ second :: right) := by
  obtain ⟨front, back, rfl, firstMember, others⟩ := List.cons_sublist_iff.mp sublist
  obtain ⟨left, between, rfl⟩ := List.append_of_mem firstMember
  obtain ⟨before, right, rfl⟩ := List.append_of_mem (List.singleton_sublist.mp others)
  exact ⟨left, between ++ before, right, by simp⟩

/-- Of a list up to an item, a beginning of the same list stops before the item or covers it. -/
theorem prefix_or_covers {Item : Type} {items start all : List Item} {item : Item}
    (upTo : start ++ [item] <+: all) (front : items <+: all) :
    items <+: start ∨ start ++ [item] <+: items := by
  rcases List.prefix_or_prefix_of_prefix front upTo with short | long
  · rcases List.prefix_concat_iff.mp short with same | shorter
    · exact .inr (same ▸ List.prefix_refl _)
    · exact .inl shorter
  · exact .inr long

theorem TicksIn.claims_prefix {moves before : List (Move Business)} {seen : Engine Business}
    {now : Instant} {tick : Tick} (ticksIn : TicksIn engine moves before seen now tick) :
    engine.gather claims before ++ seen.claims (.decide now) <+: engine.gather claims moves := by
  obtain ⟨rest, rfl⟩ := ticksIn.moves
  rw [gather_append claims ticksIn.ran, gather, ← List.append_assoc]
  exact List.prefix_append _ _

theorem answer_of_tick? {now : Instant} {tick : Tick} (isTick : engine.tick? now = some tick) :
    ∃ lanes jobs, engine.database.jobs.tick engine.registry lanes engine.config.batchSize now =
      (.ok tick, jobs) := by
  unfold tick? at isTick
  split at isTick
  · next lanes _ =>
      split at isTick
      · cases isTick
      · cases answer : engine.database.jobs.tick engine.registry lanes engine.config.batchSize now with
        | mk result jobs =>
            rw [answer] at isTick
            cases result with
            | error error => cases isTick
            | ok other =>
                obtain rfl := Option.some.inj isTick
                exact ⟨lanes, jobs, answer⟩
  · cases isTick

/-- In every run a tick claims nothing before it is due, and the transactional executors run in the
order in which their records are to be started. -/
theorem Fresh.dispatchedInOrder (fresh : engine.Fresh) (ordered : engine.database.jobs.Ordered)
    (distinct : engine.registry.Distinct) {moves : List (Move Business)}
    (keepOrder : ∀ move ∈ moves, move.KeepsOrder) (ran : engine.run? moves = some after) :
    DispatchedInOrder engine moves := by
  have inOrder : engine.gather executed moves <+: engine.gather claims moves := by
    have front := fresh.sound.executed_prefix ran
    rwa [queue_of_idle fresh.dispatcher] at front
  have seenOrdered : ∀ {before seen now tick}, TicksIn engine moves before seen now tick →
      seen.database.jobs.Ordered := by
    intro before seen now tick ticksIn
    obtain ⟨rest, isMoves⟩ := ticksIn.moves
    have kept : ∀ move ∈ before, move.KeepsOrder := fun move member =>
      keepOrder move (isMoves ▸ List.mem_append_left _ member)
    exact ((Regular.fresh fresh ordered).run kept ticksIn.ran).ordered
  refine ⟨?_, inOrder, ?_⟩
  · intro before seen now tick ticksIn
    obtain ⟨lanes, jobs, answer⟩ := answer_of_tick? ticksIn.tick
    exact (seenOrdered ticksIn).due_of_tick answer
  · intro before seen now tick earlier later ticksIn urges isClaimed
    obtain ⟨lanes, jobs, answer⟩ := answer_of_tick? ticksIn.tick
    have seenDistinct : seen.registry.Distinct := registry_of_run ticksIn.ran ▸ distinct
    obtain ⟨claim, other, claimId, otherId, sublist⟩ :=
      (seenOrdered ticksIn).claimed_in_order seenDistinct answer urges.earlierReady urges.laterReady
        urges.earlierKind urges.laterKind urges.precedes isClaimed
    obtain ⟨left, between, right, isSplit⟩ := exists_split_of_sublist sublist
    have isClaims : seen.claims (.decide now) = left ++ claim :: (between ++ other :: right) := by
      rw [claims, ticksIn.tick]
      exact isSplit
    refine ⟨left, claim, between, other, right, claimId, otherId, isClaims, ?_⟩
    have upTo : (engine.gather claims before ++ (left ++ claim :: between)) ++ [other] <+:
        engine.gather claims moves := by
      refine List.IsPrefix.trans ⟨right, ?_⟩ ticksIn.claims_prefix
      rw [isClaims]
      simp
    simpa using prefix_or_covers upTo inOrder

end Queue

/-! ### Two jobs in one tick -/

def untouched : Engine Unit :=
  { sample with database := ⟨Store.Table.empty, (), fun _ _ => none⟩ }

/-- Two jobs, the later one of which is more urgent, and a dispatcher that is about to look. -/
def arrivals : List (Move Unit) :=
  let job : Job := Job.new "reindex" [118] Uuid.zero
  [.enqueue job Instant.epoch, .enqueue (job.withPriority .high) Instant.epoch, .start,
    .recover 0 Instant.epoch, .count]

def crowd : Engine Unit := (untouched.run? arrivals).getD untouched

def crowdLanes : Lanes := ⟨8, 2⟩

def crowdDispatcher : Dispatcher := ⟨.scanning crowdLanes, false, crowdLanes, []⟩

/-- The engine once its dispatcher has seen that there is something to do. -/
def lookedCrowd : Engine Unit := crowd.enterPhase crowdDispatcher (.deciding crowdLanes)

def crowdDispatch : List (Move Unit) :=
  let executor : Record → Program Unit JobError TransactionalOutcome :=
    fun _ => .done ⟨.success, .none⟩
  [.decide Instant.epoch, .launch Instant.epoch, .launch Instant.epoch, .launch Instant.epoch,
    .runQueued executor 0 Instant.epoch, .runQueued executor 0 Instant.epoch]

theorem run?_arrivals : untouched.run? arrivals = some crowd := by
  have ran : (untouched.run? arrivals).isSome = true := by decide +kernel
  obtain ⟨other, isOther⟩ := Option.isSome_iff_exists.mp ran
  rw [crowd, isOther, Option.getD_some]

theorem mergeSort_of_swapped {Item : Type} {isBefore : Item → Item → Bool} {first second : Item}
    (swapped : isBefore first second = false) :
    [first, second].mergeSort isBefore = [second, first] := by
  simp [List.mergeSort, swapped]

theorem admitted_crowd :
    crowd.database.jobs.admitted .pending = crowd.database.jobs.rows.reverse := by
  obtain ⟨earlier, later, isRows, swapped⟩ : ∃ earlier later,
      crowd.database.jobs.rows = [earlier, later] ∧
        Store.JobFilter.pending.isBefore earlier later = false := ⟨_, _, rfl, by decide +kernel⟩
  have pending : crowd.database.jobs.rows.filter Store.JobFilter.pending.admits =
      crowd.database.jobs.rows := by decide +kernel
  rw [Store.Table.admitted, pending, isRows]
  exact mergeSort_of_swapped swapped

theorem scan_crowd : crowd.run? [.scan Instant.epoch Instant.epoch] = some lookedCrowd := by
  have found : crowd.dispatcher = some crowdDispatcher := rfl
  have looked : crowd.database.jobs.scan crowd.registry crowdLanes crowd.config.batchSize
      Instant.epoch = .ok ⟨true, some Instant.epoch⟩ := by
    refine Store.ok_of_toOption ?_
    simp only [Store.Table.scan, Store.Table.ready, admitted_crowd]
    decide +kernel
  simp only [run?, step, scan, found, crowdDispatcher, looked]
  rfl

theorem admitted_lookedCrowd :
    lookedCrowd.database.jobs.admitted .pending = crowd.database.jobs.rows.reverse := admitted_crowd

/-- Of two jobs that one tick claims, the later one is more urgent and runs first. -/
theorem dispatchedInOrder_sample :
    ∃ (first last : Engine Unit) (moves : List (Move Unit)), first.run? moves = some last ∧
      (first.gather claims moves).map Record.id = [2, 1] ∧
      (first.gather executed moves).map Record.id = [2, 1] ∧ DispatchedInOrder first moves := by
  let before : List (Move Unit) := arrivals ++ [.scan Instant.epoch Instant.epoch]
  have reached : untouched.run? before = some lookedCrowd := by
    rw [run?_append, run?_arrivals]
    exact scan_crowd
  have ran : (lookedCrowd.run? crowdDispatch).isSome = true := by
    simp only [crowdDispatch, run?, step, decide, Store.Table.tick, Store.Table.ready,
      admitted_lookedCrowd]
    decide +kernel
  obtain ⟨last, isLast⟩ := Option.isSome_iff_exists.mp ran
  have isRun : untouched.run? (before ++ crowdDispatch) = some last := by
    rw [run?_append, reached]
    exact isLast
  have isClaims : (untouched.gather claims (before ++ crowdDispatch)).map Record.id = [2, 1] := by
    have none : untouched.gather claims before = [] :=
      gather_eq_nil (by simp [before, arrivals, claims])
    rw [gather_append claims reached, none]
    simp only [crowdDispatch, gather, claims, tick?, step, decide, Store.Table.tick,
      Store.Table.ready, admitted_lookedCrowd]
    decide +kernel
  have isExecuted : (untouched.gather executed (before ++ crowdDispatch)).map Record.id = [2, 1] := by
    have none : untouched.gather executed before = [] :=
      gather_eq_nil (by simp [before, arrivals, executed])
    rw [gather_append executed reached, none]
    simp only [crowdDispatch, gather, step, decide, Store.Table.tick, Store.Table.ready,
      admitted_lookedCrowd]
    decide +kernel
  have fresh : untouched.Fresh := ⟨rfl, rfl, rfl⟩
  have keepOrder : ∀ move ∈ before ++ crowdDispatch, move.KeepsOrder := by
    simp [before, arrivals, crowdDispatch, Move.KeepsOrder, Program.KeepsOrder]
  exact ⟨untouched, last, before ++ crowdDispatch, isRun, isClaims, isExecuted,
    Fresh.dispatchedInOrder fresh Store.Table.ordered_empty (List.nodup_singleton "reindex") keepOrder
      isRun⟩

end DurableJobs.Engine
