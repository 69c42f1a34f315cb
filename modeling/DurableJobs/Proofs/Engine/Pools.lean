import DurableJobs.Proofs.Engine.Notices
import DurableJobs.Proofs.Engine.Regularity

/-!
The pools of the executions.

The slots that a tick counts on are free when it launches what it claimed: from the count on until the
last launch only the dispatcher takes slots, and executions that end only give some back. So no claimed
record waits for a slot, and no pool holds more executions than it has slots.
-/

set_option autoImplicit false

namespace DurableJobs

namespace Lanes

/-- The slots for executions of a kind; a transactional one needs none. -/
def count (lanes : Lanes) : ExecutorKind → Nat
  | .transactional => 0
  | .normal => lanes.normal
  | .longRunning => lanes.longRunning

theorem count_take? {lanes left : Lanes} {taken kind : ExecutorKind}
    (isLeft : lanes.take? taken = some left) (pooled : kind ≠ .transactional) :
    left.count kind + (if taken = kind then 1 else 0) = lanes.count kind := by
  cases taken with
  | transactional =>
      obtain rfl := Option.some.inj isLeft
      rw [if_neg pooled.symm, Nat.add_zero]
  | normal =>
      simp only [take?] at isLeft
      split at isLeft <;> cases isLeft
      cases kind <;> simp [count] at pooled ⊢
      omega
  | longRunning =>
      simp only [take?] at isLeft
      split at isLeft <;> cases isLeft
      cases kind <;> simp [count] at pooled ⊢
      omega

theorem exists_take? {lanes : Lanes} {kind : ExecutorKind} (free : 0 < lanes.count kind) :
    ∃ left, lanes.take? kind = some left := by
  cases kind with
  | transactional => exact ⟨lanes, rfl⟩
  | normal => exact ⟨_, if_neg (Nat.ne_of_gt free)⟩
  | longRunning => exact ⟨_, if_neg (Nat.ne_of_gt free)⟩

theorem count_release (lanes : Lanes) {given kind : ExecutorKind} (pooled : kind ≠ .transactional) :
    (lanes.release given).count kind = lanes.count kind + if given = kind then 1 else 0 := by
  cases given <;> cases kind <;> simp [release, count] at pooled ⊢

end Lanes

/-- How many of the records are executed in the pool of a kind. -/
def Registry.countOf (registry : Registry) (kind : ExecutorKind) (records : List Record) : Nat :=
  records.countP fun record => registry.kindOf record.jobType == some kind

theorem countOf_congr {registry : Registry} {kind : ExecutorKind} {left right : List Record}
    (sameTypes : left.map Record.jobType = right.map Record.jobType) :
    registry.countOf kind left = registry.countOf kind right := by
  have byType : ∀ records : List Record, registry.countOf kind records =
      (records.map Record.jobType).countP fun jobType => registry.kindOf jobType == some kind := by
    intro records
    rw [List.countP_map]
    rfl
  rw [byType, byType, sameTypes]

/-- No more records of a pool are picked to be claimed than it has slots. -/
theorem countOf_pick_le (registry : Registry) (lanes : Lanes) (records : List Record)
    {kind : ExecutorKind} (pooled : kind ≠ .transactional) :
    registry.countOf kind ((pick registry lanes records).filterMap Pick.claimed?) ≤
      lanes.count kind := by
  induction records generalizing lanes with
  | nil => exact Nat.zero_le _
  | cons record rest ih =>
      rw [pick]
      split
      · exact ih lanes
      · next taken isKind =>
          split
          · next left isLeft =>
              have others := ih left
              have slots := Lanes.count_take? isLeft pooled
              rw [Registry.countOf] at others
              rw [Registry.countOf, List.filterMap_cons, Pick.claimed?, List.countP_cons, isKind]
              by_cases same : taken = kind <;> simp [same] at slots ⊢ <;> omega
          · exact ih lanes

namespace ExecutionStage

def isRunning : ExecutionStage → Bool
  | .running => true
  | _ => false

def isWaiting : ExecutionStage → Bool
  | .waiting => true
  | _ => false

end ExecutionStage

/-- Whether the execution holds a slot of a pool. -/
def Execution.occupies (execution : Execution) (kind : ExecutorKind) : Bool :=
  execution.kind == kind && execution.stage.isRunning

/-- The slots of a pool that the dispatcher counts on at this point. -/
def DispatcherPhase.promised (registry : Registry) (kind : ExecutorKind) : DispatcherPhase → Nat
  | .scanning lanes => lanes.count kind
  | .deciding lanes => lanes.count kind
  | .launching _ claimed _ => registry.countOf kind claimed
  | _ => 0

namespace Dispatcher

/-- How many executions run in the pool of a kind. -/
def running (dispatcher : Dispatcher) (kind : ExecutorKind) : Nat :=
  dispatcher.executions.countP fun execution => execution.occupies kind

/-- Each slot of a pool is free or taken, those that are counted on are free, and no execution waits
for one. -/
structure Pooled (dispatcher : Dispatcher) (registry : Registry) (pools : Lanes) : Prop where
  slots : ∀ kind, kind ≠ .transactional →
    dispatcher.free.count kind + dispatcher.running kind = pools.count kind
  promised : ∀ kind, kind ≠ .transactional →
    dispatcher.phase.promised registry kind ≤ dispatcher.free.count kind
  unhindered : ∀ execution ∈ dispatcher.executions, execution.stage.isWaiting = false

section Pooled

variable {dispatcher : Dispatcher} {registry : Registry} {pools : Lanes}

theorem running_reap (dispatcher : Dispatcher) (kind : ExecutorKind) :
    (Engine.Dispatcher.reap dispatcher).running kind = dispatcher.running kind := by
  rw [running, running, List.countP_eq_length_filter, List.countP_eq_length_filter,
    Engine.filter_reap dispatcher fun execution ended => ?_]
  rw [Execution.occupies, ended]
  exact Bool.and_false _

theorem Pooled.reap (pooled : dispatcher.Pooled registry pools) :
    (Engine.Dispatcher.reap dispatcher).Pooled registry pools where
  slots := fun kind isPool => by
    rw [running_reap]
    exact pooled.slots kind isPool
  promised := pooled.promised
  unhindered := fun execution member =>
    pooled.unhindered execution (List.mem_filter.mp member).1

theorem Pooled.enter {phase : DispatcherPhase} (pooled : dispatcher.Pooled registry pools)
    (fits : ∀ kind, kind ≠ .transactional →
      phase.promised registry kind ≤ dispatcher.free.count kind) :
    ({ dispatcher with phase := phase } : Dispatcher).Pooled registry pools :=
  ⟨pooled.slots, fits, pooled.unhindered⟩

/-- The dispatcher enters a phase in which it counts on no slots. -/
theorem Pooled.relax {phase : DispatcherPhase} (pooled : dispatcher.Pooled registry pools)
    (none : ∀ kind, phase.promised registry kind = 0) :
    ({ dispatcher with phase := phase } : Dispatcher).Pooled registry pools :=
  pooled.enter fun kind _ => none kind ▸ Nat.zero_le _

theorem reserve_of_take? {kind : ExecutorKind} {left : Lanes} (isPool : kind ≠ .transactional)
    (isLeft : dispatcher.free.take? kind = some left) :
    Engine.Dispatcher.reserve dispatcher kind = (.running, { dispatcher with free := left }) := by
  cases kind with
  | transactional => exact absurd rfl isPool
  | normal => simp [Engine.Dispatcher.reserve, isLeft]
  | longRunning => simp [Engine.Dispatcher.reserve, isLeft]

/-- The next record has a slot, as that was counted on. -/
theorem Pooled.take? {notices : List Notice} {record : Record} {claimed : List Record} {tick : Tick}
    {kind : ExecutorKind} (pooled : dispatcher.Pooled registry pools)
    (launching : dispatcher.phase = .launching notices (record :: claimed) tick)
    (isKind : registry.kindOf record.jobType = some kind) (isPool : kind ≠ .transactional) :
    ∃ left, dispatcher.free.take? kind = some left := by
  have fits := pooled.promised kind isPool
  rw [launching, DispatcherPhase.promised, Registry.countOf, List.countP_cons, isKind] at fits
  simp only [beq_self_eq_true, if_true] at fits
  exact Lanes.exists_take? (by omega)

/-- An execution is launched that takes what slots it needs. -/
theorem Pooled.append {execution : Execution} {free : Lanes} {phase : DispatcherPhase}
    (pooled : dispatcher.Pooled registry pools)
    (slots : ∀ kind, kind ≠ .transactional →
      free.count kind + (if execution.occupies kind then 1 else 0) = dispatcher.free.count kind)
    (fits : ∀ kind, kind ≠ .transactional → phase.promised registry kind ≤ free.count kind)
    (unhindered : execution.stage.isWaiting = false) :
    ({ dispatcher with
        phase := phase
        free := free
        executions := dispatcher.executions ++ [execution] } : Dispatcher).Pooled registry
      pools := by
  refine ⟨fun kind isPool => ?_, fits, fun other member => ?_⟩
  · rw [← pooled.slots kind isPool, ← slots kind isPool, running, running, List.countP_append,
      List.countP_singleton]
    dsimp only
    omega
  · rcases List.mem_append.mp member with old | new
    · exact pooled.unhindered other old
    · rw [List.mem_singleton.mp new]
      exact unhindered

theorem Pooled.launch {record : Record} {claimed : List Record} {tick : Tick} {kind : ExecutorKind}
    {ticket : Nat} {stage reached : ExecutionStage} {later : Dispatcher}
    (pooled : dispatcher.Pooled registry pools)
    (launching : dispatcher.phase = .launching [] (record :: claimed) tick)
    (isKind : registry.kindOf record.jobType = some kind)
    (reserved : Engine.Dispatcher.reserve dispatcher kind = (stage, later))
    (isReached : reached = stage ∨ kind = .transactional ∧ reached = .ended) :
    ({ later with
        phase := .launching [] claimed tick
        executions := later.executions ++ [⟨ticket, record, kind, reached⟩] } : Dispatcher).Pooled
      registry pools := by
  have fits : ∀ other, other ≠ .transactional →
      registry.countOf other claimed + (if kind = other then 1 else 0) ≤
        dispatcher.free.count other := by
    intro other isPool
    have counted := pooled.promised other isPool
    rw [launching, DispatcherPhase.promised, Registry.countOf, List.countP_cons, isKind] at counted
    simpa [Registry.countOf] using counted
  by_cases isPool : kind = .transactional
  · subst isPool
    cases reserved
    have idle : reached.isRunning = false ∧ reached.isWaiting = false := by
      rcases isReached with rfl | ⟨_, rfl⟩ <;> exact ⟨rfl, rfl⟩
    apply pooled.append
    · intro other _
      simp [Execution.occupies, idle.1]
    · exact fun other isOther => Nat.le_trans (Nat.le_add_right _ _) (fits other isOther)
    · exact idle.2
  · obtain ⟨left, isLeft⟩ := pooled.take? launching isKind isPool
    obtain ⟨rfl, rfl⟩ := Prod.mk.inj ((reserve_of_take? isPool isLeft).symm.trans reserved)
    obtain rfl : reached = .running := isReached.resolve_right fun ended => isPool ended.1
    have slots : ∀ other, other ≠ .transactional →
        left.count other + (if kind = other then 1 else 0) = dispatcher.free.count other :=
      fun _ isOther => Lanes.count_take? isLeft isOther
    apply pooled.append
    · intro other isOther
      rw [← slots other isOther]
      simp [Execution.occupies, ExecutionStage.isRunning]
    · intro other isOther
      have room := fits other isOther
      exact Nat.le_of_add_le_add_right (slots other isOther ▸ room)
    · rfl

end Pooled

end Dispatcher

namespace Engine

variable {Business : Type}

/-- The slots of the pools, free or not. -/
def pools (engine : Engine Business) : Lanes :=
  ⟨engine.config.normalConcurrency, engine.config.longRunningConcurrency⟩

def Pooled (engine : Engine Business) : Prop :=
  ∀ dispatcher, engine.dispatcher = some dispatcher →
    dispatcher.Pooled engine.registry engine.pools

section Pooled

variable {engine after : Engine Business}

theorem Pooled.of_dispatcher {later : Dispatcher} (found : after.dispatcher = some later)
    (pooled : later.Pooled after.registry after.pools) : after.Pooled := by
  intro dispatcher isDispatcher
  obtain rfl := Option.some.inj (found.symm.trans isDispatcher)
  exact pooled

theorem SameWork.pooled (same : SameWork engine after) (pooled : engine.Pooled) : after.Pooled := by
  intro dispatcher isDispatcher
  rw [same.registry, pools, same.config]
  exact pooled dispatcher (same.dispatcher ▸ isDispatcher)

theorem Fresh.pooled (fresh : engine.Fresh) : engine.Pooled := by
  intro dispatcher isDispatcher
  simp [fresh.dispatcher] at isDispatcher

/-- An execution goes on that holds no slot before and after. -/
theorem Pooled.setStage {changed : Engine Business} {execution : Execution} {stage : ExecutionStage}
    (pooled : engine.Pooled) (sound : engine.Sound) (member : execution ∈ engine.executions)
    (same : SameWork engine changed) (before : execution.stage.isRunning = false)
    (later : stage.isRunning = false ∧ stage.isWaiting = false) :
    (changed.setStage execution.ticket stage).Pooled := by
  cases found : engine.dispatcher with
  | none => simp [executions, found] at member
  | some dispatcher =>
      have isPooled := pooled dispatcher found
      have isLater : (changed.setStage execution.ticket stage).dispatcher = some
          { dispatcher with
            executions := dispatcher.executions.map fun other =>
              if other.ticket = execution.ticket then { other with stage := stage } else other } := by
        simp [Engine.setStage, same.dispatcher, found]
      have idle : ∀ other ∈ dispatcher.executions, other.ticket = execution.ticket →
          other.stage.isRunning = false := by
        intro other isOther sameTicket
        rw [← executions_of_dispatcher found] at isOther
        rwa [sound.eq_of_ticket isOther member sameTicket]
      refine .of_dispatcher isLater ?_
      change Dispatcher.Pooled _ changed.registry changed.pools
      rw [same.registry, pools, same.config]
      refine ⟨fun kind isPool => ?_, isPooled.promised, ?_⟩
      · refine Eq.trans (congrArg _ ?_) (isPooled.slots kind isPool)
        rw [Dispatcher.running, Dispatcher.running, List.countP_map]
        refine List.countP_congr fun other isOther => ?_
        dsimp only [Function.comp_apply]
        split
        · next sameTicket =>
            simp [Execution.occupies, later.1, idle other isOther sameTicket]
        · exact Iff.rfl
      · intro other isOther
        obtain ⟨old, isOld, rfl⟩ := List.mem_map.mp isOther
        split
        · exact later.2
        · exact isPooled.unhindered old isOld

/-- An execution that ends gives its slot back to its pool. -/
theorem Pooled.giveBack {execution : Execution} {result : Except JobError Outcome}
    (pooled : engine.Pooled) (sound : engine.Sound) (member : execution ∈ engine.executions)
    (running : execution.stage = .running) :
    ((engine.setFree fun free => free.release execution.kind).setStage execution.ticket
      (.returned result)).Pooled := by
  have staged := staged_setFree member
    (rfl : (ExecutionStage.returned result).isQueued = false)
    fun free => free.release execution.kind
  obtain ⟨left, right, before, later⟩ := staged.split sound
  cases found : engine.dispatcher with
  | none => simp [executions, found] at member
  | some dispatcher =>
      have isPooled := pooled dispatcher found
      have isLater : ((engine.setFree fun free => free.release execution.kind).setStage
          execution.ticket (.returned result)).dispatcher = some
            { dispatcher with
              free := dispatcher.free.release execution.kind
              executions := dispatcher.executions.map fun other =>
                if other.ticket = execution.ticket then
                  { other with stage := .returned result }
                else other } := by
        simp [Engine.setStage, setFree, found]
      rw [executions_of_dispatcher found] at before
      rw [executions_of_dispatcher isLater] at later
      refine .of_dispatcher isLater ?_
      change Dispatcher.Pooled _ engine.registry engine.pools
      refine ⟨fun kind isPool => ?_, fun kind isPool => ?_, ?_⟩
      · have slots := isPooled.slots kind isPool
        rw [Dispatcher.running, before, List.countP_append, List.countP_cons] at slots
        rw [Dispatcher.running, later, List.countP_append, List.countP_cons,
          Lanes.count_release _ isPool]
        by_cases same : execution.kind = kind <;>
          simp [Execution.occupies, ExecutionStage.isRunning, running, same] at slots ⊢ <;> omega
      · rw [Lanes.count_release _ isPool]
        exact Nat.le_trans (isPooled.promised kind isPool) (Nat.le_add_right _ _)
      · intro other isOther
        obtain ⟨old, isOld, rfl⟩ := List.mem_map.mp isOther
        split
        · rfl
        · exact isPooled.unhindered old isOld

theorem Pooled.stopWriter (pooled : engine.Pooled) : engine.stopWriter.Pooled := by
  intro later isLater
  obtain ⟨dispatcher, found, rfl⟩ := Option.map_eq_some_iff.mp isLater
  have isPooled := pooled dispatcher found
  refine ⟨fun kind isPool => ?_, isPooled.promised, ?_⟩
  · refine Eq.trans (congrArg _ ?_) (isPooled.slots kind isPool)
    rw [Dispatcher.running, Dispatcher.running, List.countP_map]
    refine List.countP_congr fun execution _ => ?_
    dsimp only [Function.comp_apply]
    cases stage : execution.stage <;> simp [Execution.occupies, ExecutionStage.isRunning, stage]
  · intro other isOther
    obtain ⟨old, isOld, rfl⟩ := List.mem_map.mp isOther
    split
    · rfl
    · exact isPooled.unhindered old isOld

theorem Pooled.start (pooled : engine.Pooled) : engine.start.2.Pooled := by
  simp only [Engine.start]
  split
  · exact pooled
  · split
    · exact pooled
    · refine .of_dispatcher rfl ⟨fun kind _ => ?_, fun kind _ => Nat.zero_le _, by simp⟩
      rfl

theorem Pooled.decide {now : Instant} (pooled : engine.Pooled)
    (ordered : engine.database.jobs.Ordered) (taken : engine.decide now = some after) :
    after.Pooled := by
  obtain ⟨dispatcher, lanes, found, deciding, ended⟩ := decide_ticks taken
  have isPooled := pooled dispatcher found
  rcases ended with ⟨_, phase, quiet, rfl⟩ | ⟨tick, jobs, _, answer, rfl⟩
  · rcases quiet with rfl | rfl
    · exact .of_dispatcher rfl (isPooled.relax fun _ => rfl)
    · exact .of_dispatcher rfl (isPooled.relax fun _ => rfl)
  · obtain ⟨records, _, applied⟩ := ordered.picks_of_tick answer
    refine .of_dispatcher rfl (isPooled.enter fun kind isPool => ?_)
    have counted := isPooled.promised kind isPool
    rw [deciding] at counted
    calc
      engine.registry.countOf kind tick.claimed
          = engine.registry.countOf kind
              ((pick engine.registry lanes records).filterMap Pick.claimed?) :=
        countOf_congr applied.types
      _ ≤ lanes.count kind := countOf_pick_le engine.registry lanes records isPool
      _ ≤ dispatcher.free.count kind := counted

theorem Pooled.launch {now : Instant} (pooled : engine.Pooled)
    (taken : engine.launch now = some after) : after.Pooled := by
  obtain ⟨dispatcher, found, told | dropped | launched | ended⟩ := launch_steps taken
  · obtain ⟨notice, notices, claimed, tick, launching, rfl⟩ := told
    have promised := (pooled dispatcher found).promised
    rw [launching] at promised
    exact (sameWork_tell _ notice now).pooled
      (.of_dispatcher rfl ((pooled dispatcher found).enter promised))
  · obtain ⟨record, claimed, tick, launching, _, rfl⟩ := dropped
    refine .of_dispatcher rfl ((pooled dispatcher found).enter fun kind isPool => ?_)
    have promised := (pooled dispatcher found).promised kind isPool
    rw [launching, DispatcherPhase.promised, Registry.countOf, List.countP_cons] at promised
    exact Nat.le_trans (Nat.le_add_right _ _) promised
  · obtain ⟨record, claimed, tick, kind, stage, later, launching, isKind, reserved, rfl⟩ := launched
    refine .of_dispatcher rfl ((pooled dispatcher found).launch launching isKind reserved ?_)
    split
    · next stops => exact .inr ⟨stops.1, rfl⟩
    · exact .inl rfl
  · obtain ⟨tick, _, rfl⟩ := ended
    exact .of_dispatcher rfl ((pooled dispatcher found).relax fun _ => rfl)

/-- Every move keeps the account of the slots. -/
theorem Pooled.step {move : Move Business} (pooled : engine.Pooled) (sound : engine.Sound)
    (ordered : engine.database.jobs.Ordered) (taken : engine.step move = some after) :
    after.Pooled := by
  cases move with
  | transact program now => exact (called_of_step rfl taken).pooled pooled
  | enqueue job now => exact (called_of_step rfl taken).pooled pooled
  | enqueueAll jobs correlation now => exact (called_of_step rfl taken).pooled pooled
  | cancel id => exact (called_of_step rfl taken).pooled pooled
  | requeue id now => exact (called_of_step rfl taken).pooled pooled
  | announce place now => exact (announce_sameWork taken).1.pooled pooled
  | start => exact Option.some.inj taken ▸ pooled.start
  | requestStop =>
      obtain ⟨dispatcher, found, rfl⟩ := requestStop_cases taken
      have isPooled := pooled dispatcher found
      exact .of_dispatcher rfl ⟨isPooled.slots, isPooled.promised, isPooled.unhindered⟩
  | recover draw now =>
      obtain ⟨dispatcher, _, found, _, _, rfl⟩ := recover_cases taken
      exact .of_dispatcher rfl ((pooled dispatcher found).relax fun _ => rfl)
  | count =>
      obtain ⟨dispatcher, phase, found, _, goesOn, rfl⟩ := count_cases taken
      have isPooled := (pooled dispatcher found).reap
      rcases goesOn with rfl | rfl
      · exact .of_dispatcher rfl (isPooled.relax fun _ => rfl)
      · exact .of_dispatcher rfl (isPooled.enter fun kind _ => Nat.le_refl _)
  | scan now later =>
      obtain ⟨dispatcher, lanes, phase, found, scanning, goesOn, rfl⟩ := scan_cases taken
      have isPooled := pooled dispatcher found
      rcases goesOn with rfl | ⟨tick, rfl⟩ | ⟨delay, rfl⟩
      · refine .of_dispatcher rfl (isPooled.enter ?_)
        have promised := isPooled.promised
        rwa [scanning] at promised
      · exact .of_dispatcher rfl (isPooled.relax fun _ => rfl)
      · exact .of_dispatcher rfl (isPooled.relax fun _ => rfl)
  | decide now => exact pooled.decide ordered taken
  | launch now => exact pooled.launch taken
  | rest now =>
      obtain ⟨dispatcher, _, _, found, _, rfl⟩ := rest_cases taken
      exact .of_dispatcher rfl ((pooled dispatcher found).relax fun _ => rfl)
  | wake waking =>
      obtain ⟨dispatcher, _, found, _, rfl | rfl | rfl | rfl⟩ := wake_cases taken
      · exact .of_dispatcher rfl ((pooled dispatcher found).relax fun _ => rfl)
      · exact .of_dispatcher rfl ((pooled dispatcher found).relax fun _ => rfl)
      · exact .of_dispatcher rfl ((pooled dispatcher found).relax fun _ => rfl)
      · exact .of_dispatcher rfl ((pooled dispatcher found).reap.relax fun _ => rfl)
  | finish =>
      obtain ⟨_, _, _, _, rfl⟩ := finish_cases taken
      intro later isLater
      cases isLater
  | runQueued executor draw now =>
      obtain ⟨execution, notices, database, next, _, rfl⟩ := runQueued_cases taken
      obtain ⟨member, queued⟩ := mem_of_nextQueued? next
      refine pooled.setStage sound member (sameWork_committed engine database engine.owed) ?_ ?_
      · rw [queued]
        rfl
      · cases notices <;> exact ⟨rfl, rfl⟩
  | acquire ticket =>
      -- No execution waits for a slot.
      obtain ⟨execution, _, found, waiting, _⟩ := acquire_cases taken
      obtain ⟨member, _⟩ := mem_of_execution? found
      cases isDispatcher : engine.dispatcher with
      | none => simp [executions, isDispatcher] at member
      | some dispatcher =>
          rw [executions_of_dispatcher isDispatcher] at member
          have unhindered := (pooled dispatcher isDispatcher).unhindered execution member
          rw [waiting] at unhindered
          cases unhindered
  | giveBack ticket result =>
      obtain ⟨execution, found, running, rfl⟩ := return?_cases taken
      obtain ⟨member, rfl⟩ := mem_of_execution? found
      exact pooled.giveBack sound member running
  | settle ticket draw now =>
      obtain ⟨execution, result, found, returned, ended⟩ := settle_cases taken
      obtain ⟨member, rfl⟩ := mem_of_execution? found
      have idle : execution.stage.isRunning = false := by
        rw [returned]
        rfl
      rcases ended with ⟨_, rfl⟩ | ⟨_, _, rfl⟩ | ⟨settlement, jobs, _, _, rfl⟩
      · exact pooled.setStage sound member (.refl engine) idle ⟨rfl, rfl⟩
      · exact pooled.setStage sound member (.refl engine) idle ⟨rfl, rfl⟩
      · exact pooled.setStage sound member (sameWork_committed engine _ engine.owed) idle ⟨rfl, rfl⟩
  | report ticket now =>
      obtain ⟨execution, found, told⟩ := report_cases taken
      obtain ⟨member, rfl⟩ := mem_of_execution? found
      rcases told with ⟨silent, rfl⟩ | ⟨notice, rest, speaking, rfl⟩
      · exact pooled.setStage sound member (.refl engine) (by rw [silent]; rfl) ⟨rfl, rfl⟩
      · exact (sameWork_tell _ notice now).pooled
          (pooled.setStage sound member (.refl engine) (by rw [speaking]; rfl) ⟨rfl, rfl⟩)
  | stopWriter => exact Option.some.inj taken ▸ pooled.stopWriter

theorem Regular.pooled (regular : Regular engine) : engine.Pooled := by
  induction regular with
  | fresh fresh _ => exact fresh.pooled
  | moved regular _ _ taken ih => exact ih.step regular.reachable.sound regular.ordered taken

/-- How many executions run in the pool of a kind. -/
def running (engine : Engine Business) (kind : ExecutorKind) : Nat :=
  engine.executions.countP fun execution => execution.occupies kind

/-- No pool runs more executions than it has slots, and no claimed record waits for one. -/
structure WithinPools (engine : Engine Business) : Prop where
  normal : engine.running .normal ≤ engine.config.normalConcurrency
  longRunning : engine.running .longRunning ≤ engine.config.longRunningConcurrency
  -- There are free slots for all records that were claimed and are still to be launched.
  enough : ∀ dispatcher, engine.dispatcher = some dispatcher → ∀ kind, kind ≠ .transactional →
    engine.registry.countOf kind engine.launching ≤ dispatcher.free.count kind
  -- The next of them takes its slot at once and runs.
  reserves : ∀ dispatcher notices record claimed tick kind, engine.dispatcher = some dispatcher →
    dispatcher.phase = .launching notices (record :: claimed) tick →
    engine.registry.kindOf record.jobType = some kind → kind ≠ .transactional →
    ∃ left, Dispatcher.reserve dispatcher kind = (.running, { dispatcher with free := left })
  unhindered : ∀ execution ∈ engine.executions, execution.stage.isWaiting = false

/-- However the steps of the dispatcher and those of the executions follow each other, the pools are
kept within their sizes. -/
theorem Regular.withinPools (regular : Regular engine) : engine.WithinPools := by
  have pooled := regular.pooled
  cases found : engine.dispatcher with
  | none =>
      refine ⟨?_, ?_, by simp [found], by simp [found], ?_⟩
      · simp [running, executions, found]
      · simp [running, executions, found]
      · simp [executions, found]
  | some dispatcher =>
      have isPooled := pooled dispatcher found
      have bounded : ∀ kind, kind ≠ .transactional → engine.running kind ≤ engine.pools.count kind := by
        intro kind isPool
        have slots := isPooled.slots kind isPool
        rw [running, executions_of_dispatcher found]
        exact slots ▸ Nat.le_add_left _ _
      refine ⟨bounded .normal (by decide), bounded .longRunning (by decide), ?_, ?_, ?_⟩
      · intro other isOther kind isPool
        obtain rfl := Option.some.inj (found.symm.trans isOther)
        have promised := isPooled.promised kind isPool
        rw [launching_of_dispatcher found]
        cases phase : dispatcher.phase with
        | launching notices claimed tick => rwa [phase] at promised
        | _ => exact Nat.zero_le _
      · intro other notices record claimed tick kind isOther launching isKind isPool
        obtain rfl := Option.some.inj (found.symm.trans isOther)
        obtain ⟨left, isLeft⟩ := isPooled.take? launching isKind isPool
        exact ⟨left, Dispatcher.reserve_of_take? isPool isLeft⟩
      · rw [executions_of_dispatcher found]
        exact isPooled.unhindered

/-- A job of the normal pool was claimed and launched, and runs. -/
theorem withinPools_sample :
    ∃ engine : Engine Unit, Regular engine ∧ engine.running .normal = 1 ∧ engine.WithinPools := by
  let first : Engine Unit :=
    { sample with registry := ⟨[("reindex", .normal)]⟩, database := ⟨Store.Table.empty, (), fun _ _ => none⟩ }
  let moves : List (Move Unit) :=
    [.enqueue (Job.new "reindex" [118] Uuid.zero) Instant.epoch] ++ firstMoves ++
      [.decide Instant.epoch, .launch Instant.epoch]
  have ran : (first.run? moves).map (fun engine => engine.running .normal) = some 1 := by
    decide +kernel
  obtain ⟨engine, isEngine, isRunning⟩ := Option.map_eq_some_iff.mp ran
  have fresh : first.Fresh := ⟨rfl, rfl, rfl⟩
  have regular : Regular engine :=
    (Regular.fresh fresh Store.Table.ordered_empty).run
      (by simp [moves, firstMoves, Move.KeepsOrder]) isEngine
  exact ⟨engine, regular, isRunning, Regular.withinPools regular⟩

end Pooled

end Engine

end DurableJobs
