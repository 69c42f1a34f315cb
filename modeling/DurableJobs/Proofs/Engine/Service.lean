import DurableJobs.Proofs.Engine.DispatchOrder
import DurableJobs.Proofs.Writer.Undisturbed

/-!
The engine behind its writer.

What the engine does on its database it does in units that it submits to the writer. The writer runs
them one at a time, in the order of their submission, while callers, the dispatcher and the executions
go on. Seen from the engine every unit is one move, made when the writer has run it; and the unit of a
transactional execution comes up just when this is the next one of those that are queued.
-/

set_option autoImplicit false

namespace DurableJobs.Engine

variable {Business : Type}

/-! ### Units and the executions that wait for theirs -/

/-- Whether the move is made by a unit of the writer. -/
def Move.isUnit : Move Business → Bool
  | .recover _ _ => true
  | .decide _ => true
  | .runQueued _ _ _ => true
  | .settle _ _ _ => true
  | move => move.isCall

section Queued

variable {engine after : Engine Business} {move : Move Business}

/-- Unless it runs one, a move leaves the executions that are queued; a launch may add to them. -/
theorem Sound.queued_step (sound : engine.Sound) (taken : engine.step move = some after)
    (notRun : move.isRun = false) (notStop : move.isStop = false) :
    after.queued = engine.queued ∨
      move.isLaunch = true ∧ ∃ launched, after.queued = engine.queued ++ launched := by
  cases step_shift taken with
  | same same => exact .inl same.queued
  | begun idle _ dispatcher =>
      have unstarted := sound.dispatcher_eq_none idle
      refine .inl ?_
      rcases dispatcher with same | ⟨free, started⟩
      · simp [queued, executions, same]
      · simp [queued, executions, started, unstarted]
  | redirected redirected => exact .inl redirected.queued
  | launched found dispatcher executions _ _ _ _ _ _ isLaunch =>
      rw [queued_of_dispatcher found, queued_of_dispatcher dispatcher, executions, List.filter_append]
      exact .inr ⟨isLaunch, _, rfl⟩
  | staged staged goesOn =>
      refine .inl (staged.queued sound ?_)
      rcases goesOn with ⟨_, _, isRun⟩ | ⟨_, ⟨silent, _⟩ | ⟨_, _, speaking, _⟩⟩
      · exact isRun.symm.trans notRun
      · rw [silent]
        rfl
      · rw [speaking]
        rfl
  | finished found ended dispatcher =>
      refine .inl ?_
      rw [queued_of_dispatcher found, ← queued_reap, ended]
      simp [queued, executions, dispatcher]
  | stopped _ isStop => cases notStop.symm.trans isStop

theorem Sound.queued_unit (sound : engine.Sound) (taken : engine.step move = some after)
    (isUnit : move.isUnit = true) (notRun : move.isRun = false) : after.queued = engine.queued := by
  have others : move.isStop = false ∧ move.isLaunch = false := by
    cases move <;> first | exact ⟨rfl, rfl⟩ | cases isUnit
  rcases sound.queued_step taken notRun others.1 with same | ⟨isLaunch, _⟩
  · exact same
  · cases others.2.symm.trans isLaunch

end Queued

/-! ### Units -/

/-- A unit of the writer that is run on an engine. -/
abbrev WriterUnit (Business : Type) : Type := Writer.Work (Engine Business) Unit

/-- How a transactional execution is going to be run, with what the clock and the draw will show. -/
structure Handling (Business : Type) where
  executor : Record → Program Business JobError TransactionalOutcome
  draw : Nat
  now : Instant

/-- Runs an execution and settles it, wherever it stands among those that are queued. -/
def runExecution (engine : Engine Business) (execution : Execution) (handling : Handling Business) :
    Engine Business :=
  let (notices, database) :=
    runTransactional engine.database engine.registry engine.config.retry execution.record
      (handling.executor execution.record) handling.draw handling.now
  { engine with database := database }.setStage execution.ticket (stageAfter notices)

def unit (ticket : Nat) (body : Engine Business → Engine Business) : WriterUnit Business where
  ticket := ticket
  token := none
  isAwaited := false
  hasRuntime := true
  body := fun engine => (.done (), body engine)

/-- The unit that makes a move, if it can be made then. -/
def Move.unit (move : Move Business) (ticket : Nat) : WriterUnit Business :=
  Engine.unit ticket fun engine => (engine.step move).getD engine

namespace Handling

def move (handling : Handling Business) : Move Business :=
  .runQueued handling.executor handling.draw handling.now

/-- The unit of an execution, which is made for this one. -/
def unit (handling : Handling Business) (execution : Execution) : WriterUnit Business :=
  Engine.unit execution.ticket fun engine => engine.runExecution execution handling

end Handling

theorem runQueued_of_next {engine : Engine Business} {execution : Execution}
    (next : engine.nextQueued? = some execution) (handling : Handling Business) :
    engine.step handling.move = some (engine.runExecution execution handling) := by
  simp only [Handling.move, step, runQueued, next, runExecution]
  cases runTransactional engine.database engine.registry engine.config.retry execution.record
      (handling.executor execution.record) handling.draw handling.now with
  | mk notices database => cases notices <;> rfl

/-- The units that wait, the queued executions that some of them are for, and the moves that they
make. -/
inductive Awaits : List (WriterUnit Business) → List Execution → List (Move Business) → Prop
  where
  | nil : Awaits [] [] []
  | move {units : List (WriterUnit Business)} {executions : List Execution}
      {due : List (Move Business)} {move : Move Business} (isUnit : move.isUnit = true)
      (notRun : move.isRun = false) (ticket : Nat) (rest : Awaits units executions due) :
      Awaits (move.unit ticket :: units) executions (move :: due)
  | execution {units : List (WriterUnit Business)} {executions : List Execution}
      {due : List (Move Business)} (handling : Handling Business) (execution : Execution)
      (rest : Awaits units executions due) :
      Awaits (handling.unit execution :: units) (execution :: executions) (handling.move :: due)

section Awaits

variable {units moreUnits : List (WriterUnit Business)}
  {executions moreExecutions : List Execution} {due moreDue : List (Move Business)}

theorem Awaits.append (awaits : Awaits units executions due)
    (more : Awaits moreUnits moreExecutions moreDue) :
    Awaits (units ++ moreUnits) (executions ++ moreExecutions) (due ++ moreDue) := by
  induction awaits with
  | nil => exact more
  | move isUnit notRun ticket _ ih => exact .move isUnit notRun ticket ih
  | execution handling execution _ ih => exact .execution handling execution ih

theorem awaits_executions (handling : Handling Business) (executions : List Execution) :
    Awaits (executions.map handling.unit) executions (executions.map fun _ => handling.move) := by
  induction executions with
  | nil => exact .nil
  | cons execution rest ih => exact .execution handling execution ih

/-- Running the first unit that waits is the first move that is due, or that one cannot be made. -/
theorem Awaits.perform {engine : Engine Business} {first : WriterUnit Business}
    (awaits : Awaits (first :: units) engine.queued due) (sound : engine.Sound) :
    ∃ move rest, due = move :: rest ∧ move.isUnit = true ∧
      Awaits units (first.perform engine).2.queued rest ∧
      (engine.step move = some (first.perform engine).2 ∨ (first.perform engine).2 = engine) := by
  generalize isQueued : engine.queued = queued at awaits
  cases awaits with
  | @move _ _ rest move isUnit notRun ticket awaits =>
      refine ⟨move, rest, rfl, isUnit, ?_⟩
      have isPerform : ((move.unit ticket).perform engine).2 = (engine.step move).getD engine := rfl
      rw [isPerform]
      cases taken : engine.step move with
      | none => exact ⟨isQueued.symm ▸ awaits, .inr rfl⟩
      | some after =>
          have same := sound.queued_unit taken isUnit notRun
          exact ⟨(same.trans isQueued).symm ▸ awaits, .inl rfl⟩
  | @execution _ others rest handling execution awaits =>
      refine ⟨handling.move, rest, rfl, rfl, ?_⟩
      have isPerform : ((handling.unit execution).perform engine).2 =
          engine.runExecution execution handling := rfl
      rw [isPerform]
      have next : engine.nextQueued? = some execution := by
        rw [← head?_queued, isQueued, List.head?_cons]
      have taken := runQueued_of_next next handling
      have left : engine.queued = execution :: (engine.runExecution execution handling).queued := by
        obtain ⟨member, _⟩ := mem_of_nextQueued? next
        exact (staged_setStage member (isQueued_stageAfter _)
          (sameWork_committed engine _ engine.owed)).dequeued sound next
      obtain ⟨_, rfl⟩ := List.cons.inj (isQueued.symm.trans left)
      exact ⟨awaits, .inl taken⟩

end Awaits

/-! ### The engine and its writer at work -/

/-- A writer whose world is the engine that submits units to it. -/
abbrev Service (Business : Type) : Type := Writer.Serializer (Engine Business) Unit

/-- What happens next: a step of the writer's worker, a submission of a unit, or a move that needs no
unit. The units of executions that such a move queues are submitted with it. -/
inductive Occurrence (Business : Type) where
  | work (worker : Nat)
  | wake (worker : Nat) (isLate : Bool)
  | submit (move : Move Business) (ticket : Nat)
  | apart (move : Move Business) (handling : Handling Business)

namespace Service

def opened (config : WriterConfig) (engine : Engine Business) : Service Business :=
  .new config (fun engine => (.ok (), engine)) (fun engine => (.ok (), engine)) engine

def submitAll (service : Service Business) (units : List (WriterUnit Business)) :
    Service Business :=
  units.foldl (fun service unit => service.submit unit true) service

/-- The executions that a move of the engine queues. -/
def queues (engine after : Engine Business) : List Execution :=
  after.queued.drop engine.queued.length

def occur? (service : Service Business) : Occurrence Business → Option (Service Business)
  | .work worker => service.step (.work worker)
  | .wake worker isLate => service.step (.wake worker isLate)
  | .submit move ticket =>
      if move.isUnit && !move.isRun then some (service.submit (move.unit ticket) true) else none
  | .apart move handling =>
      if move.isUnit || move.isStop then none
      else
        (service.world.step move).map fun after =>
          submitAll { service with world := after }
            ((queues service.world after).map handling.unit)

/-- The moves of the units that an occurrence submits. -/
def submitted (service : Service Business) : Occurrence Business → List (Move Business)
  | .work _ => []
  | .wake _ _ => []
  | .submit move _ => [move]
  | .apart move handling =>
      (service.world.step move).elim [] fun after =>
        (queues service.world after).map fun _ => handling.move

def course? (service : Service Business) : List (Occurrence Business) → Option (Service Business)
  | [] => some service
  | occurrence :: rest => (service.occur? occurrence).bind fun after => course? after rest

/-- The moves of all units that are submitted in a course, in order. -/
def submissions (service : Service Business) : List (Occurrence Business) → List (Move Business)
  | [] => []
  | occurrence :: rest =>
      service.submitted occurrence ++
        (service.occur? occurrence).elim [] fun after => submissions after rest

end Service

/-- The engine of the service has come from this one by moves of its own, among them those of the
units that were run, in the order in which they were submitted. -/
structure Serves (first : Engine Business) (service : Service Business)
    (submitted : List (Move Business)) : Prop where
  undisturbed : service.Undisturbed
  sound : service.world.Sound
  follows : ∃ moves due, first.run? moves = some service.world ∧
    Awaits service.waiting service.world.queued due ∧
    (moves.filter Move.isUnit ++ due).Sublist submitted

section Serves

variable {first : Engine Business} {service after : Service Business}
  {submitted : List (Move Business)}

theorem run?_concat {first middle after : Engine Business} {moves : List (Move Business)}
    {move : Move Business} (ran : first.run? moves = some middle)
    (taken : middle.step move = some after) : first.run? (moves ++ [move]) = some after := by
  simp [run?_append, ran, run?, taken]

theorem Service.submitAll_spec (undisturbed : service.Undisturbed)
    (units : List (WriterUnit Business)) (wanted : ∀ unit ∈ units, unit.token = none) :
    (service.submitAll units).Undisturbed ∧
      (service.submitAll units).waiting = service.waiting ++ units ∧
      (service.submitAll units).world = service.world := by
  induction units generalizing service with
  | nil => exact ⟨undisturbed, (List.append_nil _).symm, rfl⟩
  | cons first rest ih =>
      obtain ⟨submitted, waiting, world⟩ := undisturbed.submit (wanted first List.mem_cons_self)
      obtain ⟨all, isWaiting, isWorld⟩ := ih submitted fun other member =>
        wanted other (List.mem_cons_of_mem _ member)
      refine ⟨all, isWaiting.trans ?_, isWorld.trans world⟩
      rw [waiting, List.append_assoc]
      rfl

/-- A turn of the worker makes the first move that is due, or none. -/
theorem Serves.turn (serves : Serves first service submitted)
    (proceeds : after.Undisturbed ∧ Writer.Serializer.Proceeds service after) :
    Serves first after submitted := by
  obtain ⟨undisturbed, ⟨waiting, world⟩ | ⟨unit, waiting, world⟩⟩ := proceeds
  · refine ⟨undisturbed, world ▸ serves.sound, ?_⟩
    rw [waiting, world]
    exact serves.follows
  · obtain ⟨moves, due, ran, awaits, inOrder⟩ := serves.follows
    rw [waiting] at awaits
    obtain ⟨move, rest, rfl, isUnit, awaitsRest, made | skipped⟩ := awaits.perform serves.sound
    · rw [← world] at made awaitsRest
      refine ⟨undisturbed, (step_shift made).sound serves.sound,
        moves ++ [move], rest, run?_concat ran made, awaitsRest, ?_⟩
      simpa [List.filter_append, isUnit] using inOrder
    · rw [← world] at skipped awaitsRest
      refine ⟨undisturbed, skipped ▸ serves.sound, moves, rest, skipped ▸ ran, awaitsRest, ?_⟩
      exact ((List.sublist_cons_self move rest).append_left _).trans inOrder

theorem Serves.occur {occurrence : Occurrence Business} (serves : Serves first service submitted)
    (occurs : service.occur? occurrence = some after) :
    Serves first after (submitted ++ service.submitted occurrence) := by
  cases occurrence with
  | work worker =>
      have taken : service.step (.work worker) = some after := occurs
      rw [Service.submitted, List.append_nil]
      exact serves.turn (serves.undisturbed.proceeds taken rfl)
  | wake worker isLate =>
      have taken : service.step (.wake worker isLate) = some after := occurs
      rw [Service.submitted, List.append_nil]
      exact serves.turn (serves.undisturbed.proceeds taken rfl)
  | submit move ticket =>
      simp only [Service.occur?] at occurs
      split at occurs
      · next isUnit =>
          obtain rfl := Option.some.inj occurs
          obtain ⟨isUnit, notRun⟩ : move.isUnit = true ∧ move.isRun = false := by simpa using isUnit
          obtain ⟨undisturbed, waiting, world⟩ :=
            serves.undisturbed.submit (show (move.unit ticket).token = none from rfl)
          obtain ⟨moves, due, ran, awaits, inOrder⟩ := serves.follows
          refine ⟨undisturbed, world ▸ serves.sound, moves, due ++ [move], world ▸ ran, ?_, ?_⟩
          · rw [waiting, world]
            simpa using awaits.append (.move isUnit notRun ticket .nil)
          · rw [← List.append_assoc]
            exact inOrder.append_right [move]
      · cases occurs
  | apart move handling =>
      simp only [Service.occur?] at occurs
      split at occurs
      · cases occurs
      · next isApart =>
          obtain ⟨notUnit, notStop⟩ : move.isUnit = false ∧ move.isStop = false := by
            simpa using isApart
          have notRun : move.isRun = false := by
            cases move <;> first | rfl | cases notUnit
          obtain ⟨engine, taken, rfl⟩ := Option.map_eq_some_iff.mp occurs
          obtain ⟨moves, due, ran, awaits, inOrder⟩ := serves.follows
          have grown : engine.queued = service.world.queued ++ Service.queues service.world engine := by
            rcases serves.sound.queued_step taken notRun notStop with same | ⟨_, launched, more⟩
            · simp [Service.queues, same]
            · simp [Service.queues, more]
          obtain ⟨undisturbed, waiting, world⟩ :=
            Service.submitAll_spec (serves.undisturbed.withWorld engine)
              ((Service.queues service.world engine).map handling.unit)
              (by simp [Handling.unit, unit])
          refine ⟨undisturbed, world ▸ (step_shift taken).sound serves.sound, moves ++ [move],
            due ++ (Service.queues service.world engine).map fun _ => handling.move, ?_, ?_, ?_⟩
          · rw [world]
            exact run?_concat ran taken
          · rw [waiting, world, grown]
            exact awaits.append (awaits_executions handling _)
          · simp only [Service.submitted, taken, Option.elim_some, List.filter_append,
              List.filter_cons, notUnit, List.filter_nil]
            simpa using inOrder.append_right _

theorem Serves.course {occurrences : List (Occurrence Business)}
    (serves : Serves first service submitted) (came : service.course? occurrences = some after) :
    Serves first after (submitted ++ service.submissions occurrences) := by
  induction occurrences generalizing service submitted with
  | nil =>
      obtain rfl := Option.some.inj came
      simpa [Service.submissions] using serves
  | cons occurrence rest ih =>
      obtain ⟨middle, occurs, isRest⟩ := Option.bind_eq_some_iff.mp came
      rw [Service.submissions, occurs, Option.elim_some, ← List.append_assoc]
      exact ih (serves.occur occurs) isRest

/-- As long as nobody shuts the writer down, the engine behind it comes by a run of its own moves,
whatever happens and in whatever order; the moves of its units are made in the order in which the
units were submitted, and executions are run as they were queued. -/
theorem Fresh.served (fresh : first.Fresh) {config : WriterConfig} (sturdy : config.IsSturdy)
    {occurrences : List (Occurrence Business)}
    (came : (Service.opened config first).course? occurrences = some after) :
    ∃ moves, first.run? moves = some after.world ∧
      (moves.filter Move.isUnit).Sublist
        ((Service.opened config first).submissions occurrences) := by
  have none : first.queued = [] := by simp [queued, executions, fresh.dispatcher]
  have start : Serves first (Service.opened config first) [] :=
    ⟨Writer.Serializer.undisturbed_new sturdy first, fresh.sound, [], [], rfl, none ▸ .nil, .slnil⟩
  obtain ⟨moves, due, ran, _, inOrder⟩ := (start.course came).follows
  exact ⟨moves, ran, (List.sublist_append_left _ _).trans inOrder⟩

/-- One job is executed behind the writer, and its record is gone. -/
example :
    let handling : Handling Unit := ⟨fun _ => .done ⟨.success, .none⟩, 0, Instant.epoch⟩
    let serve : List (Occurrence Unit) := [.work 0, .work 0, .work 0]
    let occurrences : List (Occurrence Unit) :=
      [.apart .start handling, .submit (.recover 0 Instant.epoch) 0, .work 0, .work 0] ++ serve ++
        [.apart .count handling, .apart (.scan Instant.epoch Instant.epoch) handling,
          .submit (.decide Instant.epoch) 1] ++ serve ++
        [.apart (.launch Instant.epoch) handling] ++ serve
    ((Service.opened (WriterConfig.new "jobs" "jobs.db") sample).course? occurrences).any
      (fun service => service.world.database.jobs.rows.isEmpty) = true := by
  decide +kernel

end Serves

end DurableJobs.Engine
