import DurableJobs.Proofs.Writer.Journal

/-!
One unit at a time, in the order of acceptance, each answered once.

The units that were begun, then the one that a worker holds, come in the order in which they were
accepted, and all of them before the queue. What happens after a unit does not depend on its result.
A writer that nobody attends to has nothing left to do, unless a worker broke.
-/

set_option autoImplicit false

namespace DurableJobs.Writer

variable {World Result : Type}

namespace Serializer

section Active

variable {writer : Serializer World Result} {Item : Type}

/-- Only the active worker has what workers that refuse do not have. -/
theorem flatMap_workers (units : WorkerStage World Result → List Item)
    (noUnits : ∀ stage : WorkerStage World Result, stage.isActive = false → units stage = []) :
    (writer.workers.flatMap fun worker => units worker.stage) =
      writer.active.flatMap fun worker => units worker.stage := by
  unfold active
  induction writer.workers with
  | nil => rfl
  | cons worker rest ih =>
      cases isActive : worker.stage.isActive with
      | true => simp [isActive, ih]
      | false => simp [isActive, ih, noUnits worker.stage isActive]

theorem Sound.underway_length (sound : writer.Sound) : writer.underway.length ≤ 1 := by
  have noUnits : ∀ stage : WorkerStage World Result, stage.isActive = false →
      stage.underway = [] := by
    intro stage refuses
    cases stage <;> first | rfl | cases refuses
  rw [underway, flatMap_workers WorkerStage.underway noUnits]
  have few := sound.phase.few
  generalize writer.active = workers at few
  cases workers with
  | nil => simp
  | cons worker rest =>
      obtain rfl : rest = [] := by simpa using few
      obtain ⟨_, stage⟩ := worker
      cases stage <;> simp [WorkerStage.underway]

end Active

/-! ### Order -/

/-- The unit that the active worker holds. -/
def held (workers : List (Worker World Result)) : List (Work World Result) :=
  workers.flatMap fun worker => worker.stage.inHand

section Order

variable {writer rest : Serializer World Result} {id : Nat} {stage : WorkerStage World Result}
  {next? : Option (WorkerStage World Result)}

/-- The active worker begins or drops the unit that it holds, and takes from the front of the
queue. -/
theorem Turn.takes (turn : Turn writer stage next? rest) (isActive : stage.isActive = true)
    (id : Nat) :
    ∃ gone, writer.queue = gone ++ rest.queue ∧
      (next?.elim [] WorkerStage.underway ++
        held ((next?.toList.map (Worker.mk id)).filter fun worker => worker.stage.isActive)).Sublist
          (stage.inHand ++ gone) := by
  cases turn with
  | failOpening => exact ⟨writer.queue, by simp, List.nil_sublist _⟩
  | take _ isQueue => exact ⟨[_], by simp [isQueue], .refl _⟩
  | begin => exact ⟨[], rfl, .refl _⟩
  | empty => exact ⟨writer.queue, by simp, List.nil_sublist _⟩
  | refuse => cases isActive
  | leave => cases isActive
  | _ => exact ⟨[], rfl, List.nil_sublist _⟩

/-- The active worker of a writer that starts or runs stays unless it breaks. -/
theorem Turn.attends (turn : Turn writer stage next? rest) (isActive : stage.isActive = true)
    (opening : stage = .opening → writer.state ≠ .running) (goesOn : writer.breaksAt stage = false)
    (isOpen : rest.state = .starting ∨ rest.state = .running) :
    ((next?.toList.map (Worker.mk id)).filter fun worker => worker.stage.isActive) ≠ [] := by
  cases turn with
  | breakOpening broken => simp [breaksAt, broken] at goesOn
  | failOpening =>
      have notRunning := opening rfl
      by_cases isStarting : writer.state = .starting
      · simp [isStarting] at isOpen
      · simp [isStarting, notRunning] at isOpen
  | breakWaiting broken => exact absurd broken (by simpa [breaksAt] using goesOn)
  | lapse => simp at isOpen
  | empty => simp at isOpen
  | refuse => cases isActive
  | leave => cases isActive
  | _ => exact List.cons_ne_nil _ _

/-- Only a unit whose token is not canceled is begun. -/
theorem Turn.wanted (turn : Turn writer stage next? rest) {work : Work World Result}
    (begun : work ∈ next?.elim [] WorkerStage.underway) : writer.isCanceled work = false := by
  cases turn with
  | begin wanted =>
      obtain rfl := List.mem_singleton.mp begun
      exact wanted
  | _ => cases begun

theorem isCanceled_of_subset {after : Serializer World Result} {work : Work World Result}
    (more : writer.canceled ⊆ after.canceled) (wanted : after.isCanceled work = false) :
    writer.isCanceled work = false := by
  cases isToken : work.token with
  | none => simp [isCanceled, isToken]
  | some token =>
      simp only [isCanceled, isToken, List.contains_eq_mem, decide_eq_false_iff_not] at wanted ⊢
      exact fun member => wanted (more member)

end Order

/-! ### Indifference to results -/

/-- The same writer after some replies more. -/
def withEarlier (writer : Serializer World Result) (earlier : List (Reply Result)) :
    Serializer World Result :=
  { writer with replies := earlier ++ writer.replies }

section Indifference

variable (writer : Serializer World Result) (earlier : List (Reply Result))

theorem withEarlier_reply (ticket : Nat) (result : Except EngineError Result) :
    (writer.withEarlier earlier).reply ticket result =
      (writer.reply ticket result).withEarlier earlier := by
  simp [withEarlier, reply]

theorem submit_withEarlier (work : Work World Result) (canStart : Bool) :
    (writer.withEarlier earlier).submit work canStart =
      (writer.submit work canStart).withEarlier earlier := by
  have same : (writer.withEarlier earlier).state = writer.state := rfl
  unfold submit
  rw [same]
  cases writer.state with
  | idle =>
      cases canStart with
      | true => rfl
      | false => exact withEarlier_reply writer earlier _ _
  | starting => rfl
  | running => rfl
  | stopping => exact withEarlier_reply writer earlier _ _
  | stopped => exact withEarlier_reply writer earlier _ _

theorem openWorker_withEarlier (id : Nat) :
    (writer.withEarlier earlier).openWorker id = (writer.openWorker id).withEarlier earlier := by
  have same : (writer.withEarlier earlier).openConnection = writer.openConnection := rfl
  unfold openWorker
  rw [same]
  split <;> rfl

theorem choose_withEarlier (id : Nat) (isLate : Bool) :
    (writer.withEarlier earlier).choose id isLate =
      (writer.choose id isLate).withEarlier earlier := by
  have sameConfig : (writer.withEarlier earlier).config = writer.config := rfl
  have sameSignal : (writer.withEarlier earlier).isSignalled = writer.isSignalled := rfl
  have sameQueue : (writer.withEarlier earlier).queue = writer.queue := rfl
  unfold choose
  rw [sameConfig, sameSignal, sameQueue]
  split
  · rfl
  · split
    · rfl
    · split
      · rfl
      · split <;> rfl

theorem advance_withEarlier (id : Nat) (stage : WorkerStage World Result) :
    (writer.withEarlier earlier).advance id stage =
      (writer.advance id stage).map fun after => after.withEarlier earlier := by
  cases stage with
  | opening => exact congrArg some (openWorker_withEarlier writer earlier id)
  | opened => rfl
  | choosing isLate => exact congrArg some (choose_withEarlier writer earlier id isLate)
  | waiting => rfl
  | holding work =>
      have same : (writer.withEarlier earlier).isCanceled work = writer.isCanceled work := rfl
      simp only [advance, same, withEarlier_reply]
      split <;> rfl
  | executing work =>
      simp only [advance, withEarlier_reply]
      split
      · rfl
      · exact congrArg (fun after => some (setWorker after id (.choosing false)))
          (withEarlier_reply { writer with world := (work.body writer.world).2 } earlier _ _)
  | closing => rfl
  | refusing works error =>
      cases works with
      | nil => rfl
      | cons work rest => simp only [advance, withEarlier_reply]; rfl

theorem beginShutdown_withEarlier (call : Nat) :
    (writer.withEarlier earlier).beginShutdown call =
      (writer.beginShutdown call).withEarlier earlier := by
  have same : (writer.withEarlier earlier).state = writer.state := rfl
  unfold beginShutdown
  rw [same]
  cases writer.state <;> rfl

theorem proceed_withEarlier (call : Nat) (stage : ShutdownStage World Result) :
    (writer.withEarlier earlier).proceed call stage =
      (writer.proceed call stage).map fun after => after.withEarlier earlier := by
  cases stage with
  | announced worker => rfl
  | signalled worker =>
      cases worker with
      | none => rfl
      | some id =>
          have same : (writer.withEarlier earlier).worker? id = writer.worker? id := rfl
          simp only [proceed, same]
          split <;> rfl
  | joined => rfl
  | refusing works =>
      cases works with
      | nil => rfl
      | cons work rest => simp only [proceed, withEarlier_reply]; rfl
  | returned => rfl

/-- Nothing that happens depends on the replies given so far. -/
theorem step_withEarlier (event : Event World Result) :
    (writer.withEarlier earlier).step event =
      (writer.step event).map fun after => after.withEarlier earlier := by
  have sameWorker : ∀ id, (writer.withEarlier earlier).worker? id = writer.worker? id := by
    intro id
    rfl
  have sameCall : ∀ call, (writer.withEarlier earlier).shutdown? call = writer.shutdown? call := by
    intro call
    rfl
  cases event with
  | submit work canStart => exact congrArg some (submit_withEarlier writer earlier work canStart)
  | cancel token => rfl
  | wake id isLate =>
      simp only [step, sameWorker]
      split <;> rfl
  | work id =>
      simp only [step, sameWorker]
      cases writer.worker? id with
      | none => rfl
      | some stage => exact advance_withEarlier writer earlier id stage
  | shutdown call =>
      simp only [step, sameCall]
      split
      · rfl
      · exact congrArg some (beginShutdown_withEarlier writer earlier call)
  | proceed call =>
      simp only [step, sameCall]
      cases writer.shutdown? call with
      | none => rfl
      | some stage => exact proceed_withEarlier writer earlier call stage

theorem run?_withEarlier (events : List (Event World Result)) :
    (writer.withEarlier earlier).run? events =
      (writer.run? events).map fun after => after.withEarlier earlier := by
  induction events generalizing writer with
  | nil => rfl
  | cons event rest ih =>
      simp only [run?, step_withEarlier]
      cases writer.step event with
      | none => rfl
      | some after => exact ih after

end Indifference

end Serializer

namespace Journal

open Serializer

/-- The units begun, then the one held, come in order of acceptance before the queue. -/
def InOrder (journal : Journal World Result) : Prop :=
  ∃ front, journal.accepted = front ++ journal.writer.queue ∧
    (journal.begun ++ held journal.writer.active).Sublist front

/-- Nobody leaves a writer that starts or runs, unless a worker breaks. -/
def Attended (journal : Journal World Result) : Prop :=
  journal.isBroken = false →
    journal.writer.state = .starting ∨ journal.writer.state = .running → journal.writer.active ≠ []

section Order

variable {journal later : Journal World Result} {event : Event World Result}
  {after : Serializer World Result}

/-- A step that no worker takes leaves the order, if it leaves the queue or empties it. -/
theorem InOrder.passOutside (inOrder : journal.InOrder) (gone : List (Work World Result))
    (nobody : event.worker? = none)
    (held : held after.active = held journal.writer.active)
    (queue : journal.writer.queue ++ journal.writer.accepts after event = gone ++ after.queue) :
    (journal.note event after).InOrder := by
  obtain ⟨front, isFront, ordered⟩ := inOrder
  refine ⟨front ++ gone, ?_, ?_⟩
  · rw [note_accepted, note_writer, isFront, List.append_assoc, queue, List.append_assoc]
  · rw [note_begun, note_writer, begins_of_no_worker nobody, List.append_nil, held]
    exact ordered.trans (List.sublist_append_left _ _)

theorem InOrder.turn (inOrder : journal.InOrder) (sound : journal.writer.Sound) {id : Nat}
    {stage : WorkerStage World Result} {next? : Option (WorkerStage World Result)}
    {rest : Serializer World Result} (taker : event.worker? = some id)
    (found : journal.writer.worker? id = some stage)
    (turn : Turn journal.writer stage next? rest) :
    (journal.note event (rest.place id next?)).InOrder := by
  have cast := turn.sameCast.1
  have distinct := cast.distinct sound.distinct
  have restFound : rest.worker? id = some stage := (cast.worker? id).trans found
  have few : rest.active.length ≤ 1 := cast.active ▸ sound.phase.few
  obtain ⟨front, isFront, ordered⟩ := inOrder
  have accepts : journal.writer.accepts (rest.place id next?) event = [] := accepts_of_worker taker
  have begins := begins_place distinct taker restFound next?
  cases isActive : stage.isActive with
  | false =>
      obtain ⟨still, _, queue⟩ := turn.refusing isActive
      have begun : next?.elim [] WorkerStage.underway = [] := by
        cases next? with
        | none => rfl
        | some next =>
            have refuses := still next rfl
            cases next <;> first | rfl | cases refuses
      refine ⟨front, ?_, ?_⟩
      · rw [note_accepted, accepts, List.append_nil, isFront, ← queue]
        rfl
      · rw [note_begun, note_writer, begins, begun, List.append_nil,
          active_place_of_refusing distinct few restFound isActive still, cast.active]
        exact ordered
  | true =>
      -- Nobody else is active, so what is held before the turn is what its taker holds.
      obtain ⟨gone, queue, taken⟩ := turn.takes isActive id
      have before : held journal.writer.active = stage.inHand := by
        rw [(others_not_active sound.distinct sound.phase.few found isActive).1]
        exact List.append_nil _
      refine ⟨front ++ gone, ?_, ?_⟩
      · rw [note_accepted, accepts, List.append_nil, isFront, queue, List.append_assoc]
        rfl
      · rw [note_begun, note_writer, begins, active_place distinct few restFound isActive,
          List.append_assoc]
        refine (taken.append_left journal.begun).trans ?_
        rw [before] at ordered
        rw [← List.append_assoc]
        exact ordered.append_right gone

theorem InOrder.step (inOrder : journal.InOrder) (sound : journal.writer.Sound)
    (taken : journal.step event = some later) : later.InOrder := by
  obtain ⟨after, stepped, rfl⟩ := Option.map_eq_some_iff.mp taken
  cases step_cases stepped with
  | submit work canStart =>
      rcases submit_cases journal.writer work canStart with
        ⟨error, _, isAfter⟩ | ⟨_, _, isAfter⟩ | ⟨_, isAfter⟩
      · rw [isAfter]
        exact inOrder.passOutside [] rfl rfl (by simp [accepts])
      · rw [isAfter]
        refine inOrder.passOutside [] rfl ?_ (by simp [accepts])
        simp [active, held, List.filter_append, WorkerStage.isActive, WorkerStage.inHand]
      · rw [isAfter]
        exact inOrder.passOutside [] rfl rfl (by simp [accepts])
  | cancel token => exact inOrder.passOutside [] rfl rfl (by simp [accepts])
  | turn taker found turn => exact inOrder.turn sound taker found turn
  | shutdown fresh =>
      rcases beginShutdown_cases journal.writer _ with
        ⟨_, isAfter⟩ | ⟨_, isAfter⟩ | ⟨_, _, isAfter⟩
      all_goals
        rw [isAfter]
        exact inOrder.passOutside [] rfl rfl (by simp [accepts])
  | proceed found turn =>
      have sameActive := turn.sameCast.active
      rcases turn.state_cases with ⟨_, _, rfl⟩ | ⟨_, queue, _⟩
      · exact inOrder.passOutside journal.writer.queue rfl rfl rfl
      · refine inOrder.passOutside [] rfl (congrArg held sameActive) ?_
        exact (List.append_nil _).trans queue.symm

theorem Attended.turn (attended : journal.Attended) (sound : journal.writer.Sound) {id : Nat}
    {stage : WorkerStage World Result} {next? : Option (WorkerStage World Result)}
    {rest : Serializer World Result} (taker : event.worker? = some id)
    (found : journal.writer.worker? id = some stage)
    (turn : Turn journal.writer stage next? rest) :
    (journal.note event (rest.place id next?)).Attended := by
  have cast := turn.sameCast.1
  have distinct := cast.distinct sound.distinct
  have restFound : rest.worker? id = some stage := (cast.worker? id).trans found
  have few : rest.active.length ≤ 1 := cast.active ▸ sound.phase.few
  intro whole isOpen
  obtain ⟨wholeBefore, goesOn⟩ := Bool.or_eq_false_iff.mp whole
  rw [note_writer] at isOpen ⊢
  change rest.state = .starting ∨ rest.state = .running at isOpen
  cases isActive : stage.isActive with
  | false =>
      obtain ⟨still, state, _⟩ := turn.refusing isActive
      rw [active_place_of_refusing distinct few restFound isActive still, cast.active]
      exact attended wholeBefore (state ▸ isOpen)
  | true =>
      rw [active_place distinct few restFound isActive]
      refine turn.attends isActive ?_ ?_ isOpen
      -- A worker that still opens the connection has not let the writer run.
      · rintro rfl
        have phase := sound.phase
        rw [(others_not_active sound.distinct sound.phase.few found isActive).1] at phase
        intro isRunning
        cases phase with
        | starting isState => cases isRunning.symm.trans isState
        | running _ _ opened => cases opened
        | stopping isState => cases isRunning.symm.trans isState
        | stopped isState => cases isRunning.symm.trans isState
      · simpa [isBreak, taker, found] using goesOn

theorem Attended.step (attended : journal.Attended) (sound : journal.writer.Sound)
    (taken : journal.step event = some later) : later.Attended := by
  obtain ⟨after, stepped, rfl⟩ := Option.map_eq_some_iff.mp taken
  cases step_cases stepped with
  | submit work canStart =>
      intro whole isOpen
      have before := attended (Bool.or_eq_false_iff.mp whole).1
      rcases submit_cases journal.writer work canStart with
        ⟨error, _, isAfter⟩ | ⟨_, _, isAfter⟩ | ⟨_, isAfter⟩
      · rw [note_writer, isAfter] at isOpen ⊢
        exact before isOpen
      · rw [note_writer, isAfter]
        simp [active, List.filter_append, WorkerStage.isActive]
      · rw [note_writer, isAfter] at isOpen ⊢
        exact before isOpen
  | cancel token => exact fun whole => attended (Bool.or_eq_false_iff.mp whole).1
  | turn taker found turn => exact attended.turn sound taker found turn
  | shutdown fresh =>
      intro whole isOpen
      have before := attended (Bool.or_eq_false_iff.mp whole).1
      rcases beginShutdown_cases journal.writer _ with
        ⟨_, isAfter⟩ | ⟨_, isAfter⟩ | ⟨_, _, isAfter⟩
      · rw [note_writer, isAfter] at isOpen ⊢
        exact before isOpen
      · simp [isAfter] at isOpen
      · simp [isAfter] at isOpen
  | @proceed call _ next rest found turn =>
      intro whole isOpen
      have before := attended (Bool.or_eq_false_iff.mp whole).1
      have sameActive : (rest.setShutdown call next).active = journal.writer.active :=
        turn.sameCast.active
      rw [note_writer] at isOpen ⊢
      rw [sameActive]
      rcases turn.state_cases with ⟨_, _, rfl⟩ | ⟨state, _⟩
      · simp [setShutdown] at isOpen
      · exact before (state ▸ isOpen)

/-- A unit whose token is canceled before it is begun is never begun. -/
theorem begun_of_run (sound : journal.writer.Sound) {events : List (Event World Result)}
    (ran : journal.run? events = some later) :
    ∃ fresh, later.begun = journal.begun ++ fresh ∧
      ∀ work ∈ fresh, journal.writer.isCanceled work = false := by
  induction events generalizing journal with
  | nil =>
      obtain rfl := Option.some.inj ran
      exact ⟨[], (List.append_nil _).symm, by simp⟩
  | cons event rest ih =>
      obtain ⟨middle, taken, isRest⟩ := Option.bind_eq_some_iff.mp ran
      obtain ⟨after, stepped, rfl⟩ := Option.map_eq_some_iff.mp taken
      obtain ⟨fresh, isLater, wanted⟩ := ih (sound.step stepped) isRest
      have more := (step_cases stepped).lasting.canceled
      refine ⟨after.begins event ++ fresh, ?_, ?_⟩
      · rw [isLater, note_begun, List.append_assoc]
      · intro work member
        rcases List.mem_append.mp member with now | afterwards
        · cases step_cases stepped with
          | turn taker found turn =>
              have cast := turn.sameCast.1
              rw [begins_place (cast.distinct sound.distinct) taker
                ((cast.worker? _).trans found) _] at now
              exact turn.wanted now
          | _ => cases now
        · exact isCanceled_of_subset more (wanted work afterwards)

end Order

/-! ### Serialization -/

/-- Opening a connection gives an answer, whatever the database holds. -/
def Opens (writer : Serializer World Result) : Prop :=
  ∀ world, ({ writer with world := world } : Serializer World Result).openConnection.1 ≠ none

/-- Nothing is left to do when nobody is there. -/
def Settled (journal : Journal World Result) : Prop :=
  journal.writer.workers = [] →
    (∀ shutdown ∈ journal.writer.shutdowns, shutdown.stage = .returned) →
      journal.writer.queue = [] ∧
        ∀ ticket, answers journal.writer.replies ticket = tally journal.submitted ticket

/-- What the writer keeps for all units that are submitted to it. -/
structure Serialized (journal : Journal World Result) : Prop where
  alone : journal.writer.underway.length ≤ 1
  inOrder : journal.begun.Sublist journal.accepted
  /-- A ticket has no more replies than units: one for each unit that was run and for each that was
  given up, and no unit is both begun and given up. -/
  once : ∀ ticket,
    answers journal.writer.replies ticket =
        answers journal.ran ticket + answers journal.aborted ticket ∧
      answers journal.ran ticket ≤ tally journal.begun ticket ∧
      tally journal.begun ticket + answers journal.aborted ticket ≤ tally journal.submitted ticket
  own : ∀ reply ∈ journal.ran, ∃ work ∈ journal.begun, ∃ world,
    reply = ⟨work.ticket, (work.perform world).1⟩
  aborted : ∀ reply ∈ journal.aborted, ∃ error, error.isAbort = true ∧ reply.result = .error error
  skipped : ∀ events later, journal.run? events = some later →
    ∃ fresh, later.begun = journal.begun ++ fresh ∧
      ∀ work ∈ fresh, journal.writer.isCanceled work = false
  /-- After a unit its worker looks for the next one, and whatever result the unit has, the same
  things can happen with the same outcome. -/
  goesOn : ∀ id work, journal.writer.worker? id = some (.executing work) →
    ∃ rest : Serializer World Result,
      journal.writer.step (.work id) = some (rest.withEarlier
        (journal.writer.replies ++ [⟨work.ticket, (work.perform journal.writer.world).1⟩])) ∧
      rest.worker? id = some (.choosing false) ∧ rest.queue = journal.writer.queue ∧
      rest.state = journal.writer.state ∧
      ∀ result events,
        (rest.withEarlier (journal.writer.replies ++ [⟨work.ticket, result⟩])).run? events =
          (rest.run? events).map fun after =>
            after.withEarlier (journal.writer.replies ++ [⟨work.ticket, result⟩])
  /-- A worker looks for work with a deadline, which must not lie past all that a clock can show. -/
  settled : Opens journal.writer →
    journal.writer.config.idleTimeout.seconds ≤ longestIdleSeconds → journal.Settled

section Serialized

variable {journal : Journal World Result}

theorem inOrder_new (config : WriterConfig)
    (connect prepare : World → Except EngineError Unit × World) (world : World) :
    (new config connect prepare world : Journal World Result).InOrder :=
  ⟨[], rfl, .refl _⟩

theorem attended_new (config : WriterConfig)
    (connect prepare : World → Except EngineError Unit × World) (world : World) :
    (new config connect prepare world : Journal World Result).Attended := by
  intro _ isOpen
  simp [new, Serializer.new] at isOpen

theorem Reachable.inOrder (reachable : journal.Reachable) : journal.InOrder := by
  induction reachable with
  | new config connect prepare world => exact inOrder_new config connect prepare world
  | step before _ taken ih => exact ih.step before.writer.sound taken

theorem Reachable.attended (reachable : journal.Reachable) : journal.Attended := by
  induction reachable with
  | new config connect prepare world => exact attended_new config connect prepare world
  | step before _ taken ih => exact ih.step before.writer.sound taken

theorem Opens.of_step {writer after : Serializer World Result} {event : Event World Result}
    (opens : Opens after) (taken : writer.step event = some after) : Opens writer := by
  have lasting := (step_cases taken).lasting
  intro world
  have answered := opens world
  simp only [openConnection, lasting.config, lasting.connect, lasting.prepare] at answered ⊢
  exact answered

theorem breaksAt_eq_false {writer : Serializer World Result} (opens : Opens writer)
    (fits : writer.config.idleTimeout.seconds ≤ longestIdleSeconds)
    (stage : WorkerStage World Result) : writer.breaksAt stage = false := by
  cases stage with
  | opening =>
      obtain ⟨answer, isAnswer⟩ := Option.ne_none_iff_exists'.mp (opens writer.world)
      have answered : writer.openConnection.1 = some answer := isAnswer
      simp [breaksAt, answered]
  | choosing isLate => simpa [breaksAt] using fits
  | _ => rfl

/-- If connections can be opened and the deadlines fit, no worker ever breaks outside of a unit. -/
theorem Reachable.isBroken_eq_false (reachable : journal.Reachable) (opens : Opens journal.writer)
    (fits : journal.writer.config.idleTimeout.seconds ≤ longestIdleSeconds) :
    journal.isBroken = false := by
  induction reachable with
  | new config connect prepare world => rfl
  | @step before _ _ event taken ih =>
      obtain ⟨after, stepped, rfl⟩ := Option.map_eq_some_iff.mp taken
      have opensBefore : Opens before.writer := opens.of_step stepped
      have fitsBefore : before.writer.config.idleTimeout.seconds ≤ longestIdleSeconds :=
        (step_cases stepped).lasting.config ▸ fits
      have goesOn : before.writer.isBreak event = false := by
        unfold isBreak
        cases event.worker?.bind before.writer.worker? with
        | none => rfl
        | some stage => exact breaksAt_eq_false opensBefore fitsBefore stage
      rw [note_isBroken, ih opensBefore fitsBefore, goesOn]
      rfl

/-- Without a worker and a call in progress, the writer is idle or stopped, or a worker broke. -/
theorem Reachable.empty_of_nobody (reachable : journal.Reachable)
    (whole : journal.isBroken = false) (nobody : journal.writer.workers = [])
    (returned : ∀ shutdown ∈ journal.writer.shutdowns, shutdown.stage = .returned) :
    journal.writer.queue = [] := by
  have noActive : journal.writer.active = [] := by simp [active, nobody]
  have attended := reachable.attended whole
  have phase := reachable.writer.sound.phase
  rw [noActive] at phase
  cases phase with
  | idle _ empty => exact empty
  | stopping _ _ pending =>
      obtain ⟨shutdown, member, isPending⟩ := pending
      rw [returned shutdown member] at isPending
      cases isPending
  | stopped _ _ empty => exact empty
  | broken isOpen => exact absurd noActive (attended isOpen)

theorem Reachable.goesOn (reachable : journal.Reachable) {id : Nat} {work : Work World Result}
    (found : journal.writer.worker? id = some (.executing work)) :
    ∃ rest : Serializer World Result,
      journal.writer.step (.work id) = some (rest.withEarlier
        (journal.writer.replies ++ [⟨work.ticket, (work.perform journal.writer.world).1⟩])) ∧
      rest.worker? id = some (.choosing false) ∧ rest.queue = journal.writer.queue ∧
      rest.state = journal.writer.state := by
  have distinct := reachable.writer.sound.distinct
  let silent : Serializer World Result :=
    { journal.writer with world := (work.perform journal.writer.world).2, replies := [] }
  refine ⟨silent.place id (some (.choosing false)), ?_, ?_, rfl, rfl⟩
  · simp only [Serializer.step, found, Option.bind_some, advance_executing]
    simp only [Serializer.reply, Serializer.place, withEarlier, silent, List.append_nil]
    rfl
  · have silentDistinct : silent.Distinct := ⟨distinct.workers, distinct.shutdowns⟩
    exact worker?_place silentDistinct found (some (.choosing false))

/-- At every point of every course of submissions, cancellations, turns of workers and calls of
`shutdown`, in any order. -/
theorem serialized_of_reachable (reachable : journal.Reachable) : journal.Serialized where
  alone := reachable.writer.sound.underway_length
  inOrder := by
    obtain ⟨front, isFront, ordered⟩ := reachable.inOrder
    rw [isFront]
    exact ((List.sublist_append_left _ _).trans ordered).trans (List.sublist_append_left _ _)
  once := by
    intro ticket
    have submitted := reachable.accounted.submitted ticket
    have begun := reachable.accounted.begun ticket
    exact ⟨reachable.accounted.replies ticket, by omega, by omega⟩
  own := reachable.accounted.own
  aborted := reachable.accounted.aborted
  skipped := fun _ _ ran => begun_of_run reachable.writer.sound ran
  goesOn := by
    intro id work found
    obtain ⟨rest, stepped, looks, queue, state⟩ := reachable.goesOn found
    exact ⟨rest, stepped, looks, queue, state, fun _ events => run?_withEarlier rest _ events⟩
  settled := by
    intro opens fits nobody returned
    have empty :=
      reachable.empty_of_nobody (reachable.isBroken_eq_false opens fits) nobody returned
    refine ⟨empty, fun ticket => ?_⟩
    have noneHeld : journal.writer.inHand = [] := by
      simp only [Serializer.inHand, nobody, List.flatMap_nil, List.nil_append]
      refine List.flatMap_eq_nil_iff.mpr fun shutdown member => ?_
      rw [returned shutdown member]
      rfl
    have noneRuns : journal.writer.underway = [] := by simp [Serializer.underway, nobody]
    have submitted := reachable.accounted.submitted ticket
    have begun := reachable.accounted.begun ticket
    have replies := reachable.accounted.replies ticket
    rw [empty, noneHeld] at submitted
    rw [noneRuns] at begun
    simp only [tally_nil] at submitted begun
    omega

end Serialized

end Journal

end DurableJobs.Writer
