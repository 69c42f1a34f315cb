import DurableJobs.Proofs.Writer.Serialization

/-!
Progress of a writer without shutdowns.

As long as there is work, the active worker can take a turn, and three turns for each unit and two
to open the connection bring it to the end of the queue. This holds for exactly the configurations
that break no worker: a worker that breaks leaves its queue to nobody.
-/

set_option autoImplicit false

namespace DurableJobs.Writer

variable {World Result : Type}

def Event.isShutdown : Event World Result → Bool
  | .shutdown _ => true
  | _ => false

/-- How many turns a worker takes at most before it looks for work, or waits for it. -/
def WorkerStage.delay : WorkerStage World Result → Nat
  | .opening => 2
  | .opened => 1
  | .waiting => 1
  | .holding _ => 2
  | .executing _ => 1
  | _ => 0

namespace Serializer

section Turns

variable {writer rest : Serializer World Result} {id : Nat} {stage : WorkerStage World Result}
  {next? : Option (WorkerStage World Result)}

theorem exists_turn (found : writer.worker? id = some stage) :
    ∃ event : Event World Result, event.worker? = some id ∧ (writer.step event).isSome = true := by
  cases stage with
  | waiting => exact ⟨.wake id true, rfl, by simp [step, found]⟩
  | holding work =>
      refine ⟨.work id, rfl, ?_⟩
      simp only [step, found, Option.bind_some, advance]
      split <;> rfl
  | executing work => exact ⟨.work id, rfl, by simp [step, found, advance_executing]⟩
  | refusing works error => exact ⟨.work id, rfl, by cases works <;> simp [step, found, advance]⟩
  | _ => exact ⟨.work id, rfl, by simp [step, found, advance]⟩

/-- A worker stays where it is while another one takes a turn. -/
theorem worker?_place_of_ne (distinct : writer.Distinct) {other : Nat}
    (taker : writer.worker? other = some stage) (different : id ≠ other)
    {own : WorkerStage World Result} (found : writer.worker? id = some own) :
    (writer.place other next?).worker? id = some own := by
  have member : (⟨id, own⟩ : Worker World Result) ∈ (writer.place other next?).workers :=
    (mem_place distinct taker).mpr (.inr ⟨mem_of_worker? found, different⟩)
  exact (distinct.place other next?).worker?_of_mem member

/-- A writer that was never shut down starts or runs while a worker is active. -/
theorem Sound.open_of_active (sound : writer.Sound) (quiet : writer.shutdowns = [])
    (found : writer.worker? id = some stage) (isActive : stage.isActive = true) :
    writer.state = .starting ∨ writer.state = .running := by
  have only := (others_not_active sound.distinct sound.phase.few found isActive).1
  rcases sound.phase.of_quiet quiet with ⟨_, _, nobody⟩ | ⟨isOpen, _⟩
  · rw [only] at nobody
    cases nobody
  · exact isOpen

/-- A turn with work in the queue brings the active worker nearer to its end, unless the connection
cannot be opened, which leaves nothing in the queue. -/
theorem Turn.nears (turn : Turn writer stage next? rest) (isActive : stage.isActive = true)
    (sturdy : writer.config.IsSturdy) (goesOn : writer.isSignalled = false)
    (notClosing : stage ≠ .closing) (work : writer.queue ≠ []) :
    rest.queue = [] ∨
      ∃ next gone, next? = some next ∧ next.isActive = true ∧ gone ≤ 1 ∧
        writer.queue.length = gone + rest.queue.length ∧
        next.delay + 1 ≤ stage.delay + 3 * gone := by
  cases turn with
  | breakOpening broken => exact absurd sturdy (not_isSturdy_of_openConnection broken)
  | failOpening => exact .inl rfl
  | breakWaiting broken => exact absurd sturdy.2 (Nat.not_le.mpr broken)
  | close signalled => cases goesOn.symm.trans signalled
  | take _ isQueue =>
      exact .inr ⟨_, 1, rfl, rfl, by simp, by simp [isQueue, Nat.add_comm], Nat.le_refl _⟩
  | lapse _ _ empty => exact absurd empty work
  | wait _ empty => exact absurd empty work
  | empty => exact absurd rfl notClosing
  | refuse => cases isActive
  | leave => cases isActive
  | _ => exact .inr ⟨_, 0, rfl, rfl, by simp, by simp, by simp [WorkerStage.delay]⟩

end Turns

section Steps

variable {writer after : Serializer World Result} {event : Event World Result}

/-- Units leave the queue at its front and enter it at its end. -/
theorem Step.moves (step : Step writer event after) :
    ∃ gone, writer.queue ++ writer.accepts after event = gone ++ after.queue := by
  cases step with
  | submit work canStart =>
      refine ⟨[], ?_⟩
      rcases submit_cases writer work canStart with ⟨_, _, isAfter⟩ | ⟨_, _, isAfter⟩ | ⟨_, isAfter⟩
      all_goals simp [accepts, isAfter]
  | cancel token => exact ⟨[], List.append_nil _⟩
  | @turn _ id stage next? rest taker found turn =>
      rw [Journal.accepts_of_worker taker, List.append_nil]
      cases isActive : stage.isActive with
      | false => exact ⟨[], (turn.refusing isActive).2.2.symm⟩
      | true =>
          obtain ⟨gone, queue, _⟩ := turn.takes isActive id
          exact ⟨gone, queue⟩
  | @shutdown call fresh =>
      refine ⟨[], ?_⟩
      rcases beginShutdown_cases writer call with ⟨_, isAfter⟩ | ⟨_, isAfter⟩ | ⟨_, _, isAfter⟩
      all_goals simp [accepts, isAfter]
  | proceed found turn =>
      rcases turn.state_cases with ⟨_, _, rfl⟩ | ⟨_, queue, _⟩
      · exact ⟨writer.queue, rfl⟩
      · exact ⟨[], (List.append_nil _).trans queue.symm⟩

theorem Step.quiet (step : Step writer event after) (quiet : writer.shutdowns = [])
    (noCall : event.isShutdown = false) : after.shutdowns = [] := by
  cases step with
  | submit work canStart =>
      rcases submit_cases writer work canStart with ⟨_, _, isAfter⟩ | ⟨_, _, isAfter⟩ | ⟨_, isAfter⟩
      all_goals
        rw [isAfter]
        exact quiet
  | cancel token => exact quiet
  | turn _ _ turn => exact turn.sameCast.1.shutdowns.trans quiet
  | shutdown => cases noCall
  | proceed found =>
      have here := mem_of_shutdown? found
      rw [quiet] at here
      cases here

end Steps

end Serializer

namespace Journal

open Serializer

/-- How many units that were accepted have left the queue. -/
def reached (journal : Journal World Result) : Nat :=
  journal.accepted.length - journal.writer.queue.length

/-- A worker that will reach all units in the queue. However things go on without a shutdown, until
all of them have left the queue the worker can take a turn, and it has had only so many. -/
def WillReach (journal : Journal World Result) (id : Nat) : Prop :=
  ∀ events later, journal.run? events = some later →
    (∀ event ∈ events, event.isShutdown = false) →
      journal.accepted.length ≤ later.reached ∨
        ((∃ event, event.worker? = some id ∧ (later.writer.step event).isSome = true) ∧
          events.countP (fun event => event.worker? = some id) < 3 * journal.writer.queue.length)

/-- After so many turns the worker has as few left, unless there is nothing more to reach. -/
def IsNear (start : Journal World Result) (id spent : Nat) (journal : Journal World Result) :
    Prop :=
  start.accepted.length ≤ journal.reached ∨
    ∃ stage, journal.writer.worker? id = some stage ∧ stage.isActive = true ∧
      spent + stage.delay + 3 * (start.accepted.length - journal.reached) <
        3 * start.writer.queue.length + 3

/-- The worker has come nearer to the end of the queue with each turn that it had. -/
structure Approaches (start : Journal World Result) (id spent : Nat)
    (journal : Journal World Result) : Prop where
  grown : start.accepted.length ≤ journal.accepted.length
  quiet : journal.writer.shutdowns = []
  near : IsNear start id spent journal

section Approaches

variable {start journal later : Journal World Result} {event : Event World Result}
  {after : Serializer World Result} {id spent : Nat}

theorem Reachable.queue_length_le (reachable : journal.Reachable) :
    journal.writer.queue.length ≤ journal.accepted.length := by
  obtain ⟨front, isFront, _⟩ := reachable.inOrder
  simp [isFront]

theorem reached_note (bound : journal.writer.queue.length ≤ journal.accepted.length)
    {gone : List (Work World Result)}
    (moves : journal.writer.queue ++ journal.writer.accepts after event = gone ++ after.queue) :
    (journal.note event after).reached = journal.reached + gone.length := by
  have lengths := congrArg List.length moves
  simp only [List.length_append] at lengths
  simp only [reached, note_accepted, note_writer, List.length_append]
  omega

theorem reached_of_turn {other : Nat} {next? : Option (WorkerStage World Result)}
    {rest : Serializer World Result} (taker : event.worker? = some other) :
    (journal.note event (rest.place other next?)).reached =
      journal.accepted.length - rest.queue.length := by
  simp only [reached, note_accepted, note_writer, accepts_of_worker taker, List.append_nil]
  rfl

/-- The worker's own turn. -/
theorem Approaches.ownTurn (approaches : Approaches start id spent journal)
    (reachable : journal.Reachable) (sturdy : journal.writer.config.IsSturdy)
    {stage : WorkerStage World Result} {next? : Option (WorkerStage World Result)}
    {rest : Serializer World Result} (taker : event.worker? = some id)
    (found : journal.writer.worker? id = some stage) (isActive : stage.isActive = true)
    (turn : Turn journal.writer stage next? rest) (ahead : journal.reached < start.accepted.length)
    (near : spent + stage.delay + 3 * (start.accepted.length - journal.reached) <
      3 * start.writer.queue.length + 3) :
    IsNear start id (spent + 1) (journal.note event (rest.place id next?)) := by
  have sound := reachable.writer.sound
  have grown := approaches.grown
  have cast := turn.sameCast.1
  have goesOn : journal.writer.isSignalled = false := by
    by_contra signalled
    exact sound.called (by simpa using signalled) approaches.quiet
  have notClosing : stage ≠ .closing := by
    rintro rfl
    cases goesOn.symm.trans (sound.closing _ (mem_of_worker? found) rfl)
  have work : journal.writer.queue ≠ [] := by
    intro empty
    rw [reached, empty] at ahead
    exact absurd ahead (Nat.not_lt.mpr grown)
  rw [IsNear, reached_of_turn taker]
  rcases turn.nears isActive sturdy goesOn notClosing work with
    empty | ⟨next, gone, rfl, nextActive, few, moves, nearer⟩
  · left
    simpa [empty] using grown
  · right
    refine ⟨next, ?_, nextActive, ?_⟩
    · exact worker?_place (cast.distinct sound.distinct) ((cast.worker? id).trans found) _
    have bound := reachable.queue_length_le
    simp only [reached] at near ahead
    omega

/-- The turn of another worker, which refuses work that it took before. -/
theorem Approaches.otherTurn (reachable : journal.Reachable) {other : Nat}
    {stage own : WorkerStage World Result} {next? : Option (WorkerStage World Result)}
    {rest : Serializer World Result} (taker : event.worker? = some other) (isOther : id ≠ other)
    (taken : journal.writer.worker? other = some stage)
    (turn : Turn journal.writer stage next? rest)
    (found : journal.writer.worker? id = some own) (isActive : own.isActive = true) :
    (journal.note event (rest.place other next?)).reached = journal.reached ∧
      (rest.place other next?).worker? id = some own := by
  have sound := reachable.writer.sound
  have cast := turn.sameCast.1
  have isOnly := (others_not_active sound.distinct sound.phase.few found isActive).1
  have refuses : stage.isActive = false := by
    by_contra active
    have both := (others_not_active sound.distinct sound.phase.few taken (by simpa using active)).1
    rw [isOnly, List.cons.injEq, Worker.mk.injEq] at both
    exact isOther both.1.1
  refine ⟨?_, worker?_place_of_ne (cast.distinct sound.distinct) ((cast.worker? other).trans taken)
    isOther ((cast.worker? id).trans found)⟩
  rw [reached_of_turn taker, (turn.refusing refuses).2.2, reached]

theorem Approaches.step (approaches : Approaches start id spent journal)
    (reachable : journal.Reachable) (sturdy : journal.writer.config.IsSturdy)
    (taken : journal.step event = some later) (noCall : event.isShutdown = false) :
    Approaches start id (spent + if event.worker? = some id then 1 else 0) later := by
  obtain ⟨after, stepped, rfl⟩ := Option.map_eq_some_iff.mp taken
  have grown := approaches.grown
  have bound := reachable.queue_length_le
  obtain ⟨gone, moves⟩ := (step_cases stepped).moves
  have reachedNow := reached_note bound moves
  refine
    { grown := ?_
      quiet := (step_cases stepped).quiet approaches.quiet noCall
      near := ?_ }
  · rw [note_accepted, List.length_append]
    omega
  · by_cases ahead : start.accepted.length ≤ journal.reached
    · left
      omega
    · obtain ⟨own, found, isActive, near⟩ := approaches.near.resolve_left ahead
      -- Whatever others do, the worker keeps its place, and no unit enters before the last one.
      have stays : event.worker? ≠ some id → after.worker? id = some own →
          IsNear start id (spent + if event.worker? = some id then 1 else 0)
            (journal.note event after) := by
        intro isOther stillFound
        right
        refine ⟨own, stillFound, isActive, ?_⟩
        rw [if_neg isOther]
        omega
      have sound := reachable.writer.sound
      cases step_cases stepped with
      | submit work canStart =>
          have isOpen := sound.open_of_active approaches.quiet found isActive
          refine stays (by simp [Event.worker?]) ?_
          rcases submit_cases journal.writer work canStart with
            ⟨_, _, isAfter⟩ | ⟨isIdle, _, _⟩ | ⟨_, isAfter⟩
          · rw [isAfter]
            exact found
          · simp [isIdle] at isOpen
          · rw [isAfter]
            exact found
      | cancel token => exact stays (by simp [Event.worker?]) found
      | @turn _ other stage next? rest taker located turn =>
          by_cases isOwn : other = id
          · subst isOwn
            obtain rfl := Option.some.inj (located.symm.trans found)
            rw [if_pos taker]
            exact approaches.ownTurn reachable sturdy taker found isActive turn (by omega) near
          · refine stays (by simpa [taker] using isOwn) ?_
            exact (otherTurn reachable taker (Ne.symm isOwn) located turn found isActive).2
      | shutdown => cases noCall
      | proceed located =>
          have here := mem_of_shutdown? located
          rw [approaches.quiet] at here
          cases here

theorem Approaches.run (approaches : Approaches start id spent journal)
    (reachable : journal.Reachable) (sturdy : journal.writer.config.IsSturdy)
    {events : List (Event World Result)} (ran : journal.run? events = some later)
    (noCall : ∀ event ∈ events, event.isShutdown = false) :
    Approaches start id (spent + events.countP fun event => event.worker? = some id) later := by
  induction events generalizing journal spent with
  | nil =>
      obtain rfl := Option.some.inj ran
      exact approaches
  | cons event rest ih =>
      obtain ⟨middle, taken, isRest⟩ := Option.bind_eq_some_iff.mp ran
      have stepped := approaches.step reachable sturdy taken (noCall event List.mem_cons_self)
      have sameConfig : middle.writer.config = journal.writer.config := by
        obtain ⟨after, isStep, rfl⟩ := Option.map_eq_some_iff.mp taken
        exact (step_cases isStep).lasting.config
      have whole := ih stepped (reachable.step event taken) (sameConfig ▸ sturdy) isRest
        fun event member => noCall event (List.mem_cons_of_mem _ member)
      rw [List.countP_cons]
      rw [Nat.add_assoc, Nat.add_comm (if event.worker? = some id then 1 else 0)] at whole
      simpa using whole

end Approaches

section WillReach

variable {journal : Journal World Result}

theorem isNear_start {id : Nat} {stage : WorkerStage World Result} (reachable : journal.Reachable)
    (found : journal.writer.worker? id = some stage) (isActive : stage.isActive = true) :
    IsNear journal id 0 journal := by
  have bound := reachable.queue_length_le
  have delay : stage.delay ≤ 2 := by cases stage <;> simp [WorkerStage.delay]
  refine .inr ⟨stage, found, isActive, ?_⟩
  simp only [reached]
  omega

theorem Reachable.willReach (reachable : journal.Reachable) (quiet : journal.writer.shutdowns = [])
    (sturdy : journal.writer.config.IsSturdy) {id : Nat} {stage : WorkerStage World Result}
    (found : journal.writer.worker? id = some stage) (isActive : stage.isActive = true) :
    journal.WillReach id := by
  intro events later ran noCall
  have approaches : Approaches journal id 0 journal :=
    ⟨Nat.le_refl _, quiet, isNear_start reachable found isActive⟩
  have near := (approaches.run reachable sturdy ran noCall).near
  by_cases ahead : journal.accepted.length ≤ later.reached
  · exact .inl ahead
  · right
    obtain ⟨own, stillFound, _, few⟩ := near.resolve_left ahead
    exact ⟨exists_turn stillFound, by omega⟩

theorem exists_run? {events : List (Event World Result)} {after : Serializer World Result}
    (ran : journal.writer.run? events = some after) :
    ∃ later, journal.run? events = some later ∧ later.writer = after := by
  induction events generalizing journal with
  | nil => exact ⟨journal, rfl, Option.some.inj ran⟩
  | cons event rest ih =>
      obtain ⟨middle, stepped, isRest⟩ := Option.bind_eq_some_iff.mp ran
      have isRestNoted : (journal.note event middle).writer.run? rest = some after := isRest
      obtain ⟨later, isLater, same⟩ := ih isRestNoted
      refine ⟨later, ?_, same⟩
      rw [run?, step, stepped]
      exact isLater

theorem config_of_run {later : Journal World Result} {events : List (Event World Result)}
    (ran : journal.run? events = some later) : later.writer.config = journal.writer.config := by
  induction events generalizing journal with
  | nil => exact congrArg _ (congrArg writer (Option.some.inj ran).symm)
  | cons event rest ih =>
      obtain ⟨middle, taken, isRest⟩ := Option.bind_eq_some_iff.mp ran
      obtain ⟨after, stepped, rfl⟩ := Option.map_eq_some_iff.mp taken
      exact (ih isRest).trans (step_cases stepped).lasting.config

theorem shutdowns_of_run {later : Journal World Result} {events : List (Event World Result)}
    (quiet : journal.writer.shutdowns = []) (ran : journal.run? events = some later)
    (noCall : ∀ event ∈ events, event.isShutdown = false) : later.writer.shutdowns = [] := by
  induction events generalizing journal with
  | nil => exact Option.some.inj ran ▸ quiet
  | cons event rest ih =>
      obtain ⟨middle, taken, isRest⟩ := Option.bind_eq_some_iff.mp ran
      obtain ⟨after, stepped, rfl⟩ := Option.map_eq_some_iff.mp taken
      have stillQuiet : (journal.note event after).writer.shutdowns = [] :=
        (step_cases stepped).quiet quiet (noCall event List.mem_cons_self)
      exact ih stillQuiet isRest fun event member => noCall event (List.mem_cons_of_mem _ member)

end WillReach

end Journal

namespace Serializer

/-! ### Workers that break -/

section Stranded

variable (config : WriterConfig) (world : World)

/-- A writer whose connection can be opened. -/
def openable : Serializer World Result :=
  new config (fun world => (.ok (), world)) (fun world => (.ok (), world)) world

def anyWork : Work World Result where
  ticket := 0
  token := none
  isAwaited := false
  hasRuntime := true
  body := fun world => (.failed .canceled, world)

/-- The writer after its first submission. -/
def awaiting : Serializer World Result := (openable config world).submit anyWork true

theorem openConnection_awaiting :
    (awaiting config world : Serializer World Result).openConnection =
      (if longestBusyMillis < config.busyTimeout.millis then (none, world)
        else (some (.ok ()), world)) :=
  rfl

/-- A worker that cannot set its time to wait for locks ends without a word. -/
theorem run?_of_busy (busy : longestBusyMillis < config.busyTimeout.millis) :
    (openable config world : Serializer World Result).run? [.submit anyWork true, .work 0] =
      some ((awaiting config world).endWorker 0) := by
  have broken := @openConnection_awaiting World Result config world
  rw [if_pos busy] at broken
  show some ((awaiting config world).openWorker 0) = _
  rw [openWorker, broken]
  rfl

/-- So does one whose idle time has no end that a clock can show. -/
theorem run?_of_idle (timely : ¬ longestBusyMillis < config.busyTimeout.millis)
    (idle : longestIdleSeconds < config.idleTimeout.seconds) :
    (openable config world : Serializer World Result).run?
        [.submit anyWork true, .work 0, .work 0, .work 0] =
      some ((({ awaiting config world with state := .running }.setWorker 0
        (.choosing false)).endWorker 0)) := by
  have opened := @openConnection_awaiting World Result config world
  rw [if_neg timely] at opened
  have isOpened : (awaiting config world : Serializer World Result).openWorker 0 =
      (awaiting config world).setWorker 0 .opened := by
    rw [openWorker, opened]
    rfl
  show ((awaiting config world).openWorker 0).run? [.work 0, .work 0] = _
  rw [isOpened]
  show some (({ awaiting config world with state := .running }.setWorker 0 (.choosing false)).choose
    0 false) = _
  exact congrArg some (if_pos idle)

/-- A configuration that is not sturdy leaves a unit in the queue of nobody. -/
theorem exists_stranded (frail : ¬ config.IsSturdy) :
    ∃ events writer, (openable config world : Serializer World Result).run? events = some writer ∧
      (∀ event ∈ events, event.isShutdown = false) ∧ writer.queue ≠ [] ∧ writer.workers = [] := by
  by_cases busy : longestBusyMillis < config.busyTimeout.millis
  · exact ⟨_, _, run?_of_busy config world busy, by simp [Event.isShutdown],
      List.cons_ne_nil _ _, rfl⟩
  · have idle : longestIdleSeconds < config.idleTimeout.seconds := by
      by_contra fits
      exact frail ⟨Nat.not_lt.mp busy, Nat.not_lt.mp fits⟩
    exact ⟨_, _, run?_of_idle config world busy idle, by simp [Event.isShutdown],
      List.cons_ne_nil _ _, rfl⟩

end Stranded

end Serializer

namespace Journal

open Serializer

theorem opens_of_busyTimeout {writer : Serializer World Result}
    (timely : writer.config.busyTimeout.millis ≤ longestBusyMillis) : Opens writer := by
  intro world broken
  rw [openConnection] at broken
  split at broken
  · cases broken
  · rw [if_neg (Nat.not_lt.mpr timely)] at broken
    cases broken

/-- The writer keeps all this for the units at every point of every course of submissions,
cancellations, turns of workers and calls of `shutdown`. While workers can open their connections,
nothing is left behind when nobody is there, exactly if a deadline can lie the idle time ahead. -/
theorem serialized_and_settled_iff (config : WriterConfig) (world : World) :
    (∀ journal : Journal World Result, journal.Reachable → journal.Serialized) ∧
      (config.busyTimeout.millis ≤ longestBusyMillis →
        ((∀ connect prepare events (journal : Journal World Result),
            (new config connect prepare world).run? events = some journal → journal.Settled) ↔
          config.idleTimeout.seconds ≤ longestIdleSeconds)) := by
  refine ⟨fun journal => serialized_of_reachable, fun timely => ⟨fun settled => ?_, ?_⟩⟩
  · by_contra idle
    have stranded := @run?_of_idle World Result config world (Nat.not_lt.mpr timely)
      (Nat.not_le.mp idle)
    have strandedNew : (new config (fun world => (.ok (), world)) (fun world => (.ok (), world))
        world).writer.run? _ = some _ := stranded
    obtain ⟨journal, ran, isWriter⟩ := exists_run? strandedNew
    have left := settled _ _ _ journal ran
    rw [Settled, isWriter] at left
    exact absurd (left rfl (fun _ member => nomatch member)).1 (List.cons_ne_nil _ _)
  · intro fits connect prepare events journal ran
    have reachable := (Reachable.new config connect prepare world).run ran
    have same : journal.writer.config = config := config_of_run ran
    refine (serialized_of_reachable reachable).settled (opens_of_busyTimeout ?_) ?_
    · rw [same]
      exact timely
    · rw [same]
      exact fits

/-- A unit that fails, one that is canceled while it is queued, and one that ends well. -/
theorem serialized_and_settled_iff_sample :
    ∃ journal : Journal Nat Nat,
      (Journal.new (WriterConfig.new "main" "w.db") (fun world => (.ok (), world))
          (fun world => (.ok (), world)) 0).run?
        [.submit ⟨0, none, false, true, fun world => (.failed .noRuntime, world)⟩ true,
          .submit ⟨1, some 7, false, true, fun world => (.done 1, world)⟩ true,
          .submit ⟨2, none, true, true, fun world => (.done 2, world + 1)⟩ true,
          .cancel 7, .work 0, .work 0, .work 0, .work 0, .work 0, .work 0, .work 0, .work 0,
          .work 0, .work 0, .work 0, .wake 0 true, .work 0] = some journal ∧
      (journal.begun.map Work.ticket, journal.aborted.map Reply.ticket, journal.writer.world,
        journal.writer.workers.length) = ([0, 2], [1], 1, 0) ∧ journal.Serialized := by
  refine exists_of_map_eq_some (by decide +kernel) fun journal ran _ => ?_
  exact (serialized_and_settled_iff (WriterConfig.new "main" "w.db") 0).1 journal
    ((Reachable.new _ _ _ _).run ran)

/-- With the longest of all durations as idle time the first worker breaks as it looks for work, and the
unit that it was started for stays in the queue. -/
theorem unit_stranded_by_idle_time :
    let config := { WriterConfig.new "main" "w.db" with idleTimeout := Duration.longest }
    ((new config (fun world => (.ok (), world)) (fun world => (.ok (), world)) 0 :
        Journal Nat Nat).run?
      [.submit ⟨0, none, false, true, fun world => (.done 1, world)⟩ true, .work 0, .work 0,
        .work 0]).map (fun journal => (journal.writer.state, journal.writer.queue.length,
          journal.writer.workers.length, journal.writer.shutdowns.length)) =
      some (.running, 1, 0, 0) := by
  decide +kernel

/-- Whatever is opened and submitted, a writer that is not shut down has a worker that will reach
all units in its queue, exactly if its configuration breaks no worker. -/
theorem willReach_iff_isSturdy (config : WriterConfig) (world : World) :
    (∀ connect prepare events (journal : Journal World Result),
        (new config connect prepare world).run? events = some journal →
        (∀ event ∈ events, event.isShutdown = false) → journal.writer.queue ≠ [] →
          ∃ worker ∈ journal.writer.workers, journal.WillReach worker.id) ↔
      config.IsSturdy := by
  constructor
  · intro reaches
    by_contra frail
    obtain ⟨events, writer, ran, noCall, work, nobody⟩ :=
      @exists_stranded World Result config world frail
    have ranNew : (new config (fun world => (.ok (), world)) (fun world => (.ok (), world))
        world).writer.run? events = some writer := ran
    obtain ⟨journal, isJournal, rfl⟩ := exists_run? ranNew
    obtain ⟨worker, member, _⟩ := reaches _ _ events journal isJournal noCall work
    rw [nobody] at member
    cases member
  · intro sturdy connect prepare events journal ran noCall work
    have reachable := (Reachable.new config connect prepare world).run ran
    have quiet := shutdowns_of_run rfl ran noCall
    have sameConfig : journal.writer.config = config := config_of_run ran
    have sturdyHere : journal.writer.config.IsSturdy := sameConfig ▸ sturdy
    obtain ⟨worker, isActive⟩ : ∃ worker, worker ∈ journal.writer.active := by
      rcases reachable.writer.sound.phase.of_quiet quiet with
        ⟨_, empty, _⟩ | ⟨_, ⟨worker, isOnly, _⟩ | ⟨_, frail⟩⟩
      · exact absurd empty work
      · exact ⟨worker, isOnly ▸ List.mem_cons_self⟩
      · exact absurd sturdyHere frail
    obtain ⟨member, active⟩ := List.mem_filter.mp isActive
    have found := reachable.writer.sound.distinct.worker?_of_mem member
    exact ⟨worker, member, reachable.willReach quiet sturdyHere found active⟩

/-- A time to wait for locks that the environment can set breaks the worker, and the unit that it
was started for stays in the queue. -/
theorem unit_stranded :
    let environment : Environment := fun name =>
      if name = "J_DB_PATH" then some "w.db"
      else if name = "J_BUSY_TIMEOUT_MS" then some "2147483648" else none
    (WriterConfig.ofEnvironment "main" "J" environment).toOption.map (fun config =>
      ((new config (fun world => (.ok (), world)) (fun world => (.ok (), world)) 0 :
          Journal Nat Nat).run?
        [.submit ⟨0, none, false, true, fun world => (.done 1, world)⟩ true, .work 0]).map
        fun journal => (journal.writer.state, journal.writer.queue.length,
          journal.writer.workers.length)) =
      some (some (.starting, 1, 0)) := by
  decide +kernel

end Journal

end DurableJobs.Writer
