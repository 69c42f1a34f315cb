import DurableJobs.Engine.Basic
import DurableJobs.Proofs.Transaction.Writes
import Mathlib.Data.List.Nodup

/-!
Moves of an engine, in any order.

A move is one step of a caller, of the dispatcher or of an execution, or the end of the writer. What
can happen to an engine is any sequence of moves from a fresh one, each taken when it can be.
-/

set_option autoImplicit false

namespace DurableJobs.Engine

inductive Move (Business : Type) : Type 1 where
  | transact {Value : Type} (program : Program Business EngineError Value) (now : Instant)
  | enqueue (job : Job) (now : Instant)
  | enqueueAll (jobs : List Job) (correlation : Uuid) (now : Instant)
  | cancel (id : Int)
  | requeue (id : Int) (now : Instant)
  | announce (place : Nat) (now : Instant)
  | start
  | requestStop
  | recover (draw : Nat) (now : Instant)
  | count
  | scan (now later : Instant)
  | decide (now : Instant)
  | launch (now : Instant)
  | rest (now : Instant)
  | wake (waking : Waking)
  | finish
  | runQueued (executor : Record → Program Business JobError TransactionalOutcome) (draw : Nat)
      (now : Instant)
  | acquire (ticket : Nat)
  | giveBack (ticket : Nat) (result : Except JobError Outcome)
  | settle (ticket draw : Nat) (now : Instant)
  | report (ticket : Nat) (now : Instant)
  | stopWriter

variable {Business : Type}

def step (engine : Engine Business) : Move Business → Option (Engine Business)
  | .transact program now => some (engine.transact program now).2
  | .enqueue job now => some (engine.enqueue job now).2
  | .enqueueAll jobs correlation now => some (engine.enqueueAll jobs correlation now).2
  | .cancel id => some (engine.cancel id).2
  | .requeue id now => some (engine.requeue id now).2
  | .announce place now => engine.announce place now
  | .start => some engine.start.2
  | .requestStop => engine.requestStop
  | .recover draw now => engine.recover draw now
  | .count => engine.count
  | .scan now later => engine.scan now later
  | .decide now => engine.decide now
  | .launch now => engine.launch now
  | .rest now => engine.rest now
  | .wake waking => engine.wake waking
  | .finish => engine.finish
  | .runQueued executor draw now => engine.runQueued executor draw now
  | .acquire ticket => engine.acquire ticket
  | .giveBack ticket result => engine.return? ticket result
  | .settle ticket draw now => engine.settle ticket draw now
  | .report ticket now => engine.report ticket now
  | .stopWriter => some engine.stopWriter

/-- No dispatcher has been started, and nothing is owed to anyone. -/
structure Fresh (engine : Engine Business) : Prop where
  dispatcher : engine.dispatcher = none
  owed : engine.owed = []
  isWriterStopped : engine.isWriterStopped = false

theorem fresh_of_start? {writerName : String} {registry : Registry} {config : EngineConfig}
    {business : Business} {refusal? : Business → Business → Option StoreError}
    {engine : Engine Business}
    (opened : start? writerName registry config business refusal? = .succeeded engine)
    (database : Database Business) :
    ({ engine with database := database } : Engine Business).Fresh := by
  unfold start? at opened
  split at opened
  · cases opened
  · split at opened
    · cases opened
    · cases opened
      exact ⟨rfl, rfl, rfl⟩

/-- The engine after some moves, if each of them can be taken in its turn. -/
def run? (engine : Engine Business) : List (Move Business) → Option (Engine Business)
  | [] => some engine
  | move :: rest => (engine.step move).bind fun after => after.run? rest

theorem run?_append (engine : Engine Business) (earlier later : List (Move Business)) :
    engine.run? (earlier ++ later) =
      (engine.run? earlier).bind fun middle => middle.run? later := by
  induction earlier generalizing engine with
  | nil => rfl
  | cons move rest ih =>
      rw [List.cons_append, run?, run?, Option.bind_assoc]
      exact congrArg _ (funext fun after => ih after)

inductive Reachable : Engine Business → Prop where
  | fresh {engine : Engine Business} (fresh : engine.Fresh) : Reachable engine
  | moved {engine after : Engine Business} (reachable : Reachable engine) (move : Move Business)
      (taken : engine.step move = some after) : Reachable after

theorem Reachable.run {engine after : Engine Business} (reachable : Reachable engine)
    {moves : List (Move Business)} (ran : engine.run? moves = some after) : Reachable after := by
  induction moves generalizing engine with
  | nil => exact Option.some.inj ran ▸ reachable
  | cons move rest ih =>
      obtain ⟨middle, taken, isRest⟩ := Option.bind_eq_some_iff.mp ran
      exact ih (reachable.moved move taken) isRest

/-- A fresh engine with one pending job, which is executed in a transaction. -/
def sample : Engine Unit where
  writerName := "jobs"
  registry := ⟨[("reindex", .transactional)]⟩
  config := EngineConfig.standard
  database :=
    { jobs := (Store.Table.empty.enqueue (Job.new "reindex" [118] Uuid.zero) Instant.epoch).2
      business := () }
  telemetry := Telemetry.empty
  happenings := []
  isWriterStopped := false
  isAwake := false
  isDispatching := false
  dispatcher := none
  owed := []
  nextTicket := 0

def firstMoves : List (Move Business) :=
  [.start, .recover 0 Instant.epoch, .count, .scan Instant.epoch Instant.epoch]

theorem fresh_sample : sample.Fresh := ⟨rfl, rfl, rfl⟩

/-! ### What a move does -/

/-- Two engines that differ in what they hold and tell at most, not in what they are doing. -/
structure SameWork (engine after : Engine Business) : Prop where
  dispatcher : after.dispatcher = engine.dispatcher
  isDispatching : after.isDispatching = engine.isDispatching
  nextTicket : after.nextTicket = engine.nextTicket
  isWriterStopped : after.isWriterStopped = engine.isWriterStopped
  registry : after.registry = engine.registry
  config : after.config = engine.config

theorem SameWork.refl (engine : Engine Business) : SameWork engine engine :=
  ⟨rfl, rfl, rfl, rfl, rfl, rfl⟩

theorem sameWork_committed (engine : Engine Business) (database : Database Business)
    (owed : List (List Notice)) :
    SameWork engine { engine with database := database, owed := owed } :=
  ⟨rfl, rfl, rfl, rfl, rfl, rfl⟩

theorem sameWork_tell (engine : Engine Business) (notice : Notice) (now : Instant) :
    SameWork engine (engine.tell notice now) := by
  cases notice with
  | enqueued jobs =>
      by_cases none : jobs.isEmpty <;> simp only [tell, none] <;> exact ⟨rfl, rfl, rfl, rfl, rfl, rfl⟩
  | _ => exact ⟨rfl, rfl, rfl, rfl, rfl, rfl⟩

theorem database_tell (engine : Engine Business) (notice : Notice) (now : Instant) :
    (engine.tell notice now).database = engine.database := by
  cases notice with
  | enqueued jobs => by_cases none : jobs.isEmpty <;> simp [tell, none]
  | _ => rfl

/-- What a program writes in a transaction on the engine's database, except for what a lapse of the
transaction takes back. -/
def lasting {Error Value : Type} (engine : Engine Business) (program : Program Business Error Value)
    (now : Instant) : List (Write Business) :=
  program.lasting (Transaction.begin engine.registry now engine.database)

/-- A transaction is committed and owes its notices, or nothing is left of it; only if it has lapsed
what its program did since then stays, and is owed to nobody. -/
theorem transact_cases {Value : Type} (engine : Engine Business)
    (program : Program Business EngineError Value) (now : Instant) :
    (∃ error, engine.transact program now = (.error error, engine) ∧
        (engine.isWriterStopped = true ∨
          program.lapse? (Transaction.begin engine.registry now engine.database) = none ∧
            ((∀ value, (program.run (Transaction.begin engine.registry now engine.database)).1 ≠
              .done value) ∨ program.IsRefused engine.registry now engine.database))) ∨
      engine.isWriterStopped = false ∧
        ((∃ value,
            (program.run (Transaction.begin engine.registry now engine.database)).1 =
              .done value ∧
            program.lapse? (Transaction.begin engine.registry now engine.database) = none ∧
            ¬ program.IsRefused engine.registry now engine.database ∧
            engine.transact program now =
              (.ok value,
                { engine with
                  database := engine.database.replay now (engine.lasting program now)
                  owed := engine.owed ++
                    [[.enqueued (engine.database.enqueued now (engine.lasting program now))]] })) ∨
          program.lapse? (Transaction.begin engine.registry now engine.database) ≠ none ∧
            ∃ error, engine.transact program now =
              (.error error,
                { engine with
                  database := engine.database.replay now (engine.lasting program now) })) := by
  by_cases stopped : engine.isWriterStopped = true
  · exact .inl ⟨_, if_pos stopped, .inl stopped⟩
  · have running : engine.isWriterStopped = false := by simpa using stopped
    have left := program.database_run engine.registry now engine.database
    have isOpen := program.isOpen_run (Transaction.begin engine.registry now engine.database)
    cases ran : program.run (Transaction.begin engine.registry now engine.database) with
    | mk ending transaction =>
        rw [ran] at left isOpen
        cases lapses : program.lapse? (Transaction.begin engine.registry now engine.database) with
        | some rest =>
            have lapsed : transaction.saved? = none := by
              simpa [lapses, Transaction.isOpen] using isOpen
            refine .inr ⟨running, .inr ⟨by simp, ?_⟩⟩
            rw [lasting, ← left]
            cases ending <;>
              simp only [transact, if_neg stopped, ran, Transaction.commit, Transaction.rollBack,
                lapsed] <;>
              exact ⟨_, rfl⟩
        | none =>
            have replayed := Program.run_eq_replay lapses
            have same : engine.lasting program now =
                program.writes (Transaction.begin engine.registry now engine.database) := by
              simp [lasting, Program.lasting, lapses]
            rw [ran] at replayed
            have saved : transaction.saved? = some engine.database := by
              rw [show transaction = _ from replayed]
              rfl
            cases ending with
            | done value =>
                cases refused : transaction.database.refusal? engine.database.business
                    transaction.database.business with
                | none =>
                    refine .inr ⟨running, .inl ⟨value, rfl, rfl, ?_, ?_⟩⟩
                    · rintro ⟨_, refusal, rfl, isRefused⟩
                      rw [← left, refused] at isRefused
                      cases isRefused
                    · simp only [transact, if_neg stopped, ran, Transaction.commit, saved, refused]
                      rw [same, show transaction = _ from replayed]
                      rfl
                | some error =>
                    refine .inl ⟨.store error, ?_, .inr ⟨rfl, .inr ⟨_, error, left.symm, refused⟩⟩⟩
                    simp only [transact, if_neg stopped, ran, Transaction.commit, saved, refused]
            | failed error =>
                refine .inl ⟨error, ?_, .inr ⟨rfl, .inl (by simp)⟩⟩
                simp only [transact, if_neg stopped, ran, Transaction.rollBack, saved]
            | broken breakdown =>
                refine .inl ⟨.ofBreakdown breakdown, ?_, .inr ⟨rfl, .inl (by simp)⟩⟩
                simp only [transact, if_neg stopped, ran, Transaction.rollBack, saved]

theorem cancel_cases (engine : Engine Business) (id : Int) :
    (engine.cancel id).2 = engine ∨
      ∃ more, engine.isWriterStopped = false ∧
        (engine.cancel id).2 =
          { engine with
            database := { engine.database with jobs := (engine.database.jobs.cancel id).2 }
            owed := engine.owed ++ more } := by
  simp only [cancel, execute]
  split
  · exact .inl rfl
  · next running =>
      refine .inr ?_
      cases answer : engine.database.jobs.cancel id with
      | mk result jobs =>
          cases result with
          | error error => exact ⟨[], by simpa using running, by rw [List.append_nil]⟩
          | ok jobType => exact ⟨_, by simpa using running, rfl⟩

theorem requeue_cases (engine : Engine Business) (id : Int) (now : Instant) :
    (engine.requeue id now).2 = engine ∨
      ∃ more, engine.isWriterStopped = false ∧
        (engine.requeue id now).2 =
          { engine with
            database := { engine.database with jobs := (engine.database.jobs.requeue id now).2 }
            owed := engine.owed ++ more } := by
  unfold requeue
  split
  · exact .inl rfl
  · next running =>
      cases answer : engine.database.jobs.requeue id now with
      | mk result jobs =>
          cases result with
          | error error => exact .inl rfl
          | ok rescheduled => exact .inr ⟨_, by simpa using running, rfl⟩

/-- A call from outside changes nothing but what the engine holds and what callers owe, which it only
adds to. Nothing changes any more in what a stopped writer holds. -/
structure Called (engine after : Engine Business) : Prop extends SameWork engine after where
  isAwake : after.isAwake = engine.isAwake
  telemetry : after.telemetry = engine.telemetry
  happenings : after.happenings = engine.happenings
  owed : engine.owed <+: after.owed
  database : engine.isWriterStopped = true → after.database = engine.database

theorem Called.refl (engine : Engine Business) : Called engine engine where
  toSameWork := .refl engine
  isAwake := rfl
  telemetry := rfl
  happenings := rfl
  owed := List.prefix_refl _
  database := fun _ => rfl

theorem called_committed {engine : Engine Business} (running : engine.isWriterStopped = false)
    (database : Database Business) (more : List (List Notice)) :
    Called engine { engine with database := database, owed := engine.owed ++ more } where
  toSameWork := sameWork_committed engine database _
  isAwake := rfl
  telemetry := rfl
  happenings := rfl
  owed := List.prefix_append _ _
  database := fun stopped => nomatch running.symm.trans stopped

theorem transact_called {Value : Type} (engine : Engine Business)
    (program : Program Business EngineError Value) (now : Instant) :
    Called engine (engine.transact program now).2 := by
  rcases engine.transact_cases program now with
    ⟨_, same, _⟩ | ⟨running, ⟨_, _, _, _, committed⟩ | ⟨_, _, lapsed⟩⟩
  · rw [same]
    exact .refl engine
  · rw [committed]
    exact called_committed running _ _
  · rw [lapsed]
    simpa using called_committed running (engine.database.replay now (engine.lasting program now)) []

def Move.isCall : Move Business → Bool
  | .transact _ _ => true
  | .enqueue _ _ => true
  | .enqueueAll _ _ _ => true
  | .cancel _ => true
  | .requeue _ _ => true
  | _ => false

theorem called_of_step {engine after : Engine Business} {move : Move Business}
    (isCall : move.isCall = true) (taken : engine.step move = some after) :
    Called engine after := by
  cases move with
  | transact program now => exact Option.some.inj taken ▸ engine.transact_called program now
  | enqueue job now => exact Option.some.inj taken ▸ engine.transact_called _ now
  | enqueueAll jobs correlation now => exact Option.some.inj taken ▸ engine.transact_called _ now
  | cancel id =>
      obtain rfl := Option.some.inj taken
      rcases engine.cancel_cases id with same | ⟨more, running, canceled⟩
      · rw [same]
        exact .refl engine
      · rw [canceled]
        exact called_committed running _ more
  | requeue id now =>
      obtain rfl := Option.some.inj taken
      rcases engine.requeue_cases id now with same | ⟨more, running, requeued⟩
      · rw [same]
        exact .refl engine
      · rw [requeued]
        exact called_committed running _ more
  | _ => cases isCall

theorem announce_cases {engine after : Engine Business} {place : Nat} {now : Instant}
    (taken : engine.announce place now = some after) :
    (engine.owed[place]? = some [] ∧
        after = { engine with owed := engine.owed.eraseIdx place }) ∨
      ∃ notice rest, engine.owed[place]? = some (notice :: rest) ∧
        after = { engine with owed := engine.owed.set place rest }.tell notice now := by
  unfold announce at taken
  split at taken
  · cases taken
  · next silent =>
      cases taken
      exact .inl ⟨silent, rfl⟩
  · next notice rest speaking =>
      cases taken
      exact .inr ⟨notice, rest, speaking, rfl⟩

theorem announce_sameWork {engine after : Engine Business} {place : Nat} {now : Instant}
    (taken : engine.announce place now = some after) :
    SameWork engine after ∧ after.database = engine.database := by
  obtain ⟨_, rfl⟩ | ⟨notice, rest, _, rfl⟩ := announce_cases taken
  · exact ⟨⟨rfl, rfl, rfl, rfl, rfl, rfl⟩, rfl⟩
  · have told := sameWork_tell { engine with owed := engine.owed.set place rest } notice now
    exact ⟨⟨told.dispatcher, told.isDispatching, told.nextTicket, told.isWriterStopped,
      told.registry, told.config⟩, database_tell _ notice now⟩

theorem start_cases (engine : Engine Business) :
    engine.start.2 = engine ∨ engine.isDispatching = false ∧
      (engine.start.2 = { engine with isDispatching := true } ∨
        ∃ free, engine.start.2 =
          { engine with isDispatching := true, dispatcher := some ⟨.recovering, false, free, []⟩ }) := by
  simp only [start]
  split
  · exact .inl rfl
  · next idle =>
      refine .inr ⟨by simpa using idle, ?_⟩
      split
      · exact .inl rfl
      · exact .inr ⟨_, rfl⟩

/-! ### Moves of the dispatcher -/

end DurableJobs.Engine

namespace DurableJobs

namespace DispatcherPhase

def notices : DispatcherPhase → List Notice
  | .launching notices _ _ => notices
  | _ => []

def claimed : DispatcherPhase → List Record
  | .launching _ claimed _ => claimed
  | _ => []

def isRecovering : DispatcherPhase → Bool
  | .recovering => true
  | _ => false

end DispatcherPhase

namespace ExecutionStage

/-- Whether the execution is still to settle its record. -/
def isOwning : ExecutionStage → Bool
  | .reporting _ => false
  | .ended => false
  | _ => true

def isQueued : ExecutionStage → Bool
  | .queued => true
  | _ => false

end ExecutionStage

namespace Engine

variable {Business : Type}

/-- The dispatcher goes on with the same executions, or without those that have ended, and does not
go back to recovering. -/
structure Redirected (engine after : Engine Business) (before later : Dispatcher) : Prop where
  found : engine.dispatcher = some before
  dispatcher : after.dispatcher = some later
  executions : later.executions = before.executions ∨
    later.executions = (Dispatcher.reap before).executions
  resting : later.phase.isRecovering = true → before.phase.isRecovering = true
  isDispatching : after.isDispatching = engine.isDispatching
  nextTicket : after.nextTicket = engine.nextTicket
  isWriterStopped : after.isWriterStopped = engine.isWriterStopped

theorem Redirected.of_phase {engine after : Engine Business} {before : Dispatcher}
    {phase : DispatcherPhase} (found : engine.dispatcher = some before)
    (dispatcher : after.dispatcher = some { before with phase := phase })
    (goesOn : phase.isRecovering = false)
    (isDispatching : after.isDispatching = engine.isDispatching)
    (nextTicket : after.nextTicket = engine.nextTicket)
    (isWriterStopped : after.isWriterStopped = engine.isWriterStopped) :
    Redirected engine after before { before with phase := phase } where
  found
  dispatcher
  executions := .inl rfl
  resting := fun recovering => absurd (goesOn.symm.trans recovering) Bool.false_ne_true
  isDispatching
  nextTicket
  isWriterStopped

/-- The dispatcher turns to another phase with the same notices to tell and the same records to
launch, and that is all. -/
structure Turned (engine after : Engine Business) (before later : Dispatcher) : Prop
    extends Redirected engine after before later where
  notices : later.phase.notices = before.phase.notices
  claimed : later.phase.claimed = before.phase.claimed
  registry : after.registry = engine.registry
  config : after.config = engine.config
  database : after.database = engine.database
  telemetry : after.telemetry = engine.telemetry
  happenings : after.happenings = engine.happenings
  owed : after.owed = engine.owed

section Turns

variable {engine after : Engine Business}

theorem requestStop_cases (taken : engine.requestStop = some after) :
    ∃ dispatcher, engine.dispatcher = some dispatcher ∧
      after = { engine with dispatcher := some { dispatcher with isStopRequested := true } } := by
  unfold requestStop at taken
  cases found : engine.dispatcher with
  | none => simp [found] at taken
  | some dispatcher =>
      simp only [found, Option.map_some, Option.some.injEq] at taken
      exact ⟨dispatcher, rfl, taken.symm⟩

theorem count_cases (taken : engine.count = some after) :
    ∃ dispatcher phase, engine.dispatcher = some dispatcher ∧ dispatcher.phase = .counting ∧
      (phase = .draining ∨ phase = .scanning dispatcher.free) ∧
      after = engine.enterPhase (Dispatcher.reap dispatcher) phase := by
  unfold count at taken
  split at taken
  · next dispatcher found =>
      split at taken
      · next counting =>
          dsimp only at taken
          split at taken
          · cases taken
            exact ⟨dispatcher, _, found, counting, .inl rfl, rfl⟩
          · cases taken
            exact ⟨dispatcher, _, found, counting, .inr rfl, rfl⟩
      · cases taken
  · cases taken

theorem scan_cases {now later : Instant} (taken : engine.scan now later = some after) :
    ∃ dispatcher lanes phase, engine.dispatcher = some dispatcher ∧
      dispatcher.phase = .scanning lanes ∧
      (phase = .deciding lanes ∨ (∃ tick, phase = .resting tick) ∨ ∃ delay, phase = .waiting delay) ∧
      after = engine.enterPhase dispatcher phase := by
  unfold scan at taken
  split at taken
  · next dispatcher found =>
      split at taken
      · next lanes scanning =>
          split at taken
          · cases taken
            exact ⟨dispatcher, lanes, _, found, scanning, .inr (.inr ⟨_, rfl⟩), rfl⟩
          · split at taken
            · cases taken
              exact ⟨dispatcher, lanes, _, found, scanning, .inl rfl, rfl⟩
            · cases taken
              exact ⟨dispatcher, lanes, _, found, scanning, .inr (.inl ⟨_, rfl⟩), rfl⟩
      · cases taken
  · cases taken

theorem rest_cases {now : Instant} (taken : engine.rest now = some after) :
    ∃ dispatcher tick delay, engine.dispatcher = some dispatcher ∧
      dispatcher.phase = .resting tick ∧ after = engine.enterPhase dispatcher (.waiting delay) := by
  unfold rest at taken
  split at taken
  · next dispatcher found =>
      split at taken
      · next tick resting =>
          cases taken
          exact ⟨dispatcher, tick, _, found, resting, rfl⟩
      · cases taken
  · cases taken

theorem wake_cases {waking : Waking} (taken : engine.wake waking = some after) :
    ∃ dispatcher delay, engine.dispatcher = some dispatcher ∧ dispatcher.phase = .waiting delay ∧
      (after = engine.enterPhase dispatcher .draining ∨
        after = { engine.enterPhase dispatcher .counting with isAwake := false } ∨
        after = engine.enterPhase dispatcher .counting ∨
        after = engine.enterPhase (Dispatcher.reap dispatcher) .counting) := by
  unfold wake at taken
  split at taken
  · next dispatcher found =>
      split at taken
      · next delay waiting =>
          refine ⟨dispatcher, delay, found, waiting, ?_⟩
          cases waking with
          | stop =>
              dsimp only at taken
              split at taken <;> cases taken
              exact .inl rfl
          | notice =>
              dsimp only at taken
              split at taken <;> cases taken
              exact .inr (.inl rfl)
          | time =>
              cases taken
              exact .inr (.inr (.inl rfl))
          | finished =>
              dsimp only at taken
              split at taken <;> cases taken
              exact .inr (.inr (.inr rfl))
      · cases taken
  · cases taken

theorem requestStop_turned (taken : engine.requestStop = some after) :
    ∃ before later, Turned engine after before later := by
  obtain ⟨dispatcher, found, rfl⟩ := requestStop_cases taken
  exact ⟨dispatcher, _, ⟨found, rfl, .inl rfl, id, rfl, rfl, rfl⟩, rfl, rfl, rfl, rfl, rfl, rfl,
    rfl, rfl⟩

theorem turned_of_enterPhase {dispatcher : Dispatcher} {phase : DispatcherPhase}
    (found : engine.dispatcher = some dispatcher)
    (same : dispatcher.phase.notices = phase.notices ∧ dispatcher.phase.claimed = phase.claimed)
    (resting : phase.isRecovering = false) :
    ∃ before later, Turned engine (engine.enterPhase dispatcher phase) before later :=
  ⟨dispatcher, { dispatcher with phase := phase },
    .of_phase found rfl resting rfl rfl rfl, same.1.symm, same.2.symm, rfl, rfl, rfl, rfl, rfl, rfl⟩

theorem turned_of_reap {dispatcher : Dispatcher} {phase : DispatcherPhase}
    (found : engine.dispatcher = some dispatcher)
    (same : dispatcher.phase.notices = phase.notices ∧ dispatcher.phase.claimed = phase.claimed)
    (resting : phase.isRecovering = false) :
    ∃ before later,
      Turned engine (engine.enterPhase (Dispatcher.reap dispatcher) phase) before later :=
  ⟨dispatcher, { Dispatcher.reap dispatcher with phase := phase },
    ⟨found, rfl, .inr rfl, fun recovering => by simp [resting] at recovering, rfl, rfl, rfl⟩,
    same.1.symm, same.2.symm, rfl, rfl, rfl, rfl, rfl, rfl⟩

theorem count_turned (taken : engine.count = some after) :
    ∃ before later, Turned engine after before later := by
  obtain ⟨dispatcher, phase, found, counting, goesOn, rfl⟩ := count_cases taken
  have idle : dispatcher.phase.notices = [] ∧ dispatcher.phase.claimed = [] := by
    rw [counting]
    exact ⟨rfl, rfl⟩
  rcases goesOn with rfl | rfl
  · exact turned_of_reap found idle rfl
  · exact turned_of_reap found idle rfl

theorem scan_turned {now later : Instant} (taken : engine.scan now later = some after) :
    ∃ before later, Turned engine after before later := by
  obtain ⟨dispatcher, lanes, phase, found, scanning, goesOn, rfl⟩ := scan_cases taken
  have idle : dispatcher.phase.notices = [] ∧ dispatcher.phase.claimed = [] := by
    rw [scanning]
    exact ⟨rfl, rfl⟩
  rcases goesOn with rfl | ⟨tick, rfl⟩ | ⟨delay, rfl⟩
  · exact turned_of_enterPhase found idle rfl
  · exact turned_of_enterPhase found idle rfl
  · exact turned_of_enterPhase found idle rfl

theorem rest_turned {now : Instant} (taken : engine.rest now = some after) :
    ∃ before later, Turned engine after before later := by
  obtain ⟨dispatcher, tick, delay, found, resting, rfl⟩ := rest_cases taken
  exact turned_of_enterPhase found (by rw [resting]; exact ⟨rfl, rfl⟩) rfl

theorem wake_turned {waking : Waking} (taken : engine.wake waking = some after) :
    ∃ before later, Turned engine after before later := by
  obtain ⟨dispatcher, delay, found, waiting, goesOn⟩ := wake_cases taken
  have idle : dispatcher.phase.notices = [] ∧ dispatcher.phase.claimed = [] := by
    rw [waiting]
    exact ⟨rfl, rfl⟩
  have counting : ∃ before later,
      Turned engine (engine.enterPhase dispatcher .counting) before later :=
    turned_of_enterPhase found idle rfl
  rcases goesOn with rfl | rfl | rfl | rfl
  · exact turned_of_enterPhase found idle rfl
  · obtain ⟨before, later, turned⟩ := counting
    exact ⟨before, later, { turned with }⟩
  · exact counting
  · exact turned_of_reap found idle rfl

end Turns

theorem recover_cases {engine after : Engine Business} {draw : Nat} {now : Instant}
    (taken : engine.recover draw now = some after) :
    ∃ dispatcher jobs, engine.dispatcher = some dispatcher ∧ dispatcher.phase = .recovering ∧
      (jobs = engine.database.jobs ∨ engine.isWriterStopped = false ∧
        jobs = (engine.database.jobs.recover engine.config.recovery engine.config.retry draw now).2) ∧
      after =
        { engine.enterPhase dispatcher .counting with
          database := { engine.database with jobs := jobs } } := by
  unfold recover at taken
  split at taken
  · next dispatcher found =>
      split at taken
      · next recovering =>
          dsimp only at taken
          split at taken
          · cases taken
            exact ⟨dispatcher, _, found, recovering, .inl rfl, rfl⟩
          · next running =>
              split at taken
              · cases taken
                exact ⟨dispatcher, _, found, recovering, .inl rfl, rfl⟩
              · next replies jobs answer =>
                  cases taken
                  exact ⟨dispatcher, jobs, found, recovering,
                    .inr ⟨by simpa using running, by rw [answer]⟩, rfl⟩
      · cases taken
  · cases taken

theorem decide_cases {engine after : Engine Business} {now : Instant}
    (taken : engine.decide now = some after) :
    ∃ dispatcher lanes, engine.dispatcher = some dispatcher ∧
      dispatcher.phase = .deciding lanes ∧
      ((∃ before later, Turned engine after before later) ∨
        ∃ tick jobs notices, engine.isWriterStopped = false ∧
          engine.database.jobs.tick engine.registry lanes engine.config.batchSize now =
            (.ok tick, jobs) ∧
          after =
            { engine.enterPhase dispatcher (.launching notices tick.claimed tick) with
              database := { engine.database with jobs := jobs } }) := by
  unfold decide at taken
  split at taken
  · next dispatcher found =>
      split at taken
      · next lanes deciding =>
          have idle : dispatcher.phase.notices = [] ∧ dispatcher.phase.claimed = [] := by
            rw [deciding]
            exact ⟨rfl, rfl⟩
          refine ⟨dispatcher, lanes, found, deciding, ?_⟩
          split at taken
          · cases taken
            exact .inl (turned_of_enterPhase found idle rfl)
          · next running =>
              split at taken
              · cases taken
                exact .inl (turned_of_enterPhase found idle rfl)
              · next tick jobs answer =>
                  cases taken
                  exact .inr ⟨tick, jobs, _, by simpa using running, answer, rfl⟩
      · cases taken
  · cases taken

theorem reserve_cases (dispatcher : Dispatcher) (kind : ExecutorKind) :
    ∃ stage free,
      Dispatcher.reserve dispatcher kind = (stage, { dispatcher with free := free }) ∧
        stage.isOwning = true ∧ (stage.isQueued = true → kind = .transactional) := by
  cases kind with
  | transactional => exact ⟨.queued, dispatcher.free, rfl, rfl, fun _ => rfl⟩
  | normal =>
      cases taken : dispatcher.free.take? .normal with
      | none => exact ⟨.waiting, dispatcher.free, by simp [Dispatcher.reserve, taken], rfl, nofun⟩
      | some left => exact ⟨.running, left, by simp [Dispatcher.reserve, taken], rfl, nofun⟩
  | longRunning =>
      cases taken : dispatcher.free.take? .longRunning with
      | none => exact ⟨.waiting, dispatcher.free, by simp [Dispatcher.reserve, taken], rfl, nofun⟩
      | some left => exact ⟨.running, left, by simp [Dispatcher.reserve, taken], rfl, nofun⟩

/-- A step of launching tells a notice, drops a record that nobody executes, starts the execution of
the next record or ends. -/
theorem launch_steps {engine after : Engine Business} {now : Instant}
    (taken : engine.launch now = some after) :
    ∃ dispatcher, engine.dispatcher = some dispatcher ∧
      ((∃ notice notices claimed tick,
          dispatcher.phase = .launching (notice :: notices) claimed tick ∧
          after =
            (engine.enterPhase dispatcher (.launching notices claimed tick)).tell notice now) ∨
        (∃ record claimed tick, dispatcher.phase = .launching [] (record :: claimed) tick ∧
          engine.registry.kindOf record.jobType = none ∧
          after = engine.enterPhase dispatcher (.launching [] claimed tick)) ∨
        (∃ record claimed tick kind stage later,
          dispatcher.phase = .launching [] (record :: claimed) tick ∧
          engine.registry.kindOf record.jobType = some kind ∧
          Dispatcher.reserve dispatcher kind = (stage, later) ∧
          after =
            { engine with
              dispatcher := some
                { later with
                  phase := .launching [] claimed tick
                  executions := later.executions ++
                    [⟨engine.nextTicket, record, kind,
                      if kind = .transactional ∧ engine.isWriterStopped then .ended else stage⟩] }
              telemetry := engine.telemetry.started record now
              nextTicket := engine.nextTicket + 1 }) ∨
        ∃ tick, dispatcher.phase = .launching [] [] tick ∧
          after = engine.enterPhase dispatcher (.resting tick)) := by
  unfold launch at taken
  split at taken
  · next dispatcher found =>
      refine ⟨dispatcher, found, ?_⟩
      split at taken
      · next notice notices claimed tick launching =>
          cases taken
          exact .inl ⟨notice, notices, claimed, tick, launching, rfl⟩
      · next record claimed tick launching =>
          split at taken
          · next unknown =>
              cases taken
              exact .inr (.inl ⟨record, claimed, tick, launching, unknown, rfl⟩)
          · next kind isKind =>
              cases reserved : Dispatcher.reserve dispatcher kind with
              | mk stage later =>
                  rw [reserved] at taken
                  cases taken
                  exact .inr (.inr (.inl ⟨record, claimed, tick, kind, stage, later, launching,
                    isKind, reserved, rfl⟩))
      · next tick launching =>
          cases taken
          exact .inr (.inr (.inr ⟨tick, launching, rfl⟩))
      · cases taken
  · cases taken

theorem launch_cases {engine after : Engine Business} {now : Instant}
    (taken : engine.launch now = some after) :
    ∃ dispatcher, engine.dispatcher = some dispatcher ∧
      ((∃ notice notices claimed tick,
          dispatcher.phase = .launching (notice :: notices) claimed tick ∧
          after =
            (engine.enterPhase dispatcher (.launching notices claimed tick)).tell notice now) ∨
        (∃ record claimed tick, dispatcher.phase = .launching [] (record :: claimed) tick ∧
          engine.registry.isRegistered record.jobType = false ∧
          after = engine.enterPhase dispatcher (.launching [] claimed tick)) ∨
        (∃ record claimed tick kind stage free,
          dispatcher.phase = .launching [] (record :: claimed) tick ∧
          engine.registry.isRegistered record.jobType = true ∧
          (stage.isQueued = true → engine.isWriterStopped = false) ∧
          (stage.isOwning = true ∨ stage = .ended ∧ engine.isWriterStopped = true) ∧
          after =
            { engine with
              dispatcher := some
                { dispatcher with
                  phase := .launching [] claimed tick
                  free := free
                  executions :=
                    dispatcher.executions ++ [⟨engine.nextTicket, record, kind, stage⟩] }
              telemetry := engine.telemetry.started record now
              nextTicket := engine.nextTicket + 1 }) ∨
        ∃ tick, dispatcher.phase = .launching [] [] tick ∧
          after = engine.enterPhase dispatcher (.resting tick)) := by
  obtain ⟨dispatcher, found, told | dropped | launched | ended⟩ := launch_steps taken
  · exact ⟨dispatcher, found, .inl told⟩
  · obtain ⟨record, claimed, tick, launching, unknown, same⟩ := dropped
    exact ⟨dispatcher, found, .inr (.inl ⟨record, claimed, tick, launching,
      by simp [Registry.isRegistered, unknown], same⟩)⟩
  · obtain ⟨record, claimed, tick, kind, stage, later, launching, isKind, reserved, rfl⟩ := launched
    obtain ⟨_, free, isReserved, owning, queuedKind⟩ := reserve_cases dispatcher kind
    obtain ⟨rfl, rfl⟩ := Prod.mk.inj (isReserved.symm.trans reserved)
    refine ⟨dispatcher, found, .inr (.inr (.inl ⟨record, claimed, tick, kind, _, free, launching,
      by simp [Registry.isRegistered, isKind], ?_, ?_, rfl⟩))⟩
    · intro queued
      split at queued
      · cases queued
      · next goesOn =>
          exact Bool.eq_false_iff.mpr fun stopped => goesOn ⟨queuedKind queued, stopped⟩
    · split
      · next stops => exact .inr ⟨rfl, stops.2⟩
      · exact .inl owning
  · exact ⟨dispatcher, found, .inr (.inr (.inr ended))⟩

theorem finish_cases {engine after : Engine Business} (taken : engine.finish = some after) :
    ∃ dispatcher, engine.dispatcher = some dispatcher ∧ dispatcher.phase = .draining ∧
      (Dispatcher.reap dispatcher).executions = [] ∧
      after = { engine with dispatcher := none, isDispatching := false } := by
  unfold finish at taken
  split at taken
  · next dispatcher found =>
      split at taken
      · next draining =>
          split at taken
          · next done =>
              cases taken
              exact ⟨dispatcher, found, draining, List.isEmpty_iff.mp done, rfl⟩
          · cases taken
      · cases taken
  · cases taken

end Engine

end DurableJobs
