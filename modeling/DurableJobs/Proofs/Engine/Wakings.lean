import DurableJobs.Proofs.Engine.Callers

/-!
Wakings of the dispatcher.

Telling that jobs were enqueued, or that a record was made pending again, asks the dispatcher to look
again. While it is busy, any number of such requests are one, and each way out of waiting may come
first. Still none is lost: a dispatcher that waits and is not asked to look has looked since the last
request was made, and so since the last change that was told was committed.
-/

set_option autoImplicit false

namespace DurableJobs

/-- Whether telling a notice asks the dispatcher to look again. -/
def Notice.wakes : Notice → Bool
  | .enqueued jobs => !jobs.isEmpty
  | .requeued => true
  | _ => false

/-- Whether the dispatcher looks at the table before it waits again, or never waits again. -/
def DispatcherPhase.looksFirst : DispatcherPhase → Bool
  | .recovering => true
  | .counting => true
  | .scanning _ => true
  | .draining => true
  | _ => false

namespace DispatcherPhase

def isWaiting : DispatcherPhase → Bool
  | .waiting _ => true
  | _ => false

theorem exists_delay {phase : DispatcherPhase} (waiting : phase.isWaiting = true) :
    ∃ delay, phase = .waiting delay := by
  cases phase with
  | waiting delay => exact ⟨delay, rfl⟩
  | _ => cases waiting

end DispatcherPhase

namespace Engine

variable {Business : Type}

def Move.isScan : Move Business → Bool
  | .scan _ _ => true
  | _ => false

def LooksFirst (engine : Engine Business) : Prop :=
  ∀ dispatcher, engine.dispatcher = some dispatcher → dispatcher.phase.looksFirst = true

/-- The dispatcher is asked to look again, or it looks before it waits anyway. -/
def Alert (engine : Engine Business) : Prop :=
  engine.isAwake = true ∨ engine.LooksFirst

section Alert

variable {engine after : Engine Business}

theorem isAwake_tell (engine : Engine Business) (notice : Notice) (now : Instant) :
    (engine.tell notice now).isAwake = (engine.isAwake || notice.wakes) := by
  cases notice with
  | enqueued jobs => by_cases none : jobs.isEmpty <;> simp [tell, Notice.wakes, none]
  | requeued => simp [tell, Notice.wakes]
  | _ => simp [tell, Notice.wakes]

theorem looksFirst_of_phase {dispatcher : Dispatcher} (found : after.dispatcher = some dispatcher)
    (looks : dispatcher.phase.looksFirst = true) : after.LooksFirst := by
  intro other isOther
  obtain rfl := Option.some.inj (found.symm.trans isOther)
  exact looks

theorem LooksFirst.of_eq (looksFirst : engine.LooksFirst)
    (same : after.dispatcher.map Dispatcher.phase = engine.dispatcher.map Dispatcher.phase) :
    after.LooksFirst := by
  intro later isLater
  rw [isLater, Option.map_some] at same
  obtain ⟨before, isBefore, samePhase⟩ := Option.map_eq_some_iff.mp same.symm
  rw [← samePhase]
  exact looksFirst before isBefore

/-- A dispatcher at this point does not look first. -/
theorem LooksFirst.not_of_phase {dispatcher : Dispatcher} {phase : DispatcherPhase}
    (looksFirst : engine.LooksFirst) (found : engine.dispatcher = some dispatcher)
    (isPhase : dispatcher.phase = phase) : phase.looksFirst = true :=
  isPhase ▸ looksFirst dispatcher found

theorem Fresh.alert (fresh : engine.Fresh) : engine.Alert :=
  .inr fun dispatcher found => by simp [fresh.dispatcher] at found

theorem phase_setStage (engine : Engine Business) (ticket : Nat) (stage : ExecutionStage) :
    (engine.setStage ticket stage).dispatcher.map Dispatcher.phase =
      engine.dispatcher.map Dispatcher.phase := by
  cases found : engine.dispatcher <;> simp [setStage, found]

theorem phase_setFree (engine : Engine Business) (change : Lanes → Lanes) :
    (engine.setFree change).dispatcher.map Dispatcher.phase =
      engine.dispatcher.map Dispatcher.phase := by
  cases found : engine.dispatcher <;> simp [setFree, found]

/-- No move but a look at the table makes the dispatcher wait without looking first. -/
theorem LooksFirst.step {move : Move Business} (looksFirst : engine.LooksFirst)
    (blind : move.isScan = false) (taken : engine.step move = some after) : after.LooksFirst := by
  have still : SameWork engine after → after.LooksFirst :=
    fun same => looksFirst.of_eq (congrArg _ same.dispatcher)
  cases move with
  | transact program now => exact still (called_of_step rfl taken).toSameWork
  | enqueue job now => exact still (called_of_step rfl taken).toSameWork
  | enqueueAll jobs correlation now => exact still (called_of_step rfl taken).toSameWork
  | cancel id => exact still (called_of_step rfl taken).toSameWork
  | requeue id now => exact still (called_of_step rfl taken).toSameWork
  | announce place now => exact still (announce_sameWork taken).1
  | start =>
      obtain rfl := Option.some.inj taken
      rcases engine.start_cases with same | ⟨_, marked | ⟨free, started⟩⟩
      · rw [same]
        exact looksFirst
      · rw [marked]
        exact looksFirst
      · exact looksFirst_of_phase (by rw [started]) rfl
  | requestStop =>
      obtain ⟨dispatcher, found, rfl⟩ := requestStop_cases taken
      exact looksFirst_of_phase rfl (looksFirst dispatcher found)
  | recover draw now =>
      obtain ⟨_, _, _, _, _, rfl⟩ := recover_cases taken
      exact looksFirst_of_phase rfl rfl
  | count =>
      obtain ⟨_, _, _, _, goesOn, rfl⟩ := count_cases taken
      rcases goesOn with rfl | rfl
      · exact looksFirst_of_phase rfl rfl
      · exact looksFirst_of_phase rfl rfl
  | scan now later => cases blind
  | decide now =>
      obtain ⟨_, _, found, deciding, _⟩ := decide_cases taken
      cases looksFirst.not_of_phase found deciding
  | launch now =>
      obtain ⟨_, found, told | dropped | launched | ended⟩ := launch_cases taken
      · obtain ⟨_, _, _, _, launching, _⟩ := told
        cases looksFirst.not_of_phase found launching
      · obtain ⟨_, _, _, launching, _⟩ := dropped
        cases looksFirst.not_of_phase found launching
      · obtain ⟨_, _, _, _, _, _, launching, _⟩ := launched
        cases looksFirst.not_of_phase found launching
      · obtain ⟨_, launching, _⟩ := ended
        cases looksFirst.not_of_phase found launching
  | rest now =>
      obtain ⟨_, _, _, found, resting, _⟩ := rest_cases taken
      cases looksFirst.not_of_phase found resting
  | wake waking =>
      obtain ⟨_, _, found, waiting, _⟩ := wake_cases taken
      cases looksFirst.not_of_phase found waiting
  | finish =>
      obtain ⟨_, _, _, _, rfl⟩ := finish_cases taken
      intro later isLater
      cases isLater
  | runQueued executor draw now =>
      obtain ⟨execution, notices, database, _, _, rfl⟩ := runQueued_cases taken
      exact looksFirst.of_eq
        (phase_setStage { engine with database := database } execution.ticket (stageAfter notices))
  | acquire ticket =>
      obtain ⟨_, _, _, _, rfl⟩ := acquire_cases taken
      exact looksFirst.of_eq ((phase_setStage _ _ _).trans (phase_setFree _ _))
  | giveBack ticket result =>
      obtain ⟨_, _, _, rfl⟩ := return?_cases taken
      exact looksFirst.of_eq ((phase_setStage _ _ _).trans (phase_setFree _ _))
  | settle ticket draw now =>
      obtain ⟨_, _, _, _, ⟨_, rfl⟩ | ⟨_, _, rfl⟩ | ⟨_, _, _, _, rfl⟩⟩ := settle_cases taken
      · exact looksFirst.of_eq (phase_setStage _ _ _)
      · exact looksFirst.of_eq (phase_setStage _ _ _)
      · exact looksFirst.of_eq (phase_setStage _ _ _)
  | report ticket now =>
      obtain ⟨_, _, ⟨_, rfl⟩ | ⟨notice, rest, _, rfl⟩⟩ := report_cases taken
      · exact looksFirst.of_eq (phase_setStage _ _ _)
      · exact looksFirst.of_eq
          ((congrArg _ (sameWork_tell _ notice now).dispatcher).trans (phase_setStage _ _ _))
  | stopWriter =>
      obtain rfl := Option.some.inj taken
      refine looksFirst.of_eq ?_
      cases found : engine.dispatcher <;> simp [Engine.stopWriter, found]

/-- What a move tells adds to what the dispatcher is asked, and only a dispatcher that begins to count
its slots takes a request. -/
theorem step_isAwake {move : Move Business} (taken : engine.step move = some after) :
    after.isAwake = (engine.isAwake || (engine.said move).any Notice.wakes) ∨
      (after.LooksFirst ∧ engine.said move = []) := by
  have silent : after.isAwake = engine.isAwake → engine.said move = [] →
      after.isAwake = (engine.isAwake || (engine.said move).any Notice.wakes) := by
    intro same nothing
    rw [same, nothing, List.any_nil, Bool.or_false]
  cases move with
  | transact program now => exact .inl (silent (called_of_step rfl taken).isAwake rfl)
  | enqueue job now => exact .inl (silent (called_of_step rfl taken).isAwake rfl)
  | enqueueAll jobs correlation now => exact .inl (silent (called_of_step rfl taken).isAwake rfl)
  | cancel id => exact .inl (silent (called_of_step rfl taken).isAwake rfl)
  | requeue id now => exact .inl (silent (called_of_step rfl taken).isAwake rfl)
  | announce place now =>
      refine .inl ?_
      obtain ⟨quiet, rfl⟩ | ⟨notice, rest, speaking, rfl⟩ := announce_cases taken
      · exact silent rfl (by simp [said, utterances, quiet])
      · simp [isAwake_tell, said, utterances, speaking, Utterance.notice?]
  | start =>
      obtain rfl := Option.some.inj taken
      rcases engine.start_cases with same | ⟨_, marked | ⟨free, started⟩⟩
      · exact .inl (silent (by rw [same]) rfl)
      · exact .inl (silent (by rw [marked]) rfl)
      · exact .inl (silent (by rw [started]) rfl)
  | requestStop =>
      obtain ⟨_, _, rfl⟩ := requestStop_cases taken
      exact .inl (silent rfl rfl)
  | recover draw now =>
      obtain ⟨_, _, _, _, _, rfl⟩ := recover_cases taken
      exact .inl (silent rfl rfl)
  | count =>
      obtain ⟨_, _, _, _, _, rfl⟩ := count_cases taken
      exact .inl (silent rfl rfl)
  | scan now later =>
      obtain ⟨_, _, _, _, _, _, rfl⟩ := scan_cases taken
      exact .inl (silent rfl rfl)
  | decide now =>
      obtain ⟨_, _, _, _, ⟨_, phase, _, rfl⟩ | ⟨_, _, _, _, rfl⟩⟩ := decide_ticks taken
      · exact .inl (silent rfl rfl)
      · exact .inl (silent rfl rfl)
  | launch now =>
      refine .inl ?_
      obtain ⟨dispatcher, found, told | dropped | launched | ended⟩ := launch_cases taken
      · obtain ⟨notice, notices, claimed, tick, launching, rfl⟩ := told
        simp [isAwake_tell, enterPhase, said, utterances, found, launching, Utterance.notice?]
      · obtain ⟨record, claimed, tick, launching, unknown, rfl⟩ := dropped
        exact silent rfl (by simp [said, utterances, found, launching, unknown])
      · obtain ⟨record, claimed, tick, _, _, _, launching, known, _, _, rfl⟩ := launched
        exact silent rfl (by
          simp [said, utterances, found, launching, known, Utterance.notice?])
      · obtain ⟨tick, launching, rfl⟩ := ended
        exact silent rfl (by simp [said, utterances, found, launching])
  | rest now =>
      obtain ⟨_, _, _, _, _, rfl⟩ := rest_cases taken
      exact .inl (silent rfl rfl)
  | wake waking =>
      obtain ⟨_, _, _, _, rfl | rfl | rfl | rfl⟩ := wake_cases taken
      · exact .inl (silent rfl rfl)
      · exact .inr ⟨looksFirst_of_phase rfl rfl, rfl⟩
      · exact .inl (silent rfl rfl)
      · exact .inl (silent rfl rfl)
  | finish =>
      obtain ⟨_, _, _, _, rfl⟩ := finish_cases taken
      exact .inl (silent rfl rfl)
  | runQueued executor draw now =>
      obtain ⟨_, _, _, _, _, rfl⟩ := runQueued_cases taken
      exact .inl (silent rfl rfl)
  | acquire ticket =>
      obtain ⟨_, _, _, _, rfl⟩ := acquire_cases taken
      exact .inl (silent rfl rfl)
  | giveBack ticket result =>
      obtain ⟨_, _, _, rfl⟩ := return?_cases taken
      exact .inl (silent rfl rfl)
  | settle ticket draw now =>
      obtain ⟨_, _, _, _, ⟨_, rfl⟩ | ⟨_, _, rfl⟩ | ⟨_, _, _, _, rfl⟩⟩ := settle_cases taken
      · exact .inl (silent rfl rfl)
      · exact .inl (silent rfl rfl)
      · exact .inl (silent rfl rfl)
  | report ticket now =>
      refine .inl ?_
      obtain ⟨_, found, ⟨quiet, rfl⟩ | ⟨notice, rest, speaking, rfl⟩⟩ := report_cases taken
      · exact silent rfl (by simp [said, utterances, found, quiet])
      · simp [isAwake_tell, setStage, said, utterances, found, speaking, Utterance.notice?]
  | stopWriter =>
      obtain rfl := Option.some.inj taken
      exact .inl (silent rfl rfl)

/-- The dispatcher stays alert until it looks at the table. -/
theorem Alert.step {move : Move Business} (alert : engine.Alert) (blind : move.isScan = false)
    (taken : engine.step move = some after) : after.Alert := by
  rcases alert with awake | looksFirst
  · rcases step_isAwake taken with stays | ⟨looksFirst, _⟩
    · exact .inl (by rw [stays, awake, Bool.true_or])
    · exact .inr looksFirst
  · exact .inr (looksFirst.step blind taken)

/-- Telling what wakes the dispatcher makes it alert. -/
theorem alert_of_said {move : Move Business} (taken : engine.step move = some after)
    (wakes : (engine.said move).any Notice.wakes = true) : after.Alert := by
  rcases step_isAwake taken with stays | ⟨_, silent⟩
  · exact .inl (by rw [stays, wakes, Bool.or_true])
  · simp [silent] at wakes

theorem not_alert_of_waiting {dispatcher : Dispatcher} {delay : Duration}
    (found : engine.dispatcher = some dispatcher) (waiting : dispatcher.phase = .waiting delay)
    (asleep : engine.isAwake = false) : ¬ engine.Alert := by
  rintro (awake | looksFirst)
  · cases asleep.symm.trans awake
  · cases looksFirst.not_of_phase found waiting

/-! ### Runs -/

/-- The notices told in the course of some moves that asked the dispatcher to look again. -/
def wakings (engine : Engine Business) (moves : List (Move Business)) : List Notice :=
  (engine.told moves).filter Notice.wakes

theorem wakings_cons {move : Move Business} (taken : engine.step move = some after)
    (rest : List (Move Business)) :
    engine.wakings (move :: rest) =
      (engine.said move).filter Notice.wakes ++ after.wakings rest := by
  rw [wakings, told_cons taken, List.filter_append, wakings]

theorem wakings_append {moves : List (Move Business)} (ran : engine.run? moves = some after)
    (rest : List (Move Business)) :
    engine.wakings (moves ++ rest) = engine.wakings moves ++ after.wakings rest := by
  rw [wakings, told_append ran, List.filter_append, wakings, wakings]

/-- The last look at the table in the course of some moves: what was done before it led to the engine
that it saw, and since then nothing that was told has asked the dispatcher to look again. -/
structure Looked (first : Engine Business) (moves before : List (Move Business))
    (seen : Engine Business) : Prop where
  ran : first.run? before = some seen
  last : ∃ now later since, moves = before ++ .scan now later :: since ∧
    ∀ move ∈ since, move.isScan = false
  wakings : first.wakings moves = first.wakings before

theorem Looked.cons {move : Move Business} {moves before : List (Move Business)}
    {seen : Engine Business} (taken : engine.step move = some after)
    (looked : Looked after moves before seen) : Looked engine (move :: moves) (move :: before) seen := by
  obtain ⟨now, later, since, rfl, blind⟩ := looked.last
  refine ⟨?_, ⟨now, later, since, rfl, blind⟩, ?_⟩
  · rw [run?, taken, Option.bind_some, looked.ran]
  · rw [wakings_cons taken, wakings_cons taken, looked.wakings]

/-- A move ahead of something told that asked the dispatcher to look is ahead of the last look. -/
theorem Looked.ahead {first seen middle : Engine Business} {move : Move Business}
    {moves before early rest : List (Move Business)} (looked : Looked first moves before seen)
    (isSplit : moves = early ++ move :: rest) (ran : first.run? early = some middle)
    (taken : middle.step move = some after) (woken : after.wakings rest ≠ []) :
    ∃ between, before = early ++ move :: between := by
  obtain ⟨now, later, since, isLast, _⟩ := looked.last
  -- Were the move not ahead of the look, the dispatcher would have been asked since.
  have notBehind : ∀ between, early ≠ before ++ between := by
    rintro between rfl
    have isRest : seen.run? between = some middle := by
      rw [run?_append, looked.ran, Option.bind_some] at ran
      exact ran
    have all := looked.wakings
    rw [isSplit, List.append_assoc, wakings_append looked.ran, wakings_append isRest,
      wakings_cons taken, List.append_right_eq_self] at all
    exact woken (List.append_eq_nil_iff.mp (List.append_eq_nil_iff.mp all).2).2
  rcases List.append_eq_append_iff.mp (isSplit.symm.trans isLast) with
    ⟨more, isBefore, isMore⟩ | ⟨more, isEarly, _⟩
  · cases more with
    | nil => exact absurd (by simpa using isBefore.symm) (notBehind [])
    | cons other between =>
        obtain ⟨rfl, _⟩ := List.cons.inj isMore
        exact ⟨between, isBefore⟩
  · exact absurd isEarly (notBehind more)

/-- A run to an engine that is not alert: either nothing in it made the dispatcher alert, or the
dispatcher looked at the table after all that did. -/
theorem looked_of_not_alert {last : Engine Business} {moves : List (Move Business)}
    (ran : engine.run? moves = some last) (sleepy : ¬ last.Alert) :
    (¬ engine.Alert ∧ engine.wakings moves = [] ∧ ∀ move ∈ moves, move.isScan = false) ∨
      ∃ before seen, Looked engine moves before seen := by
  induction moves generalizing engine with
  | nil =>
      obtain rfl := Option.some.inj ran
      exact .inl ⟨sleepy, rfl, by simp⟩
  | cons move rest ih =>
      obtain ⟨middle, taken, isRest⟩ := Option.bind_eq_some_iff.mp ran
      rcases ih isRest with ⟨notAlert, none, blind⟩ | ⟨before, seen, looked⟩
      · have silent : (engine.said move).filter Notice.wakes = [] := by
          rw [List.filter_eq_nil_iff]
          intro notice member wakes
          exact notAlert (alert_of_said taken (List.any_eq_true.mpr ⟨notice, member, wakes⟩))
        cases isScan : move.isScan with
        | false =>
            refine .inl ⟨fun alert => notAlert (alert.step isScan taken), ?_, ?_⟩
            · rw [wakings_cons taken, silent, none, List.append_nil]
            · exact List.forall_mem_cons.mpr ⟨isScan, blind⟩
        | true =>
            cases move with
            | scan now later =>
                refine .inr ⟨[], engine, rfl, ⟨now, later, rest, rfl, blind⟩, ?_⟩
                rw [wakings_cons taken, silent, none]
                rfl
            | _ => cases isScan
      · exact .inr ⟨move :: before, seen, looked.cons taken⟩

/-- Whatever has been told of a fresh engine was committed before. -/
theorem Fresh.told_le_commits {first last : Engine Business} {moves : List (Move Business)}
    (fresh : first.Fresh) (ran : first.run? moves = some last) :
    (first.told moves : Multiset Notice) ≤ first.commits moves := by
  have balanced := fresh.sound.told_run ran
  rw [fresh.unannounced, zero_add] at balanced
  exact balanced ▸ Multiset.le_add_right _ _

/-- All that ever asked the dispatcher to look was committed ahead of its last look at the table. -/
structure Heeded (first : Engine Business) (moves before : List (Move Business))
    (seen : Engine Business) : Prop extends Looked first moves before seen where
  -- What was told that asks for a look was committed before, and told before.
  committed : (first.wakings moves : Multiset Notice) ≤ first.commits before
  -- So each call that has told such a notice had committed it ahead of the look,
  calls : ∀ early move rest middle after notices, moves = early ++ move :: rest →
    first.run? early = some middle → middle.step move = some after →
    after.owed[middle.owed.length]? = some notices →
    (∃ told ∈ (after.attend middle.owed.length rest).1, told.1.wakes = true) →
    ∃ between, before = early ++ move :: between
  -- and so had each transactional execution.
  executions : ∀ early executor draw now rest middle after execution,
    moves = early ++ .runQueued executor draw now :: rest → first.run? early = some middle →
    middle.nextQueued? = some execution → middle.runQueued executor draw now = some after →
    (∃ notice ∈ after.reports rest execution.ticket, notice.wakes = true) →
    ∃ between, before = early ++ .runQueued executor draw now :: between

theorem reports_sublist (engine : Engine Business) (moves : List (Move Business)) (ticket : Nat) :
    (engine.reports moves ticket).Sublist (engine.told moves) := by
  rw [reports, told]
  induction engine.log moves with
  | nil => exact .slnil
  | cons utterance rest ih =>
      cases utterance with
      | started record now => exact ih
      | told teller notice now =>
          by_cases same : teller = some ticket
          · simpa [Utterance.toldBy?, Utterance.notice?, same] using ih
          · simpa [Utterance.toldBy?, Utterance.notice?, same] using ih.cons notice

theorem wakings_ne_nil {moves : List (Move Business)} {notice : Notice}
    (told : notice ∈ engine.told moves) (wakes : notice.wakes = true) : engine.wakings moves ≠ [] :=
  List.ne_nil_of_mem (List.mem_filter.mpr ⟨told, wakes⟩)

/-- While the dispatcher waits and is not asked to look again, it has looked at the table since
everything that it was told of was committed. -/
theorem Fresh.no_lost_waking {first last : Engine Business} {moves : List (Move Business)}
    {dispatcher : Dispatcher} {delay : Duration} (fresh : first.Fresh)
    (ran : first.run? moves = some last) (found : last.dispatcher = some dispatcher)
    (waiting : dispatcher.phase = .waiting delay) (asleep : last.isAwake = false) :
    ∃ before seen, Heeded first moves before seen := by
  have sleepy : ¬ last.Alert := not_alert_of_waiting found waiting asleep
  rcases looked_of_not_alert ran sleepy with ⟨notAlert, _⟩ | ⟨before, seen, looked⟩
  · exact absurd fresh.alert notAlert
  · have restRan : ∀ {early rest : List (Move Business)} {move middle after},
        moves = early ++ move :: rest → first.run? early = some middle →
        middle.step move = some after → after.run? rest = some last := by
      intro early rest move middle after isSplit isEarly taken
      rw [isSplit, run?_append, isEarly, Option.bind_some, run?, taken] at ran
      exact ran
    refine ⟨before, seen, looked, ?_, ?_, ?_⟩
    · calc
        (first.wakings moves : Multiset Notice) = first.wakings before := by rw [looked.wakings]
        _ ≤ first.told before := List.filter_sublist.subperm
        _ ≤ first.commits before := fresh.told_le_commits looked.ran
    · rintro early move rest middle after notices isSplit isEarly taken _ ⟨told, member, wakes⟩
      have isTold := (attend_sublist middle.owed.length (restRan isSplit isEarly taken)).mem
        (List.mem_map_of_mem member)
      exact looked.ahead isSplit isEarly taken (wakings_ne_nil isTold wakes)
    · rintro early executor draw now rest middle after execution isSplit isEarly _ taken
        ⟨notice, member, wakes⟩
      have isTold := (after.reports_sublist rest execution.ticket).mem member
      exact looked.ahead isSplit isEarly taken (wakings_ne_nil isTold wakes)

/-- A job is enqueued and told while nobody dispatches. The dispatcher starts it, waits, is woken by
that, looks again and waits. -/
theorem no_lost_waking_sample :
    ∃ (first last : Engine Unit) (moves : List (Move Unit)) (dispatcher : Dispatcher)
      (delay : Duration),
      first.Fresh ∧ first.run? moves = some last ∧ last.dispatcher = some dispatcher ∧
      dispatcher.phase = .waiting delay ∧ last.isAwake = false ∧
      (first.wakings moves).length = 1 ∧ ∃ before seen, Heeded first moves before seen := by
  let first : Engine Unit := { sample with database := ⟨Store.Table.empty, (), fun _ _ => none⟩ }
  let moves : List (Move Unit) :=
    [.enqueue (Job.new "reindex" [118] Uuid.zero) Instant.epoch, .announce 0 Instant.epoch] ++
      firstMoves ++
      [.decide Instant.epoch, .launch Instant.epoch, .launch Instant.epoch, .rest Instant.epoch,
        .wake .notice, .count, .scan Instant.epoch Instant.epoch, .rest Instant.epoch]
  have ran : ((first.run? moves).bind fun last => last.dispatcher.map fun dispatcher =>
      (dispatcher.phase.isWaiting, last.isAwake, (first.wakings moves).length)) =
        some (true, false, 1) := by decide +kernel
  obtain ⟨last, isLast, rest⟩ := Option.bind_eq_some_iff.mp ran
  obtain ⟨dispatcher, found, isRest⟩ := Option.map_eq_some_iff.mp rest
  obtain ⟨isWaiting, others⟩ := Prod.mk.inj isRest
  obtain ⟨asleep, woken⟩ := Prod.mk.inj others
  obtain ⟨delay, waiting⟩ := DispatcherPhase.exists_delay isWaiting
  have fresh : first.Fresh := ⟨rfl, rfl, rfl⟩
  exact ⟨first, last, moves, dispatcher, delay, fresh, isLast, found, waiting, asleep, woken,
    Fresh.no_lost_waking fresh isLast found waiting asleep⟩

end Alert

end Engine

end DurableJobs
