import DurableJobs.Proofs.Engine.Works

/-!
A claimed record belongs to its execution.

From the tick that claims it until its own settlement is committed, a record stays as the claim made
it, whatever the engine does meanwhile. So its settlement finds it, and counts failures from where
they are.
-/

set_option autoImplicit false

namespace DurableJobs.Engine

variable {Business : Type}

/-- The record was claimed by a tick, and its execution has not settled it. -/
inductive Unsettled (record : Record) : Engine Business → Prop where
  | claimed {engine after : Engine Business} {now : Instant} (orderly : Orderly engine)
      (taken : engine.decide now = some after) (member : record ∈ after.launching) :
      Unsettled record after
  | moved {engine after : Engine Business} {move : Move Business}
      (unsettled : Unsettled record engine) (leavesJobs : move.LeavesJobs)
      (taken : engine.step move = some after) (other : ¬ engine.Settles record move) :
      Unsettled record after

def Move.recovers : Move Business → Bool
  | .recover _ _ => true
  | _ => false

/-- The record stays running as it was claimed, whatever moves follow, until the next recovery. -/
def Lingers (engine : Engine Business) (record : Record) : Prop :=
  ∀ (moves : List (Move Business)) (last : Engine Business),
    (∀ move ∈ moves, move.LeavesJobs ∧ move.recovers = false) → engine.run? moves = some last →
      last.database.jobs.IsRunning record

/-- Nobody but its execution can touch the record, and its execution can settle it. -/
structure Secured (engine : Engine Business) (record : Record) : Prop where
  -- The row is running, and reads exactly as the claim handed it out.
  running : engine.database.jobs.IsRunning record
  -- As long as the writer runs, the record has one owner.
  owner : engine.isWriterStopped = false →
    record ∈ engine.owned ∧ ∀ other ∈ engine.owned, other.id = record.id → other = record
  -- No move but its own settlement changes the row.
  unchanged : ∀ (move : Move Business) (after : Engine Business), move.LeavesJobs →
    engine.step move = some after → ¬ engine.Settles record move →
    after.database.jobs.find? record.id = engine.database.jobs.find? record.id
  -- Neither a claim of the id nor a tick succeeds in claiming it again.
  unclaimable : ∀ now, engine.database.jobs.claim record.id now = (.ok none, engine.database.jobs)
  untaken : ∀ (now : Instant) (after : Engine Business), engine.decide now = some after →
    ∀ other ∈ after.launching, other.id ≠ record.id
  -- The settlement is committed, and does not find the record missing. If the unit is cut off, it is
  -- settled so that nobody is told, or it stays as it is.
  settles : ∀ (move : Move Business) (after : Engine Business), move.LeavesJobs →
    engine.step move = some after → engine.Settles record move →
    ∃ execution ∈ after.executions, execution.record = record ∧
      ((∃ told settlement, execution.stage = .reporting (told ++ [.settled record settlement]) ∧
          settlement ≠ .missing) ∨
        execution.stage = .ended ∧ engine.CutsOff record move ∧
          ((∃ settlement, engine.hushed move = [(record, settlement)] ∧ settlement ≠ .missing) ∨
            engine.settlement? move = none ∧ after.Lingers record))
  -- The failures that a settlement goes by are those of the row, and a failure adds one.
  failures : ∃ row, engine.database.jobs.find? record.id = some row ∧
    row.failures = .integer record.failures ∧
    ∀ error policy draw now left,
      (engine.database.jobs.settle record (.error error) policy draw now).2.find? record.id =
        some left →
      left.failures = .integer record.nextFailures

section Secured

variable {engine after : Engine Business} {record : Record}

theorem Unsettled.invariant (unsettled : Unsettled record engine) :
    engine.Kept ∧ engine.database.jobs.IsRunning record ∧
      (engine.isWriterStopped = false → record ∈ engine.owned) := by
  induction unsettled with
  | @claimed engine after now orderly taken member =>
      have leavesJobs : (Move.decide now : Move Business).LeavesJobs := trivial
      have kept := orderly.kept.step leavesJobs taken
      have isOwned : record ∈ after.owned := List.mem_append_right _ member
      exact ⟨kept, kept.owned.running record isOwned, fun _ => isOwned⟩
  | @moved engine after move unsettled leavesJobs taken other ih =>
      obtain ⟨kept, running, owned⟩ := ih
      have later := kept.step leavesJobs taken
      by_cases stopped : engine.isWriterStopped = true
      · obtain ⟨stays, same⟩ := kept.sound.step_of_stopped stopped taken
        exact ⟨later, same ▸ running, fun goesOn => by simp [stays] at goesOn⟩
      · have isOwned := owned (by simpa using stopped)
        rcases (kept.dealt leavesJobs taken).keeps record isOwned with still | ⟨stops, same⟩ | settles
        · exact ⟨later, later.owned.running record still, fun _ => still⟩
        · exact ⟨later, same ▸ running, fun goesOn => by simp [stops] at goesOn⟩
        · exact absurd settles other

theorem Kept.find?_eq (kept : engine.Kept)
    (owned : engine.isWriterStopped = false → record ∈ engine.owned) {move : Move Business}
    (leavesJobs : move.LeavesJobs) (taken : engine.step move = some after)
    (other : ¬ engine.Settles record move) :
    after.database.jobs.find? record.id = engine.database.jobs.find? record.id := by
  by_cases stopped : engine.isWriterStopped = true
  · rw [(kept.sound.step_of_stopped stopped taken).2]
  · have dealt := kept.dealt leavesJobs taken
    have isOwned := owned (by simpa using stopped)
    rcases dealt.keeps record isOwned with still | ⟨_, same⟩ | settles
    · exact dealt.deal.find?_eq kept.owned isOwned still
    · rw [same]
    · exact absurd settles other

theorem Kept.id_ne_of_decide {now : Instant} (kept : engine.Kept)
    (running : engine.database.jobs.IsRunning record) (taken : engine.decide now = some after)
    {other : Record} (member : other ∈ after.launching) : other.id ≠ record.id := by
  obtain ⟨dispatcher, lanes, found, deciding,
    ⟨before, later, turned⟩ | ⟨tick, jobs, notices, _, answer, rfl⟩⟩ := decide_cases taken
  · obtain rfl := Option.some.inj (found.symm.trans turned.found)
    rw [launching_of_dispatcher turned.dispatcher, turned.claimed, deciding] at member
    cases member
  · intro same
    have claimed := (kept.owned.consistent.tick_spec answer).claimed other member
    obtain ⟨old, oldFound, pending, _⟩ := claimed.row
    obtain ⟨row, rowFound, isRunning, _⟩ := running
    rw [same, rowFound] at oldFound
    rw [Option.some.inj oldFound, pending] at isRunning
    cases isRunning

/-! ### What becomes of a record without an execution -/

/-- The record is running, and no execution owns it. -/
structure Forsaken (engine : Engine Business) (record : Record) : Prop where
  kept : engine.Kept
  running : engine.database.jobs.IsRunning record
  unowned : ∀ other ∈ engine.owned, other.id ≠ record.id

theorem Work.sparesRunning {move : Move Business} {jobs : Store.Table}
    (work : Work engine move jobs) (consistent : engine.database.jobs.Consistent)
    (unrecovered : move.recovers = false) (running : engine.database.jobs.IsRunning record)
    (unowned : ∀ other ∈ engine.owned, other.id ≠ record.id) : jobs.IsRunning record := by
  cases work with
  | idle same => exact same ▸ running
  | enqueued _ _ _ _ _ renewed => exact running.spared renewed.sparesRunning
  | @canceled id _ _ same => exact same ▸ running.spared (consistent.cancel_spares id)
  | @requeued id now _ _ same => exact same ▸ running.spared (consistent.requeue_spares id now)
  | recovered isMove =>
      rw [isMove] at unrecovered
      cases unrecovered
  | ticked tick _ _ answer => exact running.spared (consistent.tick_spec answer).spared
  | @settled told other result settlement middle draw now _ _ _ _ _ member renewed answer =>
      obtain ⟨row, found, isRunning, isRecord⟩ := running.spared renewed.sparesRunning
      have same := (renewed.reaches.consistent consistent).find?_settle_of_ne other result
        engine.config.retry draw now (unowned other member).symm
      rw [answer] at same
      exact ⟨row, same.trans found, isRunning, isRecord⟩

theorem Forsaken.lingers (forsaken : engine.Forsaken record) : engine.Lingers record := by
  intro moves last apart ran
  induction moves generalizing engine with
  | nil => exact Option.some.inj ran ▸ forsaken.running
  | cons move rest ih =>
      obtain ⟨middle, taken, isRest⟩ := Option.bind_eq_some_iff.mp ran
      obtain ⟨leavesJobs, unrecovered⟩ := apart move List.mem_cons_self
      obtain ⟨kept, running, unowned⟩ := forsaken
      have consistent := kept.owned.consistent
      refine ih ⟨kept.step leavesJobs taken, ?_, ?_⟩
        (fun other member => apart other (List.mem_cons_of_mem _ member)) isRest
      · exact (kept.work leavesJobs taken).sparesRunning consistent unrecovered running unowned
      · exact (kept.dealt leavesJobs taken).deal.unowned consistent running unowned

/-- A unit of which nothing is told has settled its record all the same, or it leaves it running. -/
theorem Kept.silence {executor : Record → Program Business JobError TransactionalOutcome}
    {draw : Nat} {now : Instant} {execution : Execution} (kept : engine.Kept)
    (leavesJobs : ∀ record, (executor record).LeavesJobs)
    (taken : engine.runQueued executor draw now = some after)
    (isNext : engine.nextQueued? = some execution)
    (silent : engine.notices (.runQueued executor draw now) = [])
    (running : engine.database.jobs.IsRunning execution.record) :
    (∃ settlement, engine.hushed (.runQueued executor draw now) = [(execution.record, settlement)] ∧
        settlement ≠ .missing) ∨
      engine.settlement? (.runQueued executor draw now) = none ∧
        after.Lingers execution.record := by
  have consistent := kept.owned.consistent
  have isMove : engine.step (.runQueued executor draw now) = some after := taken
  have leaves : (Move.runQueued executor draw now : Move Business).LeavesJobs := leavesJobs
  have later := kept.step leaves isMove
  have work := kept.work leaves isMove
  -- The unit was the only owner of its record.
  have unowned : ∀ other ∈ after.owned, other.id ≠ execution.record.id := by
    obtain ⟨other, notices?, database, isOther, _, rfl⟩ := runQueued_cases taken
    obtain rfl := Option.some.inj (isNext.symm.trans isOther)
    obtain ⟨member, queued⟩ := mem_of_nextQueued? isNext
    have staged := staged_setStage member (isQueued_stageAfter notices?)
      (sameWork_committed engine database engine.owed)
    obtain ⟨left, right, before, afterwards⟩ :=
      staged.owned_of_settled kept.sound (by rw [queued]; rfl) (isOwning_stageAfter notices?)
    have owned := kept.owned
    rw [before] at owned
    intro other isOwned
    rw [afterwards] at isOwned
    exact owned.id_ne_of_settled isOwned
  cases work with
  | idle same _ _ settles =>
      exact .inr ⟨settles, (⟨later, same ▸ running, unowned⟩ : Forsaken after _).lingers⟩
  | enqueued _ settles _ _ _ renewed =>
      exact .inr ⟨settles,
        (⟨later, running.spared renewed.sparesRunning, unowned⟩ : Forsaken after _).lingers⟩
  | canceled isMove => cases isMove
  | requeued isMove => cases isMove
  | recovered isMove => cases isMove
  | ticked tick isMove => cases isMove
  | @settled told record result settlement middle chosen time notices _ settles _ _ _ renewed
      answer =>
      rcases notices with ⟨told, _⟩ | ⟨_, _, hushed⟩
      · rw [silent] at told
        simp at told
      · obtain ⟨settledResult, _, same⟩ : ∃ settledResult,
            engine.settledBy (executor execution.record) now = some settledResult ∧
              (execution.record, settledResult) = (record, result) := by
          simpa [settlement?, isNext] using settles
        obtain ⟨rfl, _⟩ := Prod.mk.inj same
        obtain ⟨row, found, _⟩ := running.spared renewed.sparesRunning
        obtain ⟨other, settled, isFound⟩ := (renewed.reaches.consistent consistent).settle_of_found
          execution.record result engine.config.retry chosen time found
        rw [answer] at settled
        obtain rfl := Except.ok.inj settled
        exact .inl ⟨settlement, hushed, isFound⟩

theorem Kept.settles (kept : engine.Kept) (running : engine.database.jobs.IsRunning record)
    {move : Move Business} (leavesJobs : move.LeavesJobs) (taken : engine.step move = some after)
    (settles : engine.Settles record move) :
    ∃ execution ∈ after.executions, execution.record = record ∧
      ((∃ told settlement, execution.stage = .reporting (told ++ [.settled record settlement]) ∧
          settlement ≠ .missing) ∨
        execution.stage = .ended ∧ engine.CutsOff record move ∧
          ((∃ settlement, engine.hushed move = [(record, settlement)] ∧ settlement ≠ .missing) ∨
            engine.settlement? move = none ∧ after.Lingers record)) := by
  have consistent := kept.owned.consistent
  have work := kept.work leavesJobs taken
  have later := kept.step leavesJobs taken
  cases move with
  | settle ticket draw now =>
      obtain ⟨goesOn, execution, isExecution, rfl⟩ := settles
      obtain ⟨other, result, isOther, _, ended⟩ := settle_cases taken
      obtain rfl := Option.some.inj (isExecution.symm.trans isOther)
      obtain ⟨member, rfl⟩ := mem_of_execution? isExecution
      obtain ⟨row, found, _⟩ := running
      obtain ⟨settlement, settled, isFound⟩ := consistent.settle_of_found execution.record result
        engine.config.retry draw now found
      rcases ended with ⟨stopped, _⟩ | ⟨_, ⟨error, refused⟩, _⟩ | ⟨other, jobs, _, answer, rfl⟩
      · cases goesOn.symm.trans stopped
      · cases refused.symm.trans settled
      · rw [answer] at settled
        obtain rfl := Except.ok.inj settled
        have staged := staged_setStage member (rfl : (ExecutionStage.reporting
          [.settled execution.record other]).isQueued = false)
          (sameWork_committed engine { engine.database with jobs := jobs } engine.owed)
        exact ⟨_, staged.reached, rfl, .inl ⟨[], other, rfl, isFound⟩⟩
  | runQueued executor draw now =>
      obtain ⟨execution, isNext, rfl⟩ := settles
      obtain ⟨other, notices?, database, isOther, ran, rfl⟩ := runQueued_cases taken
      obtain rfl := Option.some.inj (isNext.symm.trans isOther)
      obtain ⟨member, queued⟩ := mem_of_nextQueued? isNext
      have owning : execution.stage.isOwning = true := by rw [queued]; rfl
      have unqueued : (stageAfter notices?).isQueued = false := isQueued_stageAfter _
      have idle : (stageAfter notices?).isOwning = false := isOwning_stageAfter _
      have staged := staged_setStage member unqueued
        (sameWork_committed engine database engine.owed)
      obtain ⟨_, _, isRun, ends⟩ := runTransactional_settles consistent engine.registry
        engine.config.retry execution.record (leavesJobs execution.record) draw now
      obtain ⟨rfl, rfl⟩ := Prod.mk.inj (ran.symm.trans isRun)
      have notices : engine.notices (.runQueued executor draw now) = notices?.getD [] := by
        simp [Engine.notices, isNext, ran]
      refine ⟨_, staged.reached, rfl, ?_⟩
      rcases ends with
        ⟨settlement, middle, result, enqueues, answer, ⟨told, rfl, _⟩ | ⟨rfl, cutOff⟩⟩ |
          ⟨enqueues, rfl, cutOff⟩
      · obtain ⟨afterwards, spared⟩ := consistent.enqueues_spares enqueues
        obtain ⟨row, found, _⟩ := running.spared spared
        obtain ⟨other, settled, isFound⟩ := afterwards.settle_of_found execution.record result
          engine.config.retry draw now found
        rw [answer] at settled
        obtain rfl := Except.ok.inj settled
        exact .inl ⟨told, settlement, rfl, isFound⟩
      · exact .inr ⟨rfl, cutOff, kept.silence leavesJobs taken isNext notices running⟩
      · exact .inr ⟨rfl, cutOff, kept.silence leavesJobs taken isNext notices running⟩
  | _ => exact absurd settles id

/-- Whatever an engine does, a claimed record that is not settled is secured. -/
theorem claimed_record_stays (unsettled : Unsettled record engine) : engine.Secured record := by
  obtain ⟨kept, running, owned⟩ := unsettled.invariant
  have consistent := kept.owned.consistent
  obtain ⟨row, found, isRunning, isRecord⟩ := running
  refine
    { running := ⟨row, found, isRunning, isRecord⟩
      owner := ?_
      unchanged := fun move after leavesJobs taken other =>
        kept.find?_eq owned leavesJobs taken other
      unclaimable := ?_
      untaken := fun now after taken other member =>
        kept.id_ne_of_decide ⟨row, found, isRunning, isRecord⟩ taken member
      settles := fun move after leavesJobs taken settles =>
        kept.settles ⟨row, found, isRunning, isRecord⟩ leavesJobs taken settles
      failures := ?_ }
  · intro goesOn
    refine ⟨owned goesOn, fun other member same => ?_⟩
    exact List.inj_on_of_nodup_map kept.owned.distinct member (owned goesOn) same
  · intro now
    rcases consistent.claim_cases record.id now with ⟨_, answer⟩ | ⟨other, otherFound, pending, _⟩
    · exact answer
    · obtain rfl := Option.some.inj (found.symm.trans otherFound)
      cases isRunning.symm.trans pending
  · exact ⟨row, found, (Store.Row.holds_of_record isRecord).failures.1,
      fun error policy draw now left leftFound =>
        consistent.failures_of_settle record policy draw now leftFound⟩

theorem Unsettled.run (unsettled : Unsettled record engine) {moves : List (Move Business)}
    (apart : ∀ move ∈ moves, move.LeavesJobs ∧ ∀ middle : Engine Business, ¬ middle.Settles record move)
    (ran : engine.run? moves = some after) : Unsettled record after := by
  induction moves generalizing engine with
  | nil => exact Option.some.inj ran ▸ unsettled
  | cons move rest ih =>
      obtain ⟨middle, taken, isRest⟩ := Option.bind_eq_some_iff.mp ran
      obtain ⟨leavesJobs, other⟩ := apart move List.mem_cons_self
      exact ih (unsettled.moved leavesJobs taken (other engine))
        (fun later member => apart later (List.mem_cons_of_mem _ member)) isRest

end Secured

/-- While a claimed record waits for its turn, its execution is launched, another job comes, and calls
try to cancel and to requeue it. -/
theorem claimed_record_stays_sample :
    ∃ (engine after last : Engine Unit) (record : Record), sample.run? firstMoves = some engine ∧
      engine.decide Instant.epoch = some after ∧ after.launching = [record] ∧ record.id = 1 ∧
      after.run? [.launch Instant.epoch, .enqueue (Job.new "reindex" [119] Uuid.zero) Instant.epoch,
        .cancel 1, .requeue 1 Instant.epoch] = some last ∧
      last.database.jobs.ids = [1, 2] ∧ Secured last record := by
  let moves : List (Move Unit) := [.launch Instant.epoch,
    .enqueue (Job.new "reindex" [119] Uuid.zero) Instant.epoch, .cancel 1, .requeue 1 Instant.epoch]
  have claimed : ((sample.run? firstMoves).bind fun engine =>
      (engine.decide Instant.epoch).bind fun after => (after.run? moves).map fun last =>
        (after.launching.map Record.id, last.database.jobs.ids)) = some ([1], [1, 2]) := by
    decide +kernel
  obtain ⟨engine, ran, isRest⟩ := Option.bind_eq_some_iff.mp claimed
  obtain ⟨after, decided, isLast⟩ := Option.bind_eq_some_iff.mp isRest
  obtain ⟨last, moved, both⟩ := Option.map_eq_some_iff.mp isLast
  obtain ⟨launched, stored⟩ := Prod.mk.inj both
  obtain ⟨record, isLaunching, isOne⟩ := List.map_eq_singleton_iff.mp launched
  have consistent : sample.database.jobs.Consistent :=
    (Store.Table.consistent_empty.enqueue_reaches _ _).consistent Store.Table.consistent_empty
  have orderly : Orderly engine :=
    (Orderly.fresh fresh_sample consistent).run (by simp [firstMoves, Move.LeavesJobs]) ran
  have unsettled : Unsettled record after := .claimed orderly decided (by simp [isLaunching])
  have apart : ∀ move ∈ moves, move.LeavesJobs ∧
      ∀ middle : Engine Unit, ¬ middle.Settles record move := by
    simp [moves, Move.LeavesJobs, Settles]
  exact ⟨engine, after, last, record, ran, decided, isLaunching, isOne, moved, stored,
    claimed_record_stays (unsettled.run apart moved)⟩

end DurableJobs.Engine
