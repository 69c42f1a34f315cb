import DurableJobs.Proofs.Engine.Deeds
import DurableJobs.Proofs.Engine.Fates

/-!
Attempts and failures.

A record is claimed before it is executed, so it has failed at most as often as it was claimed. The one
exception is a record that is given up because its type has no executor: that counts as a failure too,
though nothing was executed.
-/

set_option autoImplicit false

namespace DurableJobs

/-- The row shows at most as many failures as attempts. -/
def Store.Row.FailsWithinAttempts (row : Row) : Prop :=
  ∃ attempts failures : Nat, row.attempts = .integer attempts ∧ row.failures = .integer failures ∧
    failures ≤ attempts

theorem Store.Number.increment_integer {count : Nat} (fits : count ≤ Record.countLimit) :
    (Number.integer count).increment = .integer (count + 1 : Nat) := by
  have small : isInt64 ((count : Int) + 1) = true := by
    unfold Record.countLimit at fits
    unfold isInt64
    rw [Bool.and_eq_true, decide_eq_true_iff, decide_eq_true_iff]
    omega
  unfold increment
  exact if_pos small

theorem Store.Cell.increment_integer {count : Nat} (fits : count ≤ Record.countLimit) :
    (Cell.integer count).increment = .integer (count + 1 : Nat) := by
  unfold increment number?
  dsimp only
  rw [Number.increment_integer fits]
  rfl

theorem Store.Row.attempts_claim (row : Row) (now : Instant) :
    (row.claim now).attempts = row.attempts.increment := rfl

namespace Engine

variable {Business : Type}

/-- The move gives up a record that was not claimed since it failed last. -/
def Overcounts (engine : Engine Business) (move : Move Business) : Prop :=
  ∃ record ∈ engine.givenUp move, record.attempts < record.nextFailures

/-- The counts of a row; one that runs was claimed for an execution that has not failed yet. -/
structure Counted (row : Store.Row) (attempts failures : Nat) : Prop where
  attempts_eq : row.attempts = .integer attempts
  failures_eq : row.failures = .integer failures
  fits : attempts ≤ Record.countLimit
  failures_le : failures ≤ attempts
  running : row.state = .running → failures < attempts

section Counts

variable {engine after : Engine Business} {move : Move Business} {jobs : Store.Table} {id : Int}
  {row? : Option Store.Row} {row : Store.Row} {reckoning : Reckoning}

theorem counted_of_isUntried (untried : row.IsUntried) : Counted row 0 0 where
  attempts_eq := untried.attempts
  failures_eq := untried.failures
  fits := Nat.zero_le _
  failures_le := Nat.le_refl _
  running := fun running => by cases running.symm.trans untried.pending

theorem Counted.of_record {attempts failures : Nat} (counted : Counted row attempts failures)
    {record : Record} (isRecord : row.record = .ok record) :
    record.attempts = attempts ∧ record.failures = failures := by
  have holds := Store.Row.holds_of_record isRecord
  have isAttempts := Store.Cell.integer.inj (holds.attempts.1.symm.trans counted.attempts_eq)
  have isFailures := Store.Cell.integer.inj (holds.failures.1.symm.trans counted.failures_eq)
  omega

theorem Fate.counted (fate : Fate engine move jobs id row? (some row) reckoning)
    (counted : ∀ old, row? = some old → ∃ attempts failures, Counted old attempts failures)
    (fair : ¬ engine.Overcounts move) : ∃ attempts failures, Counted row attempts failures := by
  cases fate with
  | untouched => exact counted row rfl
  | enqueued _ _ untried => exact ⟨0, 0, counted_of_isUntried untried⟩
  | @claimed old record now pending isRecord =>
      obtain ⟨attempts, failures, before⟩ := counted old rfl
      have increased : (old.claim now).attempts = .integer (attempts + 1 : Nat) := by
        rw [Store.Row.attempts_claim, before.attempts_eq,
          Store.Cell.increment_integer before.fits]
      have holds := (Store.Row.holds_of_record isRecord).attempts
      have isAttempts := Store.Cell.integer.inj (holds.1.symm.trans increased)
      have failures_le := before.failures_le
      exact ⟨attempts + 1, failures, increased, before.failures_eq, by omega, by omega,
        fun _ => by omega⟩
  | @gaveUp old record now pending isRecord member =>
      obtain ⟨attempts, failures, before⟩ := counted old rfl
      obtain ⟨isAttempts, _⟩ := before.of_record isRecord
      have enough : ¬ record.attempts < record.nextFailures := fun excess =>
        fair ⟨record, member, excess⟩
      exact ⟨attempts, record.nextFailures, before.attempts_eq, rfl, before.fits, by omega, nofun⟩
  | @cameBack old notBefore now running =>
      obtain ⟨attempts, failures, before⟩ := counted old rfl
      exact ⟨attempts, failures, before.attempts_eq, before.failures_eq, before.fits, before.failures_le,
        nofun⟩
  | @failed old record error notBefore now settles running isRecord spared =>
      obtain ⟨attempts, failures, before⟩ := counted old rfl
      obtain ⟨_, isFailures⟩ := before.of_record isRecord
      have below := before.running running
      refine ⟨attempts, record.nextFailures, before.attempts_eq, rfl, before.fits, ?_, nofun⟩
      rw [Record.nextFailures]
      omega
  | @deadLettered old record error now settles running isRecord exhausted =>
      obtain ⟨attempts, failures, before⟩ := counted old rfl
      obtain ⟨_, isFailures⟩ := before.of_record isRecord
      have below := before.running running
      refine ⟨attempts, record.nextFailures, before.attempts_eq, rfl, before.fits, ?_, nofun⟩
      rw [Record.nextFailures]
      omega
  | requeued _ _ => exact ⟨0, 0, counted_of_isUntried (Store.Row.isUntried_requeue _ _)⟩

end Counts

/-! ### Courses -/

section Courses

variable {first engine after last : Engine Business}

/-- Each row of the job table has counts that go together. -/
def IsCounted (engine : Engine Business) : Prop :=
  ∀ row ∈ engine.database.jobs.rows, ∃ attempts failures, Counted row attempts failures

/-- No move of a course overcounts. -/
def NeverOvercounts (first : Engine Business) (deeds : List (Deed Business)) : Prop :=
  ∀ past engine move, past ++ [.move move] <+: deeds → first.course? past = some engine →
    ¬ engine.Overcounts move

theorem Orderly.counted_perform {deed : Deed Business} (orderly : Orderly engine)
    (leavesJobs : deed.LeavesJobs) (counted : engine.IsCounted)
    (fair : ∀ move, deed = .move move → ¬ engine.Overcounts move)
    (done : engine.perform? deed = some after) : after.IsCounted := by
  cases deed with
  | move move =>
      intro row member
      have kept := orderly.kept
      have later := (kept.step leavesJobs done).owned.consistent
      have fate := kept.fate leavesJobs done row.id
      rw [later.find?_of_mem member] at fate
      refine fate.counted (fun old found => ?_) (fair move rfl)
      exact counted old (Store.Table.mem_of_find? found)
  | reopen registry config =>
      obtain ⟨_, _, _, database⟩ := reopen?_cases done
      intro row member
      rw [database] at member
      exact counted row member

theorem Orderly.counted_course {deeds : List (Deed Business)} (orderly : Orderly first)
    (leaveJobs : ∀ deed ∈ deeds, deed.LeavesJobs) (counted : first.IsCounted)
    (fair : first.NeverOvercounts deeds) (came : first.course? deeds = some last) :
    last.IsCounted := by
  induction deeds generalizing first with
  | nil => exact Option.some.inj came ▸ counted
  | cons deed rest ih =>
      obtain ⟨middle, done, isRest⟩ := Option.bind_eq_some_iff.mp came
      have leavesJobs := leaveJobs deed List.mem_cons_self
      have firstFair : ∀ move, deed = .move move → ¬ first.Overcounts move := by
        rintro move rfl
        exact fair [] first move ⟨rest, rfl⟩ rfl
      have restFair : middle.NeverOvercounts rest := by
        rintro past engine move ⟨left, rfl⟩ reached
        refine fair (deed :: past) engine move ⟨left, rfl⟩ ?_
        rw [course?, done, Option.bind_some, reached]
      exact ih (orderly.perform leavesJobs done)
        (fun other member => leaveJobs other (List.mem_cons_of_mem _ member))
        (orderly.counted_perform leavesJobs counted firstFair done) restFair isRest

/-- A move that overcounts leaves a record with more failures than attempts. -/
theorem Overcounts.left {move : Move Business} (excess : engine.Overcounts move)
    (orderly : Orderly engine) (taken : engine.step move = some after) :
    ∃ row ∈ after.database.jobs.rows, ¬ row.FailsWithinAttempts := by
  obtain ⟨record, member, exceeds⟩ := excess
  have consistent := orderly.kept.owned.consistent
  cases move with
  | decide now =>
      simp only [givenUp] at member
      obtain ⟨_, _, _, _, ⟨none, _⟩ | ⟨tick, _, isTick, answer, rfl⟩⟩ := decide_ticks taken
      · simp [none] at member
      · rw [isTick, Option.elim_some] at member
        obtain ⟨entry, isUnknown, rfl⟩ := List.mem_map.mp member
        obtain ⟨_, old, _, _, isRecord, left⟩ :=
          (consistent.tick_sifted answer).givenUp entry isUnknown
        refine ⟨_, Store.Table.mem_of_find? left, ?_⟩
        rintro ⟨attempts, failures, isAttempts, isFailures, within⟩
        have held := (Store.Row.holds_of_record isRecord).attempts.1
        have sameAttempts := Store.Cell.integer.inj (held.symm.trans isAttempts)
        have sameFailures : ((entry.1.nextFailures : Nat) : Int) = failures :=
          Store.Cell.integer.inj isFailures
        omega
  | _ => cases member

/-- However an engine came about from an empty store, across restarts with any executors: no record
ever shows more failures than attempts if and only if no tick gave one up that had failed as often as
it was claimed. -/
theorem failures_le_attempts_iff {writerName : String} {registry : Registry}
    {config : EngineConfig} {business : Business}
    {refusal? : Business → Business → Option StoreError}
    (opened : start? writerName registry config business refusal? = .succeeded first)
    {deeds : List (Deed Business)} (leaveJobs : ∀ deed ∈ deeds, deed.LeavesJobs)
    (came : first.course? deeds = some last) :
    (∀ past engine, past <+: deeds → first.course? past = some engine →
        ∀ row ∈ engine.database.jobs.rows, row.FailsWithinAttempts) ↔
      first.NeverOvercounts deeds := by
  have orderly := orderly_of_start? opened
  constructor
  · rintro within past engine move ⟨rest, rfl⟩ reached excess
    rw [course?_append, course?_append, reached, Option.bind_some] at came
    obtain ⟨after, isAfter, _⟩ := Option.bind_eq_some_iff.mp came
    obtain ⟨_, done, isSame⟩ := Option.bind_eq_some_iff.mp isAfter
    obtain rfl := Option.some.inj isSame
    have before := orderly.course (fun deed member =>
      leaveJobs deed (List.mem_append_left _ (List.mem_append_left _ member))) reached
    obtain ⟨row, member, exceeds⟩ := excess.left before done
    exact exceeds (within (past ++ [.move move]) _ ⟨rest, rfl⟩ (course?_concat reached done) row
      member)
  · rintro fair past engine ⟨rest, rfl⟩ reached row member
    have empty : first.IsCounted := by
      intro row member
      rw [(start?_eq opened).2.2.1] at member
      cases member
    have pastFair : first.NeverOvercounts past := by
      rintro before middle move ⟨left, rfl⟩ isMiddle
      exact fair before middle move ⟨left ++ rest, by simp⟩ isMiddle
    obtain ⟨attempts, failures, counted⟩ := orderly.counted_course (fun deed listed =>
      leaveJobs deed (List.mem_append_left _ listed)) empty pastFair reached row member
    exact ⟨attempts, failures, counted.attempts_eq, counted.failures_eq, counted.failures_le⟩

end Courses

/-- A job is enqueued, and the process dies before it is claimed; the next one has no executor for
it. -/
def retirement : List (Deed Unit) :=
  [.move (.enqueue (Job.new "reindex" [118] Uuid.zero) Instant.epoch),
      .reopen Registry.empty EngineConfig.standard] ++
    (firstMoves ++ [Move.decide Instant.epoch]).map Deed.move

theorem leavesJobs_retirement : ∀ deed ∈ retirement, deed.LeavesJobs := by
  simp [retirement, firstMoves, Deed.LeavesJobs, Move.LeavesJobs]

theorem course?_retirement : ∃ first last : Engine Unit, ∃ row : Store.Row,
    start? "jobs" sample.registry EngineConfig.standard () = .succeeded first ∧
      first.course? retirement = some last ∧ last.database.jobs.rows = [row] ∧
      row.attempts = .integer 0 ∧ row.failures = .integer 1 := by
  have ran : ((start? "jobs" sample.registry EngineConfig.standard ()).value?.bind fun first =>
      (first.course? retirement).map fun last => (last.database.jobs.rows.map fun row =>
        (row.attempts, row.failures))) = some [(.integer 0, .integer 1)] := by decide +kernel
  obtain ⟨first, opened, isLast⟩ := Option.bind_eq_some_iff.mp ran
  obtain ⟨last, came, rows⟩ := Option.map_eq_some_iff.mp isLast
  obtain ⟨row, isRow, counted⟩ := List.map_eq_singleton_iff.mp rows
  obtain ⟨attempts, failures⟩ := Prod.mk.inj counted
  exact ⟨first, last, row, Attempt.eq_succeeded opened, came, isRow, attempts, failures⟩

theorem not_failsWithinAttempts {row : Store.Row} (attempts : row.attempts = .integer 0)
    (failures : row.failures = .integer 1) : ¬ row.FailsWithinAttempts := by
  rintro ⟨claimed, failed, isClaimed, isFailed, within⟩
  have none := Store.Cell.integer.inj (attempts.symm.trans isClaimed)
  have one := Store.Cell.integer.inj (failures.symm.trans isFailed)
  omega

theorem failures_le_attempts_iff_retirement :
    ∃ first : Engine Unit,
      start? "jobs" sample.registry EngineConfig.standard () = .succeeded first ∧
      ¬ first.NeverOvercounts retirement := by
  obtain ⟨first, last, row, opened, came, rows, attempts, failures⟩ := course?_retirement
  refine ⟨first, opened, fun fair => ?_⟩
  have within := (failures_le_attempts_iff opened leavesJobs_retirement came).mpr fair
  exact not_failsWithinAttempts attempts failures
    (within retirement last (List.prefix_refl _) came row (by simp [rows]))

/-- A record that was never claimed shows a failed execution. -/
theorem failure_without_attempt :
    ∃ (first last : Engine Unit) (deeds : List (Deed Unit)) (row : Store.Row),
      start? "jobs" sample.registry EngineConfig.standard () = .succeeded first ∧
      (∀ deed ∈ deeds, deed.LeavesJobs) ∧ first.course? deeds = some last ∧
      row ∈ last.database.jobs.rows ∧ row.attempts = .integer 0 ∧ row.failures = .integer 1 ∧
      ¬ row.FailsWithinAttempts := by
  obtain ⟨first, last, row, opened, came, rows, attempts, failures⟩ := course?_retirement
  exact ⟨first, last, retirement, row, opened, leavesJobs_retirement, came, by simp [rows],
    attempts, failures, not_failsWithinAttempts attempts failures⟩

end Engine

end DurableJobs
