import DurableJobs.Proofs.Instant
import DurableJobs.Proofs.Store.Changes
import DurableJobs.Proofs.Store.Reading
import DurableJobs.Proofs.Uuid

/-!
Records that can be read back.

Whatever the store is given to keep, it can give back: every row that the operations write can be
read as a record. There is one exception: attempts are counted without a limit, so a record that was
claimed too often without being requeued can be read no more. The other columns of its row still can.
-/

set_option autoImplicit false

namespace DurableJobs

/-- Every instant that the job names can be kept. -/
def Job.IsStorable (job : Job) : Prop :=
  ∀ instant, job.notBefore = some instant → instant.IsStorable

theorem Job.IsStorable.notBeforeAt {job : Job} (storable : job.IsStorable) {now : Instant}
    (clock : now.IsStorable) : (job.notBeforeAt now).IsStorable := by
  unfold Job.notBeforeAt
  split
  · next instant isInstant => exact storable instant isInstant
  · exact Instant.isStorable_after _ _
  · exact clock

namespace Store

namespace Row

theorem readUuid_of_ofText? {index : Nat} {column text : String} {id : Uuid}
    (isId : Uuid.ofText? text = some id) : readUuid index column (.text text) = .ok id := by
  have isText : readText index column (.text text) = .ok text := rfl
  simp [readUuid, bind, Except.bind, pure, Except.pure, isText, isId]

theorem readCount_of_le {index : Nat} {column : String} {count : Nat}
    (small : count ≤ Record.countLimit) :
    readCount index column (.integer count) = .ok count := by
  have fits : (0 : Int) ≤ count ∧ (count : Int) ≤ Record.countLimit := by omega
  exact if_pos fits

theorem readPriority_number {index : Nat} {column : String} (priority : Priority) :
    readPriority index column (.integer priority.number) = .ok priority := by
  cases priority <;> rfl

/-- A row that holds a record is read as that record. -/
theorem record_of_holds {row : Row} {record : Record} (holds : row.Holds record) :
    row.record = .ok record := by
  obtain ⟨notBefore, isNotBefore, notBeforeRead⟩ := holds.notBefore
  obtain ⟨correlation, isCorrelation, correlationRead⟩ := holds.correlationId
  obtain ⟨createdAt, isCreatedAt, createdAtRead⟩ := holds.createdAt
  obtain ⟨updatedAt, isUpdatedAt, updatedAtRead⟩ := holds.updatedAt
  rw [Row.record, holds.jobType, holds.payload, holds.priority, isNotBefore, holds.debounceKey,
    holds.sagaId, isCorrelation, holds.attempts.1, holds.failures.1, holds.lastError, isCreatedAt,
    isUpdatedAt, readPriority_number, readInstant_of_ofMillis? notBeforeRead, readOptional_ofText?,
    readUuid_of_ofText? correlationRead, readCount_of_le holds.attempts.2,
    readCount_of_le holds.failures.2, readOptional_ofText?, readInstant_of_ofMillis? createdAtRead,
    readInstant_of_ofMillis? updatedAtRead, holds.id, holds.state]
  rfl

/-- Whatever its attempts are, the other columns of the row can be read. -/
def IsLegible (row : Row) : Prop :=
  ∃ record, ({ row with attempts := .integer 0 } : Row).Holds record

/-- The row was claimed more often than a record can tell. -/
def IsWornOut (row : Row) : Prop :=
  ∀ attempts : Nat, attempts ≤ Record.countLimit → row.attempts ≠ .integer attempts

theorem IsLegible.holds {row : Row} (legible : row.IsLegible) (fresh : ¬ row.IsWornOut) :
    ∃ record, row.Holds record := by
  obtain ⟨record, others⟩ := legible
  simp only [IsWornOut, not_forall, not_not] at fresh
  obtain ⟨attempts, few, isAttempts⟩ := fresh
  exact ⟨{ record with attempts }, { others with attempts := ⟨isAttempts, few⟩ }⟩

section Edits

variable {row : Row} {now : Instant}

theorem isLegible_ofJob (id : Int) {job : Job} (storable : job.IsStorable)
    (clock : now.IsStorable) : (ofJob id job now).IsLegible := by
  obtain ⟨due, isDue⟩ := storable.notBeforeAt clock
  obtain ⟨time, isTime⟩ := clock
  refine ⟨
    { id, jobType := job.jobType, payload := job.payload, priority := job.priority, notBefore := due
      debounceKey := job.debounceKey, sagaId := job.sagaId, correlationId := job.correlationId
      state := .pending, attempts := 0, failures := 0, lastError := none, createdAt := time
      updatedAt := time }, ?_⟩
  have saga : readOptional (readUuid 6 "saga_id") (.ofText? (job.sagaId.map Uuid.text)) =
      .ok job.sagaId := by
    cases job.sagaId with
    | none => rfl
    | some saga =>
        show (readUuid 6 "saga_id" (.text saga.text)).map some = .ok (some saga)
        rw [readUuid_of_ofText? (Uuid.ofText?_text saga)]
        rfl
  exact
    { id := rfl, jobType := rfl, payload := rfl, priority := rfl, notBefore := ⟨_, rfl, isDue⟩
      debounceKey := rfl, sagaId := saga
      correlationId := ⟨_, rfl, Uuid.ofText?_text job.correlationId⟩, state := rfl
      attempts := ⟨rfl, Nat.zero_le _⟩, failures := ⟨rfl, Nat.zero_le _⟩, lastError := rfl
      createdAt := ⟨_, rfl, isTime⟩, updatedAt := ⟨_, rfl, isTime⟩ }

theorem IsLegible.coalesce (legible : row.IsLegible) {job : Job} (storable : job.IsStorable)
    (clock : now.IsStorable) : (row.coalesce job now).IsLegible := by
  obtain ⟨written, holds⟩ := isLegible_ofJob row.id storable clock
  obtain ⟨record, old⟩ := legible
  exact ⟨{ written with debounceKey := record.debounceKey, createdAt := record.createdAt },
    { holds with debounceKey := old.debounceKey, createdAt := old.createdAt }⟩

theorem IsLegible.claim (legible : row.IsLegible) (clock : now.IsStorable) :
    (row.claim now).IsLegible := by
  obtain ⟨record, holds⟩ := legible
  obtain ⟨time, isTime⟩ := clock
  exact ⟨{ record with state := .running, updatedAt := time },
    { holds with state := rfl, updatedAt := ⟨_, rfl, isTime⟩ }⟩

theorem IsLegible.reschedule (legible : row.IsLegible) {notBefore : Instant}
    (due : notBefore.IsStorable) (clock : now.IsStorable) :
    (row.reschedule notBefore now).IsLegible := by
  obtain ⟨record, holds⟩ := legible
  obtain ⟨time, isTime⟩ := clock
  obtain ⟨stored, isStored⟩ := due
  exact ⟨{ record with state := .pending, notBefore := stored, updatedAt := time },
    { holds with
      state := rfl, notBefore := ⟨_, rfl, isStored⟩, updatedAt := ⟨_, rfl, isTime⟩ }⟩

theorem IsLegible.noteFailure (legible : row.IsLegible) {failures : Nat}
    (few : failures ≤ Record.countLimit) (error : String) :
    (row.noteFailure failures error).IsLegible := by
  obtain ⟨record, holds⟩ := legible
  exact ⟨{ record with failures, lastError := some error },
    { holds with failures := ⟨rfl, few⟩, lastError := rfl }⟩

theorem IsLegible.fail (legible : row.IsLegible) {failures : Nat}
    (few : failures ≤ Record.countLimit) (error : String) (clock : now.IsStorable) :
    (row.fail failures error now).IsLegible := by
  obtain ⟨record, holds⟩ := legible.noteFailure few error
  obtain ⟨time, isTime⟩ := clock
  exact ⟨{ record with state := .failed, updatedAt := time },
    { holds with state := rfl, updatedAt := ⟨_, rfl, isTime⟩ }⟩

theorem IsLegible.comeBack (legible : row.IsLegible) {notBefore : Instant}
    (due : notBefore.IsStorable) {failure : Option Failure}
    (few : ∀ noted ∈ failure, noted.failures ≤ Record.countLimit) (clock : now.IsStorable) :
    (row.comeBack notBefore failure now).IsLegible := by
  cases failure with
  | none => exact legible.reschedule due clock
  | some noted => exact (legible.reschedule due clock).noteFailure (few noted rfl) noted.error

theorem IsLegible.requeue (legible : row.IsLegible) (clock : now.IsStorable) :
    (row.requeue now).IsLegible := by
  obtain ⟨record, holds⟩ := legible.reschedule clock clock
  exact ⟨{ record with failures := 0, lastError := none },
    { holds with failures := ⟨rfl, Nat.zero_le _⟩, lastError := rfl }⟩

end Edits

end Row

namespace Table

/-- Every row of the table is legible. -/
def IsLegible (table : Table) : Prop := ∀ row ∈ table.rows, row.IsLegible

theorem isLegible_empty : empty.IsLegible := by
  simp [IsLegible, empty]

theorem IsLegible.put {table : Table} (legible : table.IsLegible) {row : Row}
    (isLegible : row.IsLegible) : (table.put row).IsLegible := by
  intro other member
  rcases mem_put.mp member with ⟨rfl, _⟩ | ⟨old, _⟩
  · exact isLegible
  · exact legible other old

theorem IsLegible.append {table : Table} (legible : table.IsLegible) {row : Row}
    (isLegible : row.IsLegible) : (table.append row).IsLegible := by
  intro other member
  rcases mem_append.mp member with old | rfl
  · exact legible other old
  · exact isLegible

end Table

section Verdicts

variable {record : Record} {result : Except JobError Outcome} {policy : RetryPolicy} {draw : Nat}
  {now : Instant}

theorem Verdict.of_eq_giveUp {failure : Failure}
    (verdict : Verdict.of record result policy draw now = .giveUp failure) :
    ∃ error, result = .error error ∧ failure = ⟨record.nextFailures, error.message⟩ := by
  unfold Verdict.of at verdict
  split at verdict
  · cases verdict
  · cases verdict
  · next error =>
      split at verdict
      · exact ⟨error, rfl, (Verdict.giveUp.inj verdict).symm⟩
      · cases verdict

/-- A record comes back after some delay, which need not fit. -/
theorem Verdict.of_eq_comeBack {notBefore : Instant} {failure : Option Failure}
    (verdict : Verdict.of record result policy draw now = .comeBack notBefore failure) :
    (∃ delay, notBefore = now.after delay) ∧
      ∀ noted ∈ failure, noted.failures = record.nextFailures := by
  unfold Verdict.of at verdict
  split at verdict
  · cases verdict
  · next delay =>
      obtain ⟨rfl, rfl⟩ := Verdict.comeBack.inj verdict
      exact ⟨⟨delay, rfl⟩, by simp⟩
  · split at verdict
    · cases verdict
    · obtain ⟨rfl, rfl⟩ := Verdict.comeBack.inj verdict
      exact ⟨⟨_, rfl⟩, by simp⟩

end Verdicts

/-- The store can keep what the operation is given. -/
def Operation.IsStorable : Operation → Prop
  | .enqueue job now => job.IsStorable ∧ now.IsStorable
  | .enqueueAll jobs _ now => (∀ job ∈ jobs, job.IsStorable) ∧ now.IsStorable
  | .reschedule _ notBefore failure now =>
      notBefore.IsStorable ∧ (∀ noted ∈ failure, noted.failures ≤ Record.countLimit) ∧
        now.IsStorable
  | .markFailed _ failures _ now => failures ≤ Record.countLimit ∧ now.IsStorable
  | .claim _ now | .requeue _ now | .settle _ _ _ _ now | .recover _ _ _ now => now.IsStorable
  | .complete _ | .cancel _ => True

/-- Whatever its way, an operation changes a row that can be read to one that can be read. -/
theorem RowChange.isLegible {operation : Operation} {row edited : Row}
    (change : RowChange operation row edited) (storable : operation.IsStorable)
    (legible : row.IsLegible) : edited.IsLegible := by
  have few (record : Record) : record.nextFailures ≤ Record.countLimit := Nat.min_le_right _ _
  cases change with
  | claimed => exact legible.claim storable
  | rescheduled => exact legible.comeBack storable.1 storable.2.1 storable.2.2
  | markedFailed _ _ _ error => exact legible.fail storable.1 error storable.2
  | requeued => exact legible.requeue storable
  | gaveUp _ verdict =>
      obtain ⟨error, _, rfl⟩ := Verdict.of_eq_giveUp verdict
      exact legible.fail (few _) error.message storable
  | cameBack _ verdict =>
      obtain ⟨⟨delay, rfl⟩, noted⟩ := Verdict.of_eq_comeBack verdict
      exact legible.comeBack (Instant.isStorable_after _ delay)
        (fun failure isNoted => noted failure isNoted ▸ few _) storable
  | recovered recovery policy draw now =>
      have due : (Table.recoveryTime recovery policy draw now).IsStorable := by
        cases recovery with
        | immediately => exact storable
        | withBackoff => exact Instant.isStorable_after _ _
      exact legible.comeBack due nofun storable

namespace Table

section Operations

variable {table : Table} (consistent : table.Consistent) (legible : table.IsLegible)

include consistent legible

theorem Consistent.enqueue_isLegible {job : Job} (storable : job.IsStorable) {now : Instant}
    (clock : now.IsStorable) : (table.enqueue job now).2.IsLegible := by
  rcases consistent.enqueue_cases job now with
    ⟨row, held, answer⟩ | ⟨id, _, _, answer⟩ | ⟨_, _, answer⟩
  · obtain ⟨_, _, member, _, _⟩ := of_bind_pendingWithKey? held
    exact answer ▸ legible.put ((legible row member).coalesce storable clock)
  · exact answer ▸ legible.append (Row.isLegible_ofJob id storable clock)
  · exact answer ▸ legible

theorem Consistent.enqueueAll_isLegible {jobs : List Job} (storable : ∀ job ∈ jobs, job.IsStorable)
    (correlation : Uuid) {now : Instant} (clock : now.IsStorable) :
    (table.enqueueAll jobs correlation now).2.IsLegible := by
  induction jobs generalizing table with
  | nil => exact legible
  | cons job rest ih =>
      have isStorable : (job.withCorrelationId correlation).IsStorable :=
        storable job List.mem_cons_self
      have first := consistent.enqueue_isLegible legible isStorable clock
      have reaches := consistent.enqueue_reaches (job.withCorrelationId correlation) now
      rw [enqueueAll]
      cases answer : table.enqueue (job.withCorrelationId correlation) now with
      | mk result after =>
          rw [answer] at first reaches
          cases result with
          | error error => exact first
          | ok receipt =>
              have others := ih (reaches.consistent consistent) first
                fun other later => storable other (List.mem_cons_of_mem _ later)
              cases final : after.enqueueAll rest correlation now with
              | mk result last =>
                  rw [final] at others
                  cases result <;> simpa [final] using others

theorem Consistent.perform_isLegible {operation : Operation} (storable : operation.IsStorable) :
    (table.perform operation).2.IsLegible := by
  by_cases enqueuing : operation.isEnqueuing = true
  · cases operation with
    | enqueue job now => exact consistent.enqueue_isLegible legible storable.1 storable.2
    | enqueueAll jobs correlation now =>
        exact consistent.enqueueAll_isLegible legible storable.1 correlation storable.2
    | _ => cases enqueuing
  · have changes := consistent.perform_changes (Bool.eq_false_iff.mpr enqueuing)
    have left := (consistent.perform_reaches operation).consistent consistent
    intro row member
    obtain ⟨old, isOld, rfl | change⟩ := changes row.id row (left.find?_of_mem member)
    · exact legible row (mem_of_find? isOld)
    · exact change.isLegible storable (legible old (mem_of_find? isOld))

end Operations

/-- Tables that any operations leave which are given nothing that the store cannot keep. -/
inductive Written : Table → Prop where
  | empty : Written Table.empty
  | perform {table : Table} (written : Written table) {operation : Operation}
      (storable : operation.IsStorable) : Written (table.perform operation).2

theorem Written.reachable {table : Table} (written : Written table) : Reachable table := by
  induction written with
  | empty => exact .empty
  | perform _ _ ih => exact .perform ih _

theorem Written.isLegible {table : Table} (written : Written table) : table.IsLegible := by
  induction written with
  | empty => exact isLegible_empty
  | perform written storable ih => exact written.reachable.consistent.perform_isLegible ih storable

end Table

end Store

end DurableJobs
