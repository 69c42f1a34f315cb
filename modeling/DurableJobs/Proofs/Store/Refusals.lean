import DurableJobs.Proofs.Store.Histories

/-!
Why operations are refused.

On a table that keeps the rules there are two reasons: ids have run out, or a row holds a cell that
is no value of its column's type. No operation is refused for breaking a rule of the table.
-/

set_option autoImplicit false

namespace DurableJobs

def StoreError.isUnreadable : StoreError → Bool
  | .wrongKind .. => true
  | .outOfRange .. => true
  | .timeOutOfRange .. => true
  | .notUuid .. => true
  | _ => false

namespace Store

/-- Whatever reading fails with says that a cell is unreadable. -/
def FailsUnreadable {Value : Type} (reading : Except StoreError Value) : Prop :=
  ∀ error, reading = .error error → error.isUnreadable = true

theorem failsUnreadable_ok {Value : Type} (value : Value) :
    FailsUnreadable (.ok value : Except StoreError Value) := by
  intro error failed
  cases failed

theorem failsUnreadable_error {Value : Type} {error : StoreError}
    (unreadable : error.isUnreadable = true) :
    FailsUnreadable (.error error : Except StoreError Value) := by
  rintro _ ⟨⟩
  exact unreadable

theorem FailsUnreadable.bind {First Second : Type} {first : Except StoreError First}
    {next : First → Except StoreError Second} (firstFails : FailsUnreadable first)
    (nextFails : ∀ value, FailsUnreadable (next value)) : FailsUnreadable (first >>= next) := by
  intro error failed
  cases result : first with
  | error cause =>
      rw [result] at failed
      cases failed
      exact firstFails error result
  | ok value =>
      rw [result] at failed
      exact nextFails value error failed

theorem FailsUnreadable.map {First Second : Type} {reading : Except StoreError First}
    (fails : FailsUnreadable reading) (convert : First → Second) :
    FailsUnreadable (reading.map convert) := by
  intro error failed
  cases result : reading with
  | error cause =>
      rw [result] at failed
      cases failed
      exact fails error result
  | ok value =>
      rw [result] at failed
      cases failed

namespace Row

theorem failsUnreadable_readInteger (index : Nat) (column : String) (cell : Cell) :
    FailsUnreadable (readInteger index column cell) := by
  cases cell <;> first | exact failsUnreadable_ok _ | exact failsUnreadable_error rfl

theorem failsUnreadable_readText (index : Nat) (column : String) (cell : Cell) :
    FailsUnreadable (readText index column cell) := by
  cases cell <;> first | exact failsUnreadable_ok _ | exact failsUnreadable_error rfl

theorem failsUnreadable_readBytes (index : Nat) (column : String) (cell : Cell) :
    FailsUnreadable (readBytes index column cell) := by
  cases cell <;> first | exact failsUnreadable_ok _ | exact failsUnreadable_error rfl

theorem failsUnreadable_readOptional {Value : Type} {read : Cell → Except StoreError Value}
    (fails : ∀ cell, FailsUnreadable (read cell)) (cell : Cell) :
    FailsUnreadable (readOptional read cell) := by
  cases cell <;> first | exact failsUnreadable_ok _ | exact (fails _).map some

theorem failsUnreadable_readUuid (index : Nat) (column : String) (cell : Cell) :
    FailsUnreadable (readUuid index column cell) := by
  refine (failsUnreadable_readText index column cell).bind fun text => ?_
  cases Uuid.ofText? text
  · exact failsUnreadable_error rfl
  · exact failsUnreadable_ok _

theorem failsUnreadable_readPriority (index : Nat) (column : String) (cell : Cell) :
    FailsUnreadable (readPriority index column cell) := by
  refine (failsUnreadable_readInteger index column cell).bind fun value => ?_
  cases Priority.ofNumber? value
  · exact failsUnreadable_error rfl
  · exact failsUnreadable_ok _

theorem failsUnreadable_readCount (index : Nat) (column : String) (cell : Cell) :
    FailsUnreadable (readCount index column cell) := by
  refine (failsUnreadable_readInteger index column cell).bind fun value => ?_
  split
  · exact failsUnreadable_ok _
  · exact failsUnreadable_error rfl

theorem failsUnreadable_readInstant (index : Nat) (column : String) (cell : Cell) :
    FailsUnreadable (readInstant index column cell) := by
  refine (failsUnreadable_readInteger index column cell).bind fun value => ?_
  cases Instant.ofMillis? value
  · exact failsUnreadable_error rfl
  · exact failsUnreadable_ok _

theorem failsUnreadable_record (row : Row) : FailsUnreadable row.record := by
  refine (failsUnreadable_readText _ _ _).bind fun _ => ?_
  refine (failsUnreadable_readBytes _ _ _).bind fun _ => ?_
  refine (failsUnreadable_readPriority _ _ _).bind fun _ => ?_
  refine (failsUnreadable_readInstant _ _ _).bind fun _ => ?_
  refine (failsUnreadable_readOptional (failsUnreadable_readText _ _) _).bind fun _ => ?_
  refine (failsUnreadable_readOptional (failsUnreadable_readUuid _ _) _).bind fun _ => ?_
  refine (failsUnreadable_readUuid _ _ _).bind fun _ => ?_
  refine (failsUnreadable_readCount _ _ _).bind fun _ => ?_
  refine (failsUnreadable_readCount _ _ _).bind fun _ => ?_
  refine (failsUnreadable_readOptional (failsUnreadable_readText _ _) _).bind fun _ => ?_
  refine (failsUnreadable_readInstant _ _ _).bind fun _ => ?_
  refine (failsUnreadable_readInstant _ _ _).bind fun _ => ?_
  exact failsUnreadable_ok _

end Row

namespace Table.Consistent

variable {table : Table} (consistent : table.Consistent)

include consistent

theorem enqueue_refusal {job : Job} {now : Instant} {error : StoreError}
    (refused : (table.enqueue job now).1 = .error error) :
    error = .full ∧ table.nextId? = none := by
  rcases consistent.enqueue_cases job now with
    ⟨row, held, answer⟩ | ⟨id, free, next, answer⟩ | ⟨_, runOut, answer⟩
  · simp [answer] at refused
  · simp [answer] at refused
  · rw [answer] at refused
    cases refused
    exact ⟨rfl, runOut⟩

end Table.Consistent

theorem Table.Consistent.enqueueAll_refusal {table : Table} (consistent : table.Consistent)
    {jobs : List Job} {correlation : Uuid} {now : Instant} {error : StoreError}
    (refused : (table.enqueueAll jobs correlation now).1 = .error error) : error = .full := by
  induction jobs generalizing table with
  | nil => cases refused
  | cons job rest ih =>
      have first := consistent.enqueue_reaches (job.withCorrelationId correlation) now
      rw [Table.enqueueAll] at refused
      cases answer : table.enqueue (job.withCorrelationId correlation) now with
      | mk result after =>
          rw [answer] at first refused
          cases result with
          | error cause =>
              cases refused
              exact (consistent.enqueue_refusal (congrArg Prod.fst answer)).1
          | ok receipt =>
              cases others : after.enqueueAll rest correlation now with
              | mk result final =>
                  simp only [others] at refused
                  cases result with
                  | error cause =>
                      cases refused
                      exact ih (first.consistent consistent) (congrArg Prod.fst others)
                  | ok receipts => cases refused

/-- Every refusal has one of two reasons, neither of which is a rule of the table. -/
theorem Table.Consistent.refusal {table : Table} (consistent : table.Consistent)
    {operation : Operation} {error : StoreError}
    (refused : (table.perform operation).1 = .error error) :
    error = .full ∨ error.isUnreadable = true := by
  cases operation with
  | enqueue job now =>
      cases result : (table.enqueue job now).1 with
      | error cause =>
          simp only [Table.perform, Answer.map, result] at refused
          cases refused
          exact .inl (consistent.enqueue_refusal result).1
      | ok receipt => simp [Table.perform, Answer.map, result, Except.map] at refused
  | enqueueAll jobs correlation now =>
      cases result : (table.enqueueAll jobs correlation now).1 with
      | error cause =>
          simp only [Table.perform, Answer.map, result] at refused
          cases refused
          exact .inl (consistent.enqueueAll_refusal result)
      | ok receipts => simp [Table.perform, Answer.map, result, Except.map] at refused
  | claim id now =>
      rcases consistent.claim_cases id now with ⟨_, answer⟩ | ⟨row, _, _, answer⟩
      · simp [Table.perform, Answer.map, answer, Except.map] at refused
      · simp only [Table.perform, Answer.map, answer] at refused
        exact .inr ((((row.claim now).failsUnreadable_record.map some).map _) error refused)
  | complete id =>
      rcases consistent.complete_cases id with ⟨_, answer⟩ | ⟨_, _, answer⟩ <;>
        simp [Table.perform, Answer.map, answer, Except.map] at refused
  | reschedule id notBefore failure now =>
      rcases consistent.reschedule_cases id notBefore failure now with
          ⟨_, answer⟩ | ⟨_, _, _, _, answer⟩ | ⟨_, _, _, answer⟩ <;>
        simp [Table.perform, Answer.map, answer, Except.map] at refused
  | markFailed id failures message now =>
      rcases consistent.markFailed_cases id failures message now with
          ⟨_, answer⟩ | ⟨_, _, answer⟩ <;>
        simp [Table.perform, Answer.map, answer, Except.map] at refused
  | cancel id =>
      rcases consistent.cancel_cases id with ⟨_, answer⟩ | ⟨row, _, _, answer⟩
      · simp [Table.perform, Answer.map, answer, Except.map] at refused
      · simp only [Table.perform, Answer.map, answer] at refused
        exact .inr ((((Row.failsUnreadable_readText _ _ _).map some).map _) error refused)
  | requeue id now =>
      rcases consistent.requeue_cases id now with
          ⟨_, answer⟩ | ⟨_, _, _, _, _, answer⟩ | ⟨_, _, _, _, answer⟩ <;>
        simp [Table.perform, Answer.map, answer, Except.map] at refused
  | settle record result policy draw now =>
      obtain ⟨settlement, settled⟩ := consistent.settle_succeeds record result policy draw now
      simp [Table.perform, Answer.map, settled, Except.map] at refused
  | recover recovery policy draw now =>
      obtain ⟨replies, after, answer, _⟩ := consistent.recover_spec recovery policy draw now
      simp [Table.perform, Answer.map, answer, Except.map] at refused

end Store

end DurableJobs
