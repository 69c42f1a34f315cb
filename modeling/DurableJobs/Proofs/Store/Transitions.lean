import DurableJobs.Proofs.Store.Edits

/-!
What each operation of the store does to a table that keeps the rules.

Every operation leaves the table as it is or takes it through transitions, each of which touches one
row. The rules survive every transition; laws on runs need to look at nothing else.
-/

set_option autoImplicit false

namespace DurableJobs.Store

def Row.comeBack (row : Row) (notBefore : Instant) (failure : Option Failure) (now : Instant) :
    Row :=
  match failure with
  | none => row.reschedule notBefore now
  | some failure =>
      (row.reschedule notBefore now).noteFailure failure.failures failure.error

def Row.requeue (row : Row) (now : Instant) : Row :=
  (row.reschedule now now).resetCounts

namespace Row

@[simp] theorem id_ofJob (id : Int) (job : Job) (now : Instant) : (ofJob id job now).id = id := rfl

@[simp] theorem state_ofJob (id : Int) (job : Job) (now : Instant) :
    (ofJob id job now).state = .pending := rfl

@[simp] theorem debounceKey_ofJob (id : Int) (job : Job) (now : Instant) :
    (ofJob id job now).debounceKey = .ofText? job.debounceKey := rfl

@[simp] theorem id_coalesce (row : Row) (job : Job) (now : Instant) :
    (row.coalesce job now).id = row.id := rfl

@[simp] theorem state_coalesce (row : Row) (job : Job) (now : Instant) :
    (row.coalesce job now).state = .pending := rfl

@[simp] theorem debounceKey_coalesce (row : Row) (job : Job) (now : Instant) :
    (row.coalesce job now).debounceKey = row.debounceKey := rfl

@[simp] theorem id_claim (row : Row) (now : Instant) : (row.claim now).id = row.id := rfl

@[simp] theorem state_claim (row : Row) (now : Instant) : (row.claim now).state = .running := rfl

@[simp] theorem debounceKey_claim (row : Row) (now : Instant) :
    (row.claim now).debounceKey = row.debounceKey := rfl

@[simp] theorem id_fail (row : Row) (failures : Nat) (error : String) (now : Instant) :
    (row.fail failures error now).id = row.id := rfl

@[simp] theorem state_fail (row : Row) (failures : Nat) (error : String) (now : Instant) :
    (row.fail failures error now).state = .failed := rfl

@[simp] theorem debounceKey_fail (row : Row) (failures : Nat) (error : String) (now : Instant) :
    (row.fail failures error now).debounceKey = row.debounceKey := rfl

@[simp] theorem id_comeBack (row : Row) (notBefore : Instant) (failure : Option Failure)
    (now : Instant) : (row.comeBack notBefore failure now).id = row.id := by
  cases failure <;> rfl

@[simp] theorem state_comeBack (row : Row) (notBefore : Instant) (failure : Option Failure)
    (now : Instant) : (row.comeBack notBefore failure now).state = .pending := by
  cases failure <;> rfl

@[simp] theorem debounceKey_comeBack (row : Row) (notBefore : Instant) (failure : Option Failure)
    (now : Instant) : (row.comeBack notBefore failure now).debounceKey = row.debounceKey := by
  cases failure <;> rfl

@[simp] theorem id_requeue (row : Row) (now : Instant) : (row.requeue now).id = row.id := rfl

@[simp] theorem state_requeue (row : Row) (now : Instant) : (row.requeue now).state = .pending :=
  rfl

@[simp] theorem debounceKey_requeue (row : Row) (now : Instant) :
    (row.requeue now).debounceKey = row.debounceKey := rfl

end Row

namespace Table

/-- The pending row to which a row gives way when it is to be pending again. -/
def survivor? (table : Table) (row : Row) : Option Row :=
  match row.debounceKey with
  | .text key => table.pendingSibling? key row.id
  | _ => none

/-- One row changes, and how. -/
inductive Transition : Table → Table → Prop where
  | inserted {table : Table} {job : Job} {id : Int} (now : Instant)
      (free : job.debounceKey.bind table.pendingWithKey? = none) (next : table.nextId? = some id) :
      Transition table (table.append (Row.ofJob id job now))
  | coalesced {table : Table} {job : Job} {row : Row} (now : Instant)
      (held : job.debounceKey.bind table.pendingWithKey? = some row) :
      Transition table (table.put (row.coalesce job now))
  | claimed {table : Table} {row : Row} (now : Instant) (member : row ∈ table.rows)
      (pending : row.state = .pending) : Transition table (table.put (row.claim now))
  | completed {table : Table} {row : Row} (member : row ∈ table.rows) :
      Transition table (table.erase row.id)
  | canceled {table : Table} {row : Row} (member : row ∈ table.rows)
      (pending : row.state = .pending) : Transition table (table.erase row.id)
  | superseded {table : Table} {row survivor : Row} (member : row ∈ table.rows)
      (held : table.survivor? row = some survivor) : Transition table (table.erase row.id)
  | rescheduled {table : Table} {row : Row} (notBefore : Instant) (failure : Option Failure)
      (now : Instant) (member : row ∈ table.rows) (free : table.survivor? row = none) :
      Transition table (table.put (row.comeBack notBefore failure now))
  | requeued {table : Table} {row : Row} (now : Instant) (member : row ∈ table.rows)
      (failed : row.state = .failed) (free : table.survivor? row = none) :
      Transition table (table.put (row.requeue now))
  | gaveUp {table : Table} {row : Row} (failures : Nat) (error : String) (now : Instant)
      (member : row ∈ table.rows) : Transition table (table.put (row.fail failures error now))

/-! ### Pending rows of a key -/

theorem pendingWithKey?_eq_none_iff {table : Table} {key : String} :
    table.pendingWithKey? key = none ↔
      ∀ row ∈ table.rows, row.state = .pending → row.debounceKey ≠ .text key := by
  simp [pendingWithKey?, List.find?_eq_none, JobState.isPending]

theorem of_pendingWithKey? {table : Table} {key : String} {row : Row}
    (held : table.pendingWithKey? key = some row) :
    row ∈ table.rows ∧ row.state = .pending ∧ row.debounceKey = .text key := by
  have holds := List.find?_some held
  simp only [JobState.isPending, Bool.and_eq_true, beq_iff_eq] at holds
  exact ⟨List.mem_of_find?_eq_some held, holds⟩

theorem of_bind_pendingWithKey? {table : Table} {key? : Option String} {row : Row}
    (held : key?.bind table.pendingWithKey? = some row) :
    ∃ key, key? = some key ∧ row ∈ table.rows ∧ row.state = .pending ∧
      row.debounceKey = .text key := by
  obtain ⟨key, isKey, held⟩ := Option.bind_eq_some_iff.mp held
  exact ⟨key, isKey, of_pendingWithKey? held⟩

theorem of_survivor? {table : Table} {row survivor : Row}
    (held : table.survivor? row = some survivor) :
    ∃ key, row.debounceKey = .text key ∧ survivor ∈ table.rows ∧ survivor.state = .pending ∧
      survivor.debounceKey = .text key ∧ survivor.id ≠ row.id := by
  unfold survivor? at held
  split at held
  · next key isKey =>
      have holds := List.find?_some held
      simp only [JobState.isPending, Bool.and_eq_true, beq_iff_eq, bne_iff_ne] at holds
      exact ⟨key, isKey, List.mem_of_find?_eq_some held, holds.1.1, holds.1.2, holds.2⟩
  · cases held

theorem survivor?_eq_none_iff {table : Table} {row : Row} :
    table.survivor? row = none ↔
      ∀ other ∈ table.rows, other.state = .pending → other.id ≠ row.id →
        ∀ key, row.debounceKey = .text key → other.debounceKey ≠ .text key := by
  unfold survivor?
  split
  · next key isKey =>
      simp only [pendingSibling?, List.find?_eq_none, JobState.isPending, Bool.and_eq_true,
        beq_iff_eq, bne_iff_ne, isKey, Cell.text.injEq, forall_eq']
      grind
  · next noKey =>
      simp only [true_iff]
      intro other _ _ _ key isKey
      exact absurd isKey (noKey key)

namespace Consistent

variable {table : Table} (consistent : table.Consistent)

include consistent

/-- A row that gives way to none clashes with none once it is pending. -/
theorem apart_of_free {row edited : Row} (member : row ∈ table.rows)
    (free : table.survivor? row = none) (sameKey : edited.debounceKey = row.debounceKey)
    {other : Row} (otherMember : other ∈ table.rows) (different : other.id ≠ row.id) :
    clash edited other = false := by
  rw [Bool.eq_false_iff]
  intro clashing
  obtain ⟨_, pending, hasKey, same⟩ := clash_eq_true_iff.mp clashing
  obtain ⟨key, isKey⟩ := consistent.keyed row member
  rw [sameKey] at hasKey same
  cases key with
  | none => exact hasKey isKey
  | some key =>
      exact survivor?_eq_none_iff.mp free other otherMember pending different key isKey
        (same.symm.trans isKey)

theorem apart_of_same {row edited : Row} (member : row ∈ table.rows)
    (sameState : edited.state = row.state) (sameKey : edited.debounceKey = row.debounceKey)
    {other : Row} (otherMember : other ∈ table.rows) (different : other.id ≠ row.id) :
    clash edited other = false := by
  rw [clash_congr sameState sameKey]
  exact consistent.clash_eq_false member otherMember (Ne.symm different)

theorem eq_succ_mark_of_nextId? {id : Int} (next : table.nextId? = some id) :
    id = table.mark + 1 := by
  rw [nextId?, consistent.lastId_eq_mark] at next
  split at next
  · exact (Option.some.inj next).symm
  · cases next

theorem find?_nextId {id : Int} (next : table.nextId? = some id) : table.find? id = none := by
  rw [find?_eq_none_iff]
  intro row member same
  have below := consistent.marked row member
  have above := consistent.eq_succ_mark_of_nextId? next
  omega

end Consistent

theorem apart_of_unheld {table : Table} {job : Job} {id : Int} {now : Instant}
    (free : job.debounceKey.bind table.pendingWithKey? = none) {other : Row}
    (otherMember : other ∈ table.rows) : clash (Row.ofJob id job now) other = false := by
  rw [Bool.eq_false_iff]
  intro clashing
  obtain ⟨_, pending, hasKey, same⟩ := clash_eq_true_iff.mp clashing
  cases isKey : job.debounceKey with
  | none => simp [isKey, Cell.ofText?] at hasKey
  | some key =>
      rw [isKey, Option.bind_some, pendingWithKey?_eq_none_iff] at free
      exact free other otherMember pending
        (same.symm.trans (by simp [isKey, Cell.ofText?]))

theorem Transition.consistent {before after : Table} (transition : Transition before after)
    (consistent : before.Consistent) : after.Consistent := by
  cases transition with
  | @inserted job id now free next =>
      have isNext := consistent.eq_succ_mark_of_nextId? next
      exact consistent.append (by simp only [Row.id_ofJob]; omega)
        ⟨job.debounceKey, rfl⟩ fun other member => apart_of_unheld free member
  | @coalesced job row now held =>
      obtain ⟨key, _, member, pending, isKey⟩ := of_bind_pendingWithKey? held
      exact consistent.put ⟨some key, isKey⟩ fun other otherMember different =>
        consistent.apart_of_same member ((Row.state_coalesce row job now).trans pending.symm)
          (Row.debounceKey_coalesce row job now) otherMember different
  | @claimed row now member pending =>
      exact consistent.put (consistent.keyed row member) fun other _ _ =>
        clash_of_not_pending (by simp)
  | completed member => exact consistent.erase _
  | canceled member pending => exact consistent.erase _
  | superseded member held => exact consistent.erase _
  | @rescheduled row notBefore failure now member free =>
      exact consistent.put (by simpa using consistent.keyed row member)
        fun other otherMember different =>
          consistent.apart_of_free member free (by simp) otherMember (by simpa using different)
  | @requeued row now member failed free =>
      exact consistent.put (consistent.keyed row member) fun other otherMember different =>
        consistent.apart_of_free member free (Row.debounceKey_requeue row now) otherMember
          different
  | @gaveUp row failures error now member =>
      exact consistent.put (consistent.keyed row member) fun other _ _ =>
        clash_of_not_pending (by simp)

end Table

end DurableJobs.Store
