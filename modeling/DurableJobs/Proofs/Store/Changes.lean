import DurableJobs.Proofs.Store.Histories

/-!
What operations make of rows.

An operation that enqueues nothing stores nothing new: every row that it leaves was there before, as
it is or changed in the way of the operation. What each of these changes keeps, a table keeps.
-/

set_option autoImplicit false

namespace DurableJobs.Store

/-- How an operation changes a row that it leaves. -/
inductive RowChange : Operation → Row → Row → Prop where
  | claimed (id : Int) (row : Row) (now : Instant) : RowChange (.claim id now) row (row.claim now)
  | rescheduled (id : Int) (row : Row) (notBefore : Instant) (failure : Option Failure)
      (now : Instant) :
      RowChange (.reschedule id notBefore failure now) row (row.comeBack notBefore failure now)
  | markedFailed (id : Int) (row : Row) (failures : Nat) (error : String) (now : Instant) :
      RowChange (.markFailed id failures error now) row (row.fail failures error now)
  | requeued (id : Int) (row : Row) (now : Instant) :
      RowChange (.requeue id now) row (row.requeue now)
  | gaveUp {record : Record} {result : Except JobError Outcome} {policy : RetryPolicy}
      {draw : Nat} {now : Instant} {failure : Failure} (row : Row)
      (verdict : Verdict.of record result policy draw now = .giveUp failure) :
      RowChange (.settle record result policy draw now) row
        (row.fail failure.failures failure.error now)
  | cameBack {record : Record} {result : Except JobError Outcome} {policy : RetryPolicy}
      {draw : Nat} {now notBefore : Instant} {failure : Option Failure} (row : Row)
      (verdict : Verdict.of record result policy draw now = .comeBack notBefore failure) :
      RowChange (.settle record result policy draw now) row (row.comeBack notBefore failure now)
  | recovered (recovery : Recovery) (policy : RetryPolicy) (draw : Nat) (now : Instant)
      (row : Row) :
      RowChange (.recover recovery policy draw now) row
        (row.comeBack (Table.recoveryTime recovery policy draw now) none now)

theorem RowChange.id {operation : Operation} {row edited : Row}
    (change : RowChange operation row edited) : edited.id = row.id := by
  cases change <;> simp

namespace Table

/-- Every row that is left was there before, as it is or changed in the way of the operation. -/
def ChangedBy (operation : Operation) (before after : Table) : Prop :=
  ∀ id row, after.find? id = some row →
    ∃ old, before.find? id = some old ∧ (row = old ∨ RowChange operation old row)

theorem changedBy_refl (operation : Operation) (table : Table) : ChangedBy operation table table :=
  fun _ row found => ⟨row, found, .inl rfl⟩

theorem changedBy_erase (operation : Operation) (table : Table) (erased : Int) :
    ChangedBy operation table (table.erase erased) := by
  intro id row found
  rw [find?_erase] at found
  split at found
  · cases found
  · exact ⟨row, found, .inl rfl⟩

theorem changedBy_put {operation : Operation} {table : Table} {id : Int} {row edited : Row}
    (found : table.find? id = some row) (change : RowChange operation row edited) :
    ChangedBy operation table (table.put edited) := by
  intro other left isLeft
  rw [find?_put, change.id, id_of_find? found] at isLeft
  split at isLeft
  · next here =>
      subst here
      rw [found] at isLeft
      obtain rfl := Option.some.inj isLeft
      exact ⟨row, found, .inr change⟩
  · exact ⟨left, isLeft, .inl rfl⟩

namespace Consistent

variable {table : Table} (consistent : table.Consistent)

include consistent

theorem settle_changes (record : Record) (result : Except JobError Outcome) (policy : RetryPolicy)
    (draw : Nat) (now : Instant) :
    ChangedBy (.settle record result policy draw now) table
      (table.settle record result policy draw now).2 := by
  rcases consistent.settle_cases record result policy draw now with
    ⟨_, answer⟩ | ⟨row, found, answer⟩
  · exact answer ▸ changedBy_refl _ table
  · cases verdict : Verdict.of record result policy draw now with
    | remove =>
        simp only [verdict] at answer
        exact answer ▸ changedBy_erase _ table record.id
    | giveUp failure =>
        simp only [verdict] at answer
        exact answer ▸ changedBy_put found (.gaveUp row verdict)
    | comeBack notBefore failure =>
        cases held : table.survivor? row with
        | some survivor =>
            simp only [verdict, held] at answer
            exact answer ▸ changedBy_erase _ table record.id
        | none =>
            simp only [verdict, held] at answer
            exact answer ▸ changedBy_put found (.cameBack row verdict)

theorem recover_changes (recovery : Recovery) (policy : RetryPolicy) (draw : Nat) (now : Instant) :
    ChangedBy (.recover recovery policy draw now) table
      (table.recover recovery policy draw now).2 := by
  obtain ⟨replies, after, answer, spec⟩ := consistent.recover_spec recovery policy draw now
  rw [answer]
  intro id row found
  by_cases listed : id ∈ table.runningIds
  · obtain ⟨⟨other, reply⟩, isReply, here⟩ := List.mem_map.mp (spec.ids_eq ▸ listed)
    obtain rfl : other = id := here
    cases reply with
    | pending time =>
        obtain ⟨_, old, isOld, moved⟩ := spec.pending _ _ isReply
        cases moved.symm.trans found
        exact ⟨old, isOld, .inr (.recovered recovery policy draw now old)⟩
    | superseded survivor => cases (spec.superseded _ _ isReply).1.symm.trans found
    | missing =>
        obtain ⟨old, member, _, rfl⟩ := mem_runningIds.mp listed
        cases (consistent.find?_of_mem member).symm.trans (spec.missing _ isReply)
  · exact ⟨row, spec.unchanged id listed ▸ found, .inl rfl⟩

/-- An operation that enqueues nothing stores nothing new. -/
theorem perform_changes {operation : Operation} (silent : operation.isEnqueuing = false) :
    ChangedBy operation table (table.perform operation).2 := by
  cases operation with
  | enqueue job now => cases silent
  | enqueueAll jobs correlation now => cases silent
  | claim id now =>
      show ChangedBy _ table (table.claim id now).2
      rcases consistent.claim_cases id now with ⟨_, answer⟩ | ⟨row, found, _, answer⟩
      · exact answer ▸ changedBy_refl _ table
      · exact answer ▸ changedBy_put found (.claimed id row now)
  | complete id =>
      show ChangedBy _ table (table.complete id).2
      rcases consistent.complete_cases id with ⟨_, answer⟩ | ⟨_, _, answer⟩
      · exact answer ▸ changedBy_refl _ table
      · exact answer ▸ changedBy_erase _ table id
  | reschedule id notBefore failure now =>
      show ChangedBy _ table (table.reschedule id notBefore failure now).2
      rcases consistent.reschedule_cases id notBefore failure now with
        ⟨_, answer⟩ | ⟨_, _, _, _, answer⟩ | ⟨row, found, _, answer⟩
      · exact answer ▸ changedBy_refl _ table
      · exact answer ▸ changedBy_erase _ table id
      · exact answer ▸ changedBy_put found (.rescheduled id row notBefore failure now)
  | markFailed id failures error now =>
      show ChangedBy _ table (table.markFailed id failures error now).2
      rcases consistent.markFailed_cases id failures error now with
        ⟨_, answer⟩ | ⟨row, found, answer⟩
      · exact answer ▸ changedBy_refl _ table
      · exact answer ▸ changedBy_put found (.markedFailed id row failures error now)
  | cancel id =>
      show ChangedBy _ table (table.cancel id).2
      rcases consistent.cancel_cases id with ⟨_, answer⟩ | ⟨_, _, _, answer⟩
      · exact answer ▸ changedBy_refl _ table
      · exact answer ▸ changedBy_erase _ table id
  | requeue id now =>
      show ChangedBy _ table (table.requeue id now).2
      rcases consistent.requeue_cases id now with
        ⟨_, answer⟩ | ⟨_, _, _, _, _, answer⟩ | ⟨row, found, _, _, answer⟩
      · exact answer ▸ changedBy_refl _ table
      · exact answer ▸ changedBy_erase _ table id
      · exact answer ▸ changedBy_put found (.requeued id row now)
  | settle record result policy draw now =>
      exact consistent.settle_changes record result policy draw now
  | recover recovery policy draw now => exact consistent.recover_changes recovery policy draw now

end Consistent

end Table

end DurableJobs.Store
