import DurableJobs.Engine.Tick
import DurableJobs.Proofs.Store.Edits

/-!
The order of the rows.

Every statement leaves the rows by ascending id, on any table that has them so: whether it is guarded,
what its cells hold and whether rows clash does not matter.
-/

set_option autoImplicit false

namespace DurableJobs.Store

namespace Table

theorem mem_insertRow {row other : Row} {rows : List Row} :
    other ∈ insertRow row rows ↔ other = row ∨ other ∈ rows := by
  induction rows with
  | nil => simp [insertRow]
  | cons first rest ih =>
      rw [insertRow]
      split
      · exact List.mem_cons
      · rw [List.mem_cons, ih, List.mem_cons]
        tauto

theorem pairwise_insertRow {row : Row} {rows : List Row}
    (sorted : rows.Pairwise fun left right => left.id < right.id)
    (fresh : ∀ other ∈ rows, other.id ≠ row.id) :
    (insertRow row rows).Pairwise fun left right => left.id < right.id := by
  induction rows with
  | nil => exact List.pairwise_singleton _ _
  | cons first rest ih =>
      obtain ⟨least, restSorted⟩ := List.pairwise_cons.mp sorted
      rw [insertRow]
      split
      · next less =>
          refine List.pairwise_cons.mpr ⟨fun other member => ?_, sorted⟩
          rcases List.mem_cons.mp member with rfl | later
          · exact less
          · exact Int.lt_trans less (least other later)
      · next notLess =>
          have different := fresh first List.mem_cons_self
          refine List.pairwise_cons.mpr ⟨fun other member => ?_,
            ih restSorted fun other later => fresh other (List.mem_cons_of_mem _ later)⟩
          rcases mem_insertRow.mp member with rfl | later
          · omega
          · exact least other later

section

variable {table after : Table}

theorem rows_of_insert {row : Row} (inserted : table.insert row = .ok after) :
    after.rows = insertRow row table.rows ∧ ∀ other ∈ table.rows, other.id ≠ row.id := by
  unfold insert at inserted
  split at inserted
  · cases inserted
  · next unused =>
      split at inserted
      · cases inserted
      · obtain rfl := Except.ok.inj inserted
        exact ⟨rfl, by simpa using unused⟩

theorem rows_of_replace {id : Int} {row : Row} (replaced : table.replace id row = .ok after) :
    after.rows = insertRow row (table.rows.filter fun other => other.id != id) ∧
      ∀ other ∈ table.rows.filter (fun other => other.id != id), other.id ≠ row.id := by
  simp only [replace] at replaced
  split at replaced
  · cases replaced
  · next unused =>
      split at replaced
      · cases replaced
      · obtain rfl := Except.ok.inj replaced
        refine ⟨rfl, fun other member same => unused ?_⟩
        exact List.any_eq_true.mpr ⟨other, member, beq_iff_eq.mpr same⟩

theorem mem_of_change {id : Int} {edit : Row → Row} {result : Except StoreError (Option Row)}
    (answer : table.change id edit = (result, after)) {row : Row} (member : row ∈ after.rows) :
    row ∈ table.rows ∨ ∃ old ∈ table.rows, row = edit old := by
  unfold change at answer
  split at answer
  · obtain rfl := (Prod.mk.inj answer).2
    exact .inl member
  · next old found =>
      split at answer
      · obtain rfl := (Prod.mk.inj answer).2
        exact .inl member
      · next changed replaced =>
          obtain rfl := (Prod.mk.inj answer).2
          rw [(rows_of_replace replaced).1] at member
          rcases mem_insertRow.mp member with same | other
          · exact .inr ⟨old, mem_of_find? found, same⟩
          · exact .inl (List.mem_filter.mp other).1

end

theorem ordered_empty : empty.Ordered := .nil

namespace Ordered

variable {table after : Table}

/-- The table after a statement is ordered, if the statement keeps the order. -/
theorem of_answer {Value : Type} {answer : Answer Value} {result : Except StoreError Value}
    (ordered : answer.2.Ordered) (same : answer = (result, after)) : after.Ordered := by
  rwa [same] at ordered

theorem insert {row : Row} (ordered : table.Ordered) (inserted : table.insert row = .ok after) :
    after.Ordered := by
  obtain ⟨rows, unused⟩ := rows_of_insert inserted
  rw [Table.Ordered, rows]
  exact pairwise_insertRow ordered unused

theorem replace {id : Int} {row : Row} (ordered : table.Ordered)
    (replaced : table.replace id row = .ok after) : after.Ordered := by
  obtain ⟨rows, unused⟩ := rows_of_replace replaced
  rw [Table.Ordered, rows]
  exact pairwise_insertRow (List.Pairwise.filter _ ordered) unused

variable (ordered : table.Ordered)

include ordered

theorem delete (id : Int) : (table.delete id).2.Ordered := by
  unfold Table.delete
  split
  · exact ordered
  · split
    · exact ordered
    · exact ordered.erase id

theorem change (id : Int) (edit : Row → Row) : (table.change id edit).2.Ordered := by
  unfold Table.change
  split
  · exact ordered
  · split
    · exact ordered
    · next changed replaced => exact ordered.replace replaced

theorem enqueue (job : Job) (now : Instant) : (table.enqueue job now).2.Ordered := by
  unfold Table.enqueue
  split
  · split <;> next answer => exact .of_answer (ordered.change _ _) answer
  · split
    · exact ordered
    · split
      · exact ordered
      · next after inserted => exact ordered.insert inserted

theorem claim (id : Int) (now : Instant) : (table.claim id now).2.Ordered := by
  unfold Table.claim
  split
  · exact ordered
  · split
    · split <;> next answer => exact .of_answer (ordered.change _ _) answer
    · exact ordered

theorem complete (id : Int) : (table.complete id).2.Ordered := by
  unfold Table.complete
  split <;> next answer => exact .of_answer (ordered.delete _) answer

theorem reschedule (id : Int) (notBefore : Instant) (failure : Option Failure) (now : Instant) :
    (table.reschedule id notBefore failure now).2.Ordered := by
  unfold Table.reschedule
  split
  · exact ordered
  · split
    · exact ordered
    · split
      · split <;> next answer => exact .of_answer (ordered.delete _) answer
      · dsimp only
        split <;> next answer => exact .of_answer (ordered.change _ _) answer

theorem markFailed (id : Int) (failures : Nat) (error : String) (now : Instant) :
    (table.markFailed id failures error now).2.Ordered := by
  unfold Table.markFailed
  split <;> next answer => exact .of_answer (ordered.change _ _) answer

theorem cancel (id : Int) : (table.cancel id).2.Ordered := by
  unfold Table.cancel
  split
  · exact ordered
  · split
    · split <;> next answer => exact .of_answer (ordered.delete _) answer
    · exact ordered

theorem requeue (id : Int) (now : Instant) : (table.requeue id now).2.Ordered := by
  have rescheduled := ordered.reschedule id now none now
  unfold Table.requeue
  split
  · exact ordered
  · split
    · split
      · next after pending =>
          have middle : after.Ordered := .of_answer rescheduled pending
          split <;> next answer => exact .of_answer (middle.change _ _) answer
      · exact rescheduled
    · exact ordered

theorem settleOutcome (record : Record) (outcome : Outcome) (now : Instant) :
    (table.settleOutcome record outcome now).2.Ordered := by
  cases outcome with
  | success =>
      simp only [Table.settleOutcome]
      split <;> next answer => exact .of_answer (ordered.complete _) answer
  | retryAfter delay =>
      simp only [Table.settleOutcome]
      split <;> next answer => exact .of_answer (ordered.reschedule _ _ _ _) answer

theorem settleFailure (record : Record) (error : JobError) (policy : RetryPolicy) (draw : Nat)
    (now : Instant) : (table.settleFailure record error policy draw now).2.Ordered := by
  simp only [Table.settleFailure]
  split
  · split <;> next answer => exact .of_answer (ordered.markFailed _ _ _ _) answer
  · split <;> next answer => exact .of_answer (ordered.reschedule _ _ _ _) answer

theorem settle (record : Record) (result : Except JobError Outcome) (policy : RetryPolicy)
    (draw : Nat) (now : Instant) : (table.settle record result policy draw now).2.Ordered := by
  cases result with
  | ok outcome => exact ordered.settleOutcome record outcome now
  | error error => exact ordered.settleFailure record error policy draw now

omit ordered in
theorem rescheduleAll (ordered : table.Ordered) (ids : List Int) (notBefore now : Instant) :
    (table.rescheduleAll ids notBefore now).2.Ordered := by
  induction ids generalizing table with
  | nil => exact ordered
  | cons id rest ih =>
      have first := ordered.reschedule id notBefore none now
      rw [Table.rescheduleAll]
      split
      · next answer => exact .of_answer first answer
      · next middle answer =>
          have others := ih (.of_answer first answer)
          split <;> next answer => exact .of_answer others answer

theorem recover (recovery : Recovery) (policy : RetryPolicy) (draw : Nat) (now : Instant) :
    (table.recover recovery policy draw now).2.Ordered :=
  ordered.rescheduleAll _ _ now

omit ordered in
theorem applyPicks (ordered : table.Ordered) (now : Instant) (picks : List Pick) :
    (table.applyPicks now picks).2.Ordered := by
  induction picks generalizing table with
  | nil => exact ordered
  | cons first rest ih =>
      cases first with
      | giveUp record =>
          have first := ordered.markFailed record.id record.nextFailures
            (unknownTypeMessage record.jobType) now
          simp only [Table.applyPicks]
          split
          · next answer => exact .of_answer first answer
          · next middle answer =>
              have others := ih (.of_answer first answer)
              split <;> next answer => exact .of_answer others answer
      | claim record =>
          have first := ordered.claim record.id now
          simp only [Table.applyPicks]
          split
          · next answer => exact .of_answer first answer
          · next middle answer =>
              have others := ih (.of_answer first answer)
              split <;> next answer => exact .of_answer others answer

theorem tick (registry : Registry) (lanes : Lanes) (batch : Nat) (now : Instant) :
    (table.tick registry lanes batch now).2.Ordered := by
  simp only [Table.tick]
  split
  · exact ordered
  · next records _ =>
      have applied := ordered.applyPicks now (pick registry lanes records)
      split
      · next answer => exact .of_answer applied answer
      · next answer =>
          split
          · exact .of_answer applied answer
          · exact .of_answer applied answer

end Ordered

end Table

end DurableJobs.Store
