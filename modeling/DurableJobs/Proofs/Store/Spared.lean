import DurableJobs.Proofs.Store.Histories
import DurableJobs.Proofs.Store.Reading

/-!
Which rows an operation leaves alone.

Enqueuing touches pending rows only, canceling too, and requeuing touches failed ones only; a
settlement touches the row of its record. So the row of a running record stays as it is until the
record itself is settled.
-/

set_option autoImplicit false

namespace DurableJobs.Store.Table

def SparesRunning (before after : Table) : Prop :=
  ∀ id row, before.find? id = some row → row.state = .running → after.find? id = some row

abbrev Enqueues : Table → Table → Prop :=
  Relation.ReflTransGen fun before after =>
    ∃ job now receipt, before.enqueue job now = (.ok receipt, after)

theorem SparesRunning.refl (table : Table) : SparesRunning table table :=
  fun _ _ found _ => found

theorem SparesRunning.trans {before middle after : Table} (first : SparesRunning before middle)
    (second : SparesRunning middle after) : SparesRunning before after :=
  fun id row found running => second id row (first id row found running) running

theorem sparesRunning_put {table : Table} {old row : Row} (found : table.find? row.id = some old)
    (resting : old.state ≠ .running) : SparesRunning table (table.put row) := by
  intro id other otherFound running
  rw [find?_put]
  split
  · next here =>
      rw [here, found] at otherFound
      exact absurd (Option.some.inj otherFound ▸ running) resting
  · exact otherFound

theorem sparesRunning_erase {table : Table} {id : Int} {old : Row}
    (found : table.find? id = some old) (resting : old.state ≠ .running) :
    SparesRunning table (table.erase id) := by
  intro other row otherFound running
  rw [find?_erase]
  split
  · next here =>
      rw [here, found] at otherFound
      exact absurd (Option.some.inj otherFound ▸ running) resting
  · exact otherFound

namespace Consistent

variable {table : Table} (consistent : table.Consistent)

include consistent

theorem enqueue_spares (job : Job) (now : Instant) :
    SparesRunning table (table.enqueue job now).2 := by
  rcases consistent.enqueue_cases job now with
    ⟨row, held, answer⟩ | ⟨id, free, next, answer⟩ | ⟨_, _, answer⟩
  · rw [answer]
    obtain ⟨_, _, member, pending, _⟩ := of_bind_pendingWithKey? held
    have found : table.find? (row.coalesce job now).id = some row := consistent.find?_of_mem member
    exact sparesRunning_put found (by simp [pending])
  · rw [answer]
    intro other row found _
    have fresh := consistent.find?_nextId next
    rw [find?_append other fresh, if_neg]
    · exact found
    · rintro rfl
      simp [fresh] at found
  · rw [answer]
    exact .refl table

theorem cancel_spares (id : Int) : SparesRunning table (table.cancel id).2 := by
  rcases consistent.cancel_cases id with ⟨_, answer⟩ | ⟨row, found, pending, answer⟩
  · rw [answer]
    exact .refl table
  · rw [answer]
    exact sparesRunning_erase found (by simp [pending])

theorem requeue_spares (id : Int) (now : Instant) :
    SparesRunning table (table.requeue id now).2 := by
  rcases consistent.requeue_cases id now with
    ⟨_, answer⟩ | ⟨row, survivor, found, failed, held, answer⟩ | ⟨row, found, failed, free, answer⟩
  · rw [answer]
    exact .refl table
  · rw [answer]
    exact sparesRunning_erase found (by simp [failed])
  · rw [answer]
    have held : table.find? (row.requeue now).id = some row := by
      rw [Row.id_requeue, id_of_find? found, found]
    exact sparesRunning_put held (by simp [failed])

theorem enqueues_spares {after : Table} (enqueues : Enqueues table after) :
    after.Consistent ∧ SparesRunning table after := by
  induction enqueues with
  | refl => exact ⟨consistent, .refl table⟩
  | tail _ step ih =>
      obtain ⟨job, now, receipt, answer⟩ := step
      have kept := (ih.1.enqueue_reaches job now).consistent ih.1
      have spared := ih.1.enqueue_spares job now
      rw [answer] at kept spared
      exact ⟨kept, ih.2.trans spared⟩

/-! ### Settlements -/

section Settlement

variable (record : Record) (result : Except JobError Outcome) (policy : RetryPolicy) (draw : Nat)
  (now : Instant)

theorem find?_settle_of_ne {id : Int} (different : id ≠ record.id) :
    (table.settle record result policy draw now).2.find? id = table.find? id := by
  rcases consistent.settle_cases record result policy draw now with
    ⟨_, answer⟩ | ⟨row, found, answer⟩
  · rw [answer]
  · have here := id_of_find? found
    cases verdict : Verdict.of record result policy draw now with
    | remove =>
        simp only [verdict] at answer
        rw [answer, find?_erase, if_neg different]
    | giveUp failure =>
        simp only [verdict] at answer
        rw [answer, find?_put, Row.id_fail, here, if_neg different]
    | comeBack notBefore failure =>
        cases held : table.survivor? row with
        | some survivor =>
            simp only [verdict, held] at answer
            rw [answer, find?_erase, if_neg different]
        | none =>
            simp only [verdict, held] at answer
            rw [answer, find?_put, Row.id_comeBack, here, if_neg different]

theorem settle_of_found {row : Row} (found : table.find? record.id = some row) :
    ∃ settlement, (table.settle record result policy draw now).1 = .ok settlement ∧
      settlement ≠ .missing := by
  rcases consistent.settle_cases record result policy draw now with
    ⟨missing, _⟩ | ⟨other, otherFound, answer⟩
  · rw [missing] at found
    cases found
  · cases verdict : Verdict.of record result policy draw now with
    | remove =>
        simp only [verdict] at answer
        exact ⟨_, by rw [answer], by simp⟩
    | giveUp failure =>
        simp only [verdict] at answer
        exact ⟨_, by rw [answer], by simp⟩
    | comeBack notBefore failure =>
        cases held : table.survivor? other with
        | some survivor =>
            simp only [verdict, held] at answer
            exact ⟨_, by rw [answer], by simp⟩
        | none =>
            simp only [verdict, held] at answer
            exact ⟨_, by rw [answer], by simp⟩

/-- What a failed execution leaves of its record has one failure more than the record had. -/
theorem failures_of_settle {error : JobError} {row : Row}
    (left : (table.settle record (.error error) policy draw now).2.find? record.id = some row) :
    row.failures = .integer record.nextFailures := by
  rcases consistent.settle_cases record (.error error) policy draw now with
    ⟨missing, answer⟩ | ⟨other, found, answer⟩
  · rw [answer, missing] at left
    cases left
  · have here := id_of_find? found
    by_cases exhausted : policy.isExhausted record.nextFailures = true
    · simp only [Verdict.of, exhausted, if_true] at answer
      rw [answer, find?_put, Row.id_fail, if_pos here.symm, found] at left
      obtain rfl := Option.some.inj left
      rfl
    · simp only [Verdict.of, exhausted, if_false, Bool.false_eq_true] at answer
      cases held : table.survivor? other with
      | some survivor =>
          simp only [held] at answer
          rw [answer, find?_erase, if_pos rfl] at left
          cases left
      | none =>
          simp only [held] at answer
          rw [answer, find?_put, Row.id_comeBack, if_pos here.symm, found] at left
          obtain rfl := Option.some.inj left
          rfl

end Settlement

end Consistent

end DurableJobs.Store.Table
