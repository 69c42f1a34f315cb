import DurableJobs.Proofs.Store.Reading
import DurableJobs.Proofs.Store.Transitions
import Mathlib.Logic.Relation

/-!
The operations of the store, on tables that keep the rules: when each succeeds, what it answers and
which transition it is.
-/

set_option autoImplicit false

namespace DurableJobs.Store

namespace Table

theorem put_put (table : Table) {first second : Row} (same : second.id = first.id) :
    (table.put first).put second = table.put second := by
  simp only [put, List.map_map, same]
  congr 2
  funext other
  by_cases here : other.id = first.id <;> simp [here]

theorem bind_pendingSibling? (table : Table) {row : Row} {key : Option String}
    (isKey : row.debounceKey = .ofText? key) :
    (key.bind fun key => table.pendingSibling? key row.id) = table.survivor? row := by
  cases key <;> simp [survivor?, isKey, Cell.ofText?]

/-! ### Operations that no clash can refuse -/

namespace Ordered

variable {table : Table} (ordered : table.Ordered)

include ordered

theorem claim_cases (id : Int) (now : Instant) :
    ((∀ row, table.find? id = some row → row.state ≠ .pending) ∧
        table.claim id now = (.ok none, table)) ∨
      ∃ row, table.find? id = some row ∧ row.state = .pending ∧
        table.claim id now = ((row.claim now).record.map some, table.put (row.claim now)) := by
  cases found : table.find? id with
  | none => exact .inl ⟨by simp, by simp [Table.claim, found]⟩
  | some row =>
      by_cases pending : row.state = .pending
      · have changed := ordered.change_eq_put found (fun row => row.claim now) rfl
          fun other _ _ => clash_of_not_pending (by simp)
        exact .inr ⟨row, rfl, pending,
          by simp [Table.claim, found, pending, JobState.isPending, changed]⟩
      · refine .inl ⟨fun other same => Option.some.inj same ▸ pending, ?_⟩
        simp [Table.claim, found, pending, JobState.isPending]

theorem markFailed_cases (id : Int) (failures : Nat) (error : String) (now : Instant) :
    (table.find? id = none ∧ table.markFailed id failures error now = (.ok false, table)) ∨
      ∃ row, table.find? id = some row ∧
        table.markFailed id failures error now =
          (.ok true, table.put (row.fail failures error now)) := by
  cases found : table.find? id with
  | none => exact .inl ⟨rfl, by simp [Table.markFailed, Table.change, found]⟩
  | some row =>
      have changed := ordered.change_eq_put found (fun row => row.fail failures error now) rfl
        fun other _ _ => clash_of_not_pending (by simp)
      exact .inr ⟨row, rfl, by simp [Table.markFailed, changed]⟩

end Ordered

/-! ### All operations -/

namespace Consistent

variable {table : Table} (consistent : table.Consistent)

include consistent

theorem enqueue_cases (job : Job) (now : Instant) :
    (∃ row, job.debounceKey.bind table.pendingWithKey? = some row ∧
        table.enqueue job now = (.ok ⟨row.id, true⟩, table.put (row.coalesce job now))) ∨
      (∃ id, job.debounceKey.bind table.pendingWithKey? = none ∧ table.nextId? = some id ∧
        table.enqueue job now = (.ok ⟨id, false⟩, table.append (Row.ofJob id job now))) ∨
      (job.debounceKey.bind table.pendingWithKey? = none ∧ table.nextId? = none ∧
        table.enqueue job now = (.error .full, table)) := by
  cases held : job.debounceKey.bind table.pendingWithKey? with
  | some row =>
      obtain ⟨key, _, member, pending, _⟩ := of_bind_pendingWithKey? held
      have changed := consistent.change_eq_put (consistent.find?_of_mem member)
        (fun row => row.coalesce job now) rfl fun other otherMember different =>
          consistent.apart_of_same member ((Row.state_coalesce row job now).trans pending.symm)
            (Row.debounceKey_coalesce row job now) otherMember different
      exact .inl ⟨row, rfl, by simp [enqueue, held, changed]⟩
  | none =>
      cases next : table.nextId? with
      | some id =>
          have isNext := consistent.eq_succ_mark_of_nextId? next
          have above : table.mark < (Row.ofJob id job now).id := by
            rw [Row.id_ofJob]
            omega
          have inserted := consistent.insert_eq_append above fun other member =>
            apart_of_unheld held member
          exact .inr (.inl ⟨id, rfl, rfl, by simp [enqueue, held, next, inserted]⟩)
      | none => exact .inr (.inr ⟨rfl, rfl, by simp [enqueue, held, next]⟩)

theorem claim_cases (id : Int) (now : Instant) :
    ((∀ row, table.find? id = some row → row.state ≠ .pending) ∧
        table.claim id now = (.ok none, table)) ∨
      ∃ row, table.find? id = some row ∧ row.state = .pending ∧
        table.claim id now = ((row.claim now).record.map some, table.put (row.claim now)) :=
  consistent.ordered.claim_cases id now

theorem complete_cases (id : Int) :
    (table.find? id = none ∧ table.complete id = (.ok false, table)) ∨
      ∃ row, table.find? id = some row ∧ table.complete id = (.ok true, table.erase id) := by
  cases found : table.find? id with
  | none => exact .inl ⟨rfl, by simp [complete, delete, found]⟩
  | some row =>
      exact .inr ⟨row, rfl, by simp [complete, consistent.delete_eq_erase found]⟩

theorem reschedule_cases (id : Int) (notBefore : Instant) (failure : Option Failure)
    (now : Instant) :
    (table.find? id = none ∧
        table.reschedule id notBefore failure now = (.ok .missing, table)) ∨
      (∃ row survivor, table.find? id = some row ∧ table.survivor? row = some survivor ∧
        table.reschedule id notBefore failure now =
          (.ok (.superseded survivor.id), table.erase id)) ∨
      ∃ row, table.find? id = some row ∧ table.survivor? row = none ∧
        table.reschedule id notBefore failure now =
          (.ok (.pending notBefore), table.put (row.comeBack notBefore failure now)) := by
  cases found : table.find? id with
  | none => exact .inl ⟨rfl, by simp [reschedule, found]⟩
  | some row =>
      have member := mem_of_find? found
      obtain ⟨key, isKey⟩ := consistent.keyed row member
      have siblings := table.bind_pendingSibling? isKey
      rw [id_of_find? found] at siblings
      cases held : table.survivor? row with
      | some survivor =>
          rw [held] at siblings
          refine .inr (.inl ⟨row, survivor, rfl, held, ?_⟩)
          simp [reschedule, found, isKey, Row.readOptional_ofText?, siblings,
            consistent.delete_eq_erase found]
      | none =>
          rw [held] at siblings
          refine .inr (.inr ⟨row, rfl, held, ?_⟩)
          cases failure with
          | none =>
              have changed := consistent.change_eq_put found
                (fun row => row.reschedule notBefore now) rfl fun other otherMember different =>
                  consistent.apart_of_free member held
                    (Row.debounceKey_comeBack row notBefore none now) otherMember different
              simp [reschedule, found, isKey, Row.readOptional_ofText?, siblings, changed,
                Row.comeBack]
          | some failure =>
              have changed := consistent.change_eq_put found
                (fun row =>
                  (row.reschedule notBefore now).noteFailure failure.failures failure.error)
                rfl fun other otherMember different =>
                  consistent.apart_of_free member held
                    (Row.debounceKey_comeBack row notBefore (some failure) now) otherMember
                    different
              simp [reschedule, found, isKey, Row.readOptional_ofText?, siblings, changed,
                Row.comeBack]

theorem markFailed_cases (id : Int) (failures : Nat) (error : String) (now : Instant) :
    (table.find? id = none ∧ table.markFailed id failures error now = (.ok false, table)) ∨
      ∃ row, table.find? id = some row ∧
        table.markFailed id failures error now =
          (.ok true, table.put (row.fail failures error now)) :=
  consistent.ordered.markFailed_cases id failures error now

theorem cancel_cases (id : Int) :
    ((∀ row, table.find? id = some row → row.state ≠ .pending) ∧
        table.cancel id = (.ok none, table)) ∨
      ∃ row, table.find? id = some row ∧ row.state = .pending ∧
        table.cancel id = ((Row.readText 0 "job_type" row.jobType).map some, table.erase id) := by
  cases found : table.find? id with
  | none => exact .inl ⟨by simp, by simp [cancel, found]⟩
  | some row =>
      by_cases pending : row.state = .pending
      · refine .inr ⟨row, rfl, pending, ?_⟩
        simp [cancel, found, pending, JobState.isPending, consistent.delete_eq_erase found]
      · refine .inl ⟨fun other same => Option.some.inj same ▸ pending, ?_⟩
        simp [cancel, found, pending, JobState.isPending]

theorem requeue_cases (id : Int) (now : Instant) :
    ((∀ row, table.find? id = some row → row.state ≠ .failed) ∧
        table.requeue id now = (.ok .missing, table)) ∨
      (∃ row survivor, table.find? id = some row ∧ row.state = .failed ∧
        table.survivor? row = some survivor ∧
        table.requeue id now = (.ok (.superseded survivor.id), table.erase id)) ∨
      ∃ row, table.find? id = some row ∧ row.state = .failed ∧ table.survivor? row = none ∧
        table.requeue id now = (.ok (.pending now), table.put (row.requeue now)) := by
  cases found : table.find? id with
  | none => exact .inl ⟨by simp, by simp [requeue, found]⟩
  | some row =>
      by_cases failed : row.state = .failed
      · rcases consistent.reschedule_cases id now none now with
          ⟨missing, _⟩ | ⟨other, survivor, same, held, answer⟩ | ⟨other, same, free, answer⟩
        · simp [found] at missing
        · obtain rfl := Option.some.inj (found.symm.trans same)
          refine .inr (.inl ⟨row, survivor, rfl, failed, held, ?_⟩)
          simp [requeue, found, failed, answer]
        · obtain rfl := Option.some.inj (found.symm.trans same)
          have here := id_of_find? found
          have after := (Transition.rescheduled now none now (mem_of_find? found) free).consistent
            consistent
          have refound : (table.put (row.comeBack now none now)).find? id =
              some (row.comeBack now none now) := by
            simp [find?_put, here, found]
          have changed := after.change_eq_put refound Row.resetCounts rfl
            fun other otherMember different =>
              after.apart_of_same (mem_of_find? refound) rfl rfl otherMember different
          have sameId : (row.comeBack now none now).resetCounts.id =
              (row.comeBack now none now).id := rfl
          rw [put_put table sameId] at changed
          refine .inr (.inr ⟨row, rfl, failed, free, ?_⟩)
          simp only [requeue, found, failed, if_true, answer, changed]
          rfl
      · refine .inl ⟨fun other same => Option.some.inj same ▸ failed, ?_⟩
        simp [requeue, found, failed]

end Consistent

end Table

end DurableJobs.Store
