import DurableJobs.Proofs.Store.Histories
import DurableJobs.Proofs.Store.Receipts
import Mathlib.Algebra.Order.Group.Multiset

/-!
What leaves the table, by id.

A record is taken out of the table when it is completed, canceled or gives way to a pending one with
its key. Whatever an operation takes out, together with what it leaves, is what there was.
-/

set_option autoImplicit false

namespace DurableJobs

/-- The record that was taken out of the table when it was settled, if it was. -/
def Settlement.removed (record : Record) : Settlement → List Int
  | .completed => [record.id]
  | .superseded _ => [record.id]
  | _ => []

namespace Store

/-- The record that was taken out of the table when it was to be pending again, if it was. -/
def Rescheduled.removed (id : Int) : Rescheduled → List Int
  | .superseded _ => [id]
  | _ => []

def removedOf (replies : List (Int × Rescheduled)) : List Int :=
  replies.flatMap fun reply => reply.2.removed reply.1

namespace Table

namespace Consistent

variable {table : Table} (consistent : table.Consistent)

include consistent

theorem ids_erase {id : Int} {row : Row} (found : table.find? id = some row) :
    ((table.erase id).ids : Multiset Int) + [id] = table.ids := by
  have isErase : (table.erase id).ids = table.ids.erase id := by
    rw [consistent.nodup_ids.erase_eq_filter, ids, ids, List.filter_map]
    rfl
  have member : id ∈ table.ids := by
    rw [← id_of_find? found]
    exact List.mem_map_of_mem (mem_of_find? found)
  rw [isErase, ← Multiset.coe_erase, add_comm, Multiset.coe_singleton, Multiset.singleton_add,
    Multiset.cons_erase (Multiset.mem_coe.mpr member)]

theorem ids_settle {after : Table} {record : Record} {result : Except JobError Outcome}
    {policy : RetryPolicy} {draw : Nat} {now : Instant} {settlement : Settlement}
    (answer : table.settle record result policy draw now = (.ok settlement, after)) :
    (after.ids : Multiset Int) + settlement.removed record = table.ids := by
  rcases consistent.settle_cases record result policy draw now with
    ⟨_, missing⟩ | ⟨row, found, ended⟩
  · obtain ⟨isMissing, rfl⟩ := Prod.mk.inj (answer.symm.trans missing)
    obtain rfl := Except.ok.inj isMissing
    exact add_zero _
  · cases verdict : Verdict.of record result policy draw now with
    | remove =>
        simp only [verdict] at ended
        obtain ⟨isCompleted, rfl⟩ := Prod.mk.inj (answer.symm.trans ended)
        obtain rfl := Except.ok.inj isCompleted
        exact consistent.ids_erase found
    | giveUp failure =>
        simp only [verdict] at ended
        obtain ⟨isDead, rfl⟩ := Prod.mk.inj (answer.symm.trans ended)
        obtain rfl := Except.ok.inj isDead
        rw [ids_put]
        exact add_zero _
    | comeBack notBefore failure =>
        cases held : table.survivor? row with
        | some survivor =>
            simp only [verdict, held] at ended
            obtain ⟨isSuperseded, rfl⟩ := Prod.mk.inj (answer.symm.trans ended)
            obtain rfl := Except.ok.inj isSuperseded
            exact consistent.ids_erase found
        | none =>
            simp only [verdict, held] at ended
            obtain ⟨isRetrying, rfl⟩ := Prod.mk.inj (answer.symm.trans ended)
            obtain rfl := Except.ok.inj isRetrying
            rw [ids_put]
            exact add_zero _

theorem ids_requeue (id : Int) (now : Instant) :
    ∃ reply after, table.requeue id now = (.ok reply, after) ∧
      (after.ids : Multiset Int) + reply.removed id = table.ids := by
  rcases consistent.requeue_cases id now with
    ⟨_, answer⟩ | ⟨_, _, found, _, _, answer⟩ | ⟨_, _, _, _, answer⟩
  · exact ⟨_, _, answer, add_zero _⟩
  · exact ⟨_, _, answer, consistent.ids_erase found⟩
  · refine ⟨_, _, answer, ?_⟩
    rw [ids_put]
    exact add_zero _

theorem ids_reschedule (id : Int) (notBefore : Instant) (failure : Option Failure)
    (now : Instant) :
    ∃ reply after, table.reschedule id notBefore failure now = (.ok reply, after) ∧
      (after.ids : Multiset Int) + reply.removed id = table.ids := by
  rcases consistent.reschedule_cases id notBefore failure now with
    ⟨_, answer⟩ | ⟨_, _, found, _, answer⟩ | ⟨_, _, _, answer⟩
  · exact ⟨_, _, answer, add_zero _⟩
  · exact ⟨_, _, answer, consistent.ids_erase found⟩
  · refine ⟨_, _, answer, ?_⟩
    rw [ids_put]
    exact add_zero _

end Consistent

theorem Consistent.ids_rescheduleAll {table after : Table} (consistent : table.Consistent)
    {listed : List Int} {notBefore now : Instant} {replies : List (Int × Rescheduled)}
    (answer : table.rescheduleAll listed notBefore now = (.ok replies, after)) :
    (after.ids : Multiset Int) + removedOf replies = table.ids := by
  induction listed generalizing table replies with
  | nil =>
      obtain ⟨none, rfl⟩ := Prod.mk.inj answer
      obtain rfl := Except.ok.inj none
      exact add_zero _
  | cons id rest ih =>
      obtain ⟨reply, middle, first, step⟩ := consistent.ids_reschedule id notBefore none now
      have reaches := consistent.perform_reaches (.reschedule id notBefore none now)
      have later : middle.Consistent := by
        rw [perform, first] at reaches
        exact Reaches.consistent reaches consistent
      simp only [rescheduleAll, first] at answer
      split at answer
      · cases answer
      · next others final isRest =>
          obtain ⟨areReplies, rfl⟩ := Prod.mk.inj answer
          obtain rfl := Except.ok.inj areReplies
          have restIds := ih later isRest
          rw [removedOf, List.flatMap_cons, ← Multiset.coe_add, add_comm (reply.removed id : Multiset Int),
            ← add_assoc, ← removedOf, restIds, step]

/-- Every row has a text for its job type. -/
def Titled (table : Table) : Prop := ∀ row ∈ table.rows, ∃ jobType, row.jobType = .text jobType

theorem titled_empty : empty.Titled := by
  simp [Titled, empty]

theorem Titled.put {table : Table} (titled : table.Titled) {row : Row}
    (isText : ∃ jobType, row.jobType = .text jobType) : (table.put row).Titled := by
  intro other member
  rcases mem_put.mp member with ⟨rfl, _⟩ | ⟨old, _⟩
  · exact isText
  · exact titled other old

theorem Titled.put_of_same {table : Table} (titled : table.Titled) {old row : Row}
    (member : old ∈ table.rows) (same : row.jobType = old.jobType) : (table.put row).Titled := by
  refine titled.put ?_
  rw [same]
  exact titled old member

theorem Titled.erase {table : Table} (titled : table.Titled) (id : Int) :
    (table.erase id).Titled :=
  fun row member => titled row (List.mem_filter.mp member).1

theorem Transition.titled {before after : Table} (transition : Transition before after)
    (titled : before.Titled) : after.Titled := by
  cases transition with
  | @inserted job id now free next =>
      intro row member
      rcases List.mem_append.mp member with old | new
      · exact titled row old
      · exact ⟨job.jobType, by rw [List.mem_singleton.mp new]; rfl⟩
  | coalesced now held => exact titled.put ⟨_, rfl⟩
  | claimed now member => exact titled.put_of_same member rfl
  | completed | canceled | superseded => exact titled.erase _
  | rescheduled notBefore failure now member =>
      refine titled.put_of_same member ?_
      cases failure <;> rfl
  | requeued now member => exact titled.put_of_same member rfl
  | gaveUp failures error now member => exact titled.put_of_same member rfl

theorem Reaches.titled {before after : Table} (reaches : Reaches before after)
    (titled : before.Titled) : after.Titled := by
  induction reaches with
  | refl => exact titled
  | tail _ transition ih => exact transition.titled ih

/-- On a table with texts for its job types, a cancel that takes a record out says so. -/
theorem Consistent.cancel_answers {table : Table} (consistent : table.Consistent)
    (titled : table.Titled) (id : Int) :
    table.cancel id = (.ok none, table) ∨
      ∃ jobType, table.cancel id = (.ok (some jobType), table.erase id) ∧
        ((table.erase id).ids : Multiset Int) + [id] = table.ids := by
  rcases consistent.cancel_cases id with ⟨_, answer⟩ | ⟨row, found, _, answer⟩
  · exact .inl answer
  · obtain ⟨jobType, isText⟩ := titled row (mem_of_find? found)
    refine .inr ⟨jobType, ?_, consistent.ids_erase found⟩
    rw [answer, isText]
    rfl

end Table

end Store

end DurableJobs
