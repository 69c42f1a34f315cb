import DurableJobs.Proofs.Store.Spared

/-!
What enqueuing hands out.

Each enqueued job has a receipt: it is in a row of its own, or in the place of a pending row. Ids of
new rows only ascend, past every id that the table has had; all other rows stay as they are.
-/

set_option autoImplicit false

namespace DurableJobs.Store

namespace Row

/-- The row waits for its first execution. -/
structure IsUntried (row : Row) : Prop where
  pending : row.state = .pending
  attempts : row.attempts = .integer 0
  failures : row.failures = .integer 0

theorem isUntried_ofJob (id : Int) (job : Job) (now : Instant) : (ofJob id job now).IsUntried :=
  ⟨rfl, rfl, rfl⟩

theorem isUntried_coalesce (row : Row) (job : Job) (now : Instant) :
    (row.coalesce job now).IsUntried :=
  ⟨rfl, rfl, rfl⟩

theorem isUntried_requeue (row : Row) (now : Instant) : (row.requeue now).IsUntried :=
  ⟨rfl, rfl, rfl⟩

end Row

namespace Receipt

/-- The id of the row that was inserted, if one was. -/
def newId? (receipt : Receipt) : Option Int :=
  if receipt.isCoalesced then none else some receipt.id

end Receipt

def newIds (receipts : List Receipt) : List Int := receipts.filterMap Receipt.newId?

theorem newIds_append (first second : List Receipt) :
    newIds (first ++ second) = newIds first ++ newIds second :=
  List.filterMap_append

namespace Table

def ids (table : Table) : List Int := table.rows.map Row.id

theorem Consistent.nodup_ids {table : Table} (consistent : table.Consistent) : table.ids.Nodup :=
  consistent.ordered.nodup_ids

@[simp] theorem ids_put (table : Table) (row : Row) : (table.put row).ids = table.ids := by
  rw [ids, put, List.map_map]
  refine List.map_congr_left fun other _ => ?_
  dsimp only [Function.comp_apply]
  split
  · next same => exact same.symm
  · rfl

@[simp] theorem ids_append (table : Table) (row : Row) :
    (table.append row).ids = table.ids ++ [row.id] := by
  simp [ids, append]

/-- Jobs are enqueued one after the other, with these receipts. -/
inductive EnqueuedAll : Table → List Receipt → Table → Prop where
  | nil {table : Table} : EnqueuedAll table [] table
  | cons {table middle after : Table} {job : Job} {now : Instant} {receipt : Receipt}
      {receipts : List Receipt} (first : table.enqueue job now = (.ok receipt, middle))
      (rest : EnqueuedAll middle receipts after) : EnqueuedAll table (receipt :: receipts) after

theorem EnqueuedAll.enqueues {table after : Table} {receipts : List Receipt}
    (all : EnqueuedAll table receipts after) : Enqueues table after := by
  induction all with
  | nil => exact .refl
  | cons first _ ih => exact .head ⟨_, _, _, first⟩ ih

/-- What enqueued jobs leave behind: each stands in the row of its receipt, which was pending or was
not there; the new rows have ids of their own; and no other row has changed. -/
structure Renewed (table : Table) (receipts : List Receipt) (after : Table) : Prop where
  reaches : Reaches table after
  untried : ∀ id ∈ receipts.map Receipt.id, ∃ row, after.find? id = some row ∧ row.IsUntried
  resting : ∀ id ∈ receipts.map Receipt.id, ∀ row, table.find? id = some row →
    row.state = .pending
  inserted : ∀ id ∈ receipts.map Receipt.id, table.find? id = none → id ∈ newIds receipts
  unchanged : ∀ id, id ∉ receipts.map Receipt.id → after.find? id = table.find? id
  ascending : (newIds receipts).Pairwise fun left right => left < right
  above : ∀ id ∈ newIds receipts, table.mark < id ∧ id ≤ after.mark
  mark_le : table.mark ≤ after.mark
  ids_eq : after.ids = table.ids ++ newIds receipts

theorem Renewed.nil (table : Table) : Renewed table [] table where
  reaches := .refl
  untried := by simp
  resting := by simp
  inserted := by simp
  unchanged := fun _ _ => rfl
  ascending := .nil
  above := by simp [newIds]
  mark_le := Int.le_refl _
  ids_eq := (List.append_nil _).symm

theorem Renewed.append {table middle after : Table} {first second : List Receipt}
    (before : Renewed table first middle) (later : Renewed middle second after) :
    Renewed table (first ++ second) after where
  reaches := before.reaches.trans later.reaches
  untried := by
    intro id member
    rw [List.map_append, List.mem_append] at member
    by_cases isLater : id ∈ second.map Receipt.id
    · exact later.untried id isLater
    · rw [later.unchanged id isLater]
      exact before.untried id (member.resolve_right isLater)
  resting := by
    intro id member row found
    rw [List.map_append, List.mem_append] at member
    by_cases isFirst : id ∈ first.map Receipt.id
    · exact before.resting id isFirst row found
    · exact later.resting id (member.resolve_left isFirst) row
        ((before.unchanged id isFirst).trans found)
  inserted := by
    intro id member absent
    rw [List.map_append, List.mem_append] at member
    rw [newIds_append, List.mem_append]
    by_cases isFirst : id ∈ first.map Receipt.id
    · exact .inl (before.inserted id isFirst absent)
    · exact .inr (later.inserted id (member.resolve_left isFirst)
        ((before.unchanged id isFirst).trans absent))
  unchanged := by
    intro id other
    rw [List.map_append, List.mem_append, not_or] at other
    rw [later.unchanged id other.2, before.unchanged id other.1]
  ascending := by
    rw [newIds_append, List.pairwise_append]
    refine ⟨before.ascending, later.ascending, fun left isLeft right isRight => ?_⟩
    exact Int.lt_of_le_of_lt (before.above left isLeft).2 (later.above right isRight).1
  above := by
    intro id member
    rw [newIds_append, List.mem_append] at member
    have upToMiddle := before.mark_le
    have upToAfter := later.mark_le
    rcases member with isFirst | isLater
    · have between := before.above id isFirst
      omega
    · have between := later.above id isLater
      omega
  mark_le := Int.le_trans before.mark_le later.mark_le
  ids_eq := by
    rw [later.ids_eq, before.ids_eq, newIds_append, List.append_assoc]

theorem Renewed.sparesRunning {table after : Table} {receipts : List Receipt}
    (renewed : Renewed table receipts after) : SparesRunning table after := by
  intro id row found running
  by_cases member : id ∈ receipts.map Receipt.id
  · cases running.symm.trans (renewed.resting id member row found)
  · exact (renewed.unchanged id member).trans found

theorem Consistent.enqueue_renewed {table after : Table} (consistent : table.Consistent) {job : Job}
    {now : Instant} {receipt : Receipt} (answer : table.enqueue job now = (.ok receipt, after)) :
    Renewed table [receipt] after := by
  have reaches := consistent.enqueue_reaches job now
  rw [answer] at reaches
  rcases consistent.enqueue_cases job now with
    ⟨row, held, coalesced⟩ | ⟨id, free, next, inserted⟩ | ⟨_, _, full⟩
  · obtain ⟨isReceipt, rfl⟩ := Prod.mk.inj (answer.symm.trans coalesced)
    obtain rfl := Except.ok.inj isReceipt
    obtain ⟨_, _, member, pending, _⟩ := of_bind_pendingWithKey? held
    have found := consistent.find?_of_mem member
    exact
      { reaches
        untried := by simp [find?_put, found, Row.isUntried_coalesce]
        resting := by simp [found, pending]
        inserted := by simp [found]
        unchanged := by
          intro id other
          rw [find?_put, Row.id_coalesce, if_neg (by simpa using other)]
        ascending := .nil
        above := by simp [newIds, Receipt.newId?]
        mark_le := Int.le_refl _
        ids_eq := by simp [newIds, Receipt.newId?] }
  · obtain ⟨isReceipt, rfl⟩ := Prod.mk.inj (answer.symm.trans inserted)
    obtain rfl := Except.ok.inj isReceipt
    have isNext := consistent.eq_succ_mark_of_nextId? next
    have absent := consistent.find?_nextId next
    have fresh : table.find? (Row.ofJob id job now).id = none := absent
    exact
      { reaches
        untried := by simp [find?_append _ fresh, Row.isUntried_ofJob]
        resting := by simp [absent]
        inserted := by simp [newIds, Receipt.newId?]
        unchanged := by
          intro other different
          rw [find?_append _ fresh, Row.id_ofJob, if_neg (by simpa using different)]
        ascending := List.pairwise_singleton _ _
        above := by
          simp only [newIds, Receipt.newId?, Table.append, Row.id_ofJob, List.filterMap_cons,
            List.filterMap_nil, Bool.false_eq_true, if_false, List.mem_singleton, forall_eq]
          omega
        mark_le := by
          simp only [Table.append, Row.id_ofJob]
          omega
        ids_eq := by simp [newIds, Receipt.newId?] }
  · cases (Prod.mk.inj (answer.symm.trans full)).1

theorem EnqueuedAll.renewed {table after : Table} {receipts : List Receipt}
    (all : EnqueuedAll table receipts after) (consistent : table.Consistent) :
    Renewed table receipts after := by
  induction all with
  | nil => exact .nil _
  | cons first _ ih =>
      have renewed := consistent.enqueue_renewed first
      exact renewed.append (ih (renewed.reaches.consistent consistent))

/-! ### The mark -/

theorem Transition.mark_le {before after : Table} (transition : Transition before after)
    (consistent : before.Consistent) : before.mark ≤ after.mark := by
  cases transition with
  | inserted now free next =>
      have isNext := consistent.eq_succ_mark_of_nextId? next
      simp only [Table.append, Row.id_ofJob]
      omega
  | _ => exact Int.le_refl _

theorem Reaches.mark_le {before after : Table} (reaches : Reaches before after)
    (consistent : before.Consistent) : before.mark ≤ after.mark := by
  induction reaches with
  | refl => exact Int.le_refl _
  | tail earlier transition ih =>
      exact Int.le_trans ih (transition.mark_le (Reaches.consistent earlier consistent))

/-! ### The numbers of rows -/

/-- The ids are those that the store hands out. -/
structure Numbered (table : Table) : Prop where
  mark_nonneg : 0 ≤ table.mark
  range : ∀ row ∈ table.rows, 0 < row.id ∧ row.id ≤ 0x7fffffffffffffff

theorem Numbered.put {table : Table} (numbered : table.Numbered) (row : Row) :
    (table.put row).Numbered := by
  refine ⟨numbered.mark_nonneg, fun other member => ?_⟩
  rcases mem_put.mp member with ⟨rfl, old, isOld, same⟩ | ⟨isOld, _⟩
  · exact same ▸ numbered.range old isOld
  · exact numbered.range other isOld

theorem Numbered.erase {table : Table} (numbered : table.Numbered) (id : Int) :
    (table.erase id).Numbered :=
  ⟨numbered.mark_nonneg, fun row member => numbered.range row (mem_erase.mp member).1⟩

theorem Numbered.append {table : Table} (numbered : table.Numbered) (consistent : table.Consistent)
    {row : Row} (next : table.nextId? = some row.id) : (table.append row).Numbered := by
  have isNext := consistent.eq_succ_mark_of_nextId? next
  have nonneg := numbered.mark_nonneg
  rw [nextId?, consistent.lastId_eq_mark] at next
  split at next
  · refine ⟨Int.le_of_lt ?_, fun other member => ?_⟩
    · show 0 < row.id
      omega
    · rcases mem_append.mp member with old | rfl
      · exact numbered.range other old
      · omega
  · cases next

theorem Transition.numbered {before after : Table} (transition : Transition before after)
    (consistent : before.Consistent) (numbered : before.Numbered) : after.Numbered := by
  cases transition with
  | inserted _ _ next => exact numbered.append consistent next
  | completed _ | canceled _ _ | superseded _ _ => exact numbered.erase _
  | coalesced _ _ | claimed _ _ _ | rescheduled _ _ _ _ _ | requeued _ _ _ _ | gaveUp _ _ _ _ =>
      exact numbered.put _

theorem Reaches.numbered {before after : Table} (reaches : Reaches before after)
    (consistent : before.Consistent) (numbered : before.Numbered) : after.Numbered := by
  induction reaches with
  | refl => exact numbered
  | tail past transition ih => exact transition.numbered (Reaches.consistent past consistent) ih

theorem Reachable.numbered {table : Table} (reachable : Reachable table) : table.Numbered := by
  induction reachable with
  | empty => exact ⟨Int.le_refl 0, by simp [Table.empty]⟩
  | perform past operation ih =>
      exact (past.consistent.perform_reaches operation).numbered past.consistent ih

end Table

end DurableJobs.Store
