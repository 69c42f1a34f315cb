import DurableJobs.Store.Settlement
import Mathlib.Data.List.Nodup
import Mathlib.Data.List.Pairwise

/-!
The rules of the job table as a property, and statements as edits.

A table that keeps the rules has its rows by ascending id up to the mark, no two that clash, and no
guard. On such a table every statement is one of three edits: a row is appended, put in the place of
the one with its id, or erased.
-/

set_option autoImplicit false

namespace DurableJobs.Store

namespace Table

def put (table : Table) (row : Row) : Table :=
  { table with rows := table.rows.map fun other => if other.id = row.id then row else other }

def erase (table : Table) (id : Int) : Table :=
  { table with rows := table.rows.filter fun other => other.id != id }

/-- The table with a row after all others, whose id becomes the mark. -/
def append (table : Table) (row : Row) : Table :=
  { table with rows := table.rows ++ [row], mark := row.id }

/-- The rows stand by ascending id, as the primary key has them. -/
def Ordered (table : Table) : Prop :=
  table.rows.Pairwise fun left right => left.id < right.id

/-- Keys are texts, if there are any; other columns may hold whatever they hold. -/
structure Consistent (table : Table) : Prop where
  sorted : table.rows.Pairwise fun left right => left.id < right.id
  compatible : table.rows.Pairwise fun left right => clash left right = false
  marked : ∀ row ∈ table.rows, row.id ≤ table.mark
  keyed : ∀ row ∈ table.rows, ∃ key : Option String, row.debounceKey = .ofText? key
  unguarded : table.isGuarded = false

theorem consistent_empty : empty.Consistent where
  sorted := .nil
  compatible := .nil
  marked := by simp [empty]
  keyed := by simp [empty]
  unguarded := rfl

theorem Consistent.ordered {table : Table} (consistent : table.Consistent) : table.Ordered :=
  consistent.sorted

/-! ### Clashes -/

theorem clash_eq_true_iff {left right : Row} :
    clash left right = true ↔
      left.state = .pending ∧ right.state = .pending ∧ left.debounceKey ≠ .null ∧
        left.debounceKey = right.debounceKey := by
  simp [clash, JobState.isPending, and_assoc]

theorem clash_comm (left right : Row) : clash left right = clash right left := by
  rw [Bool.eq_iff_iff, clash_eq_true_iff, clash_eq_true_iff]
  constructor
  · rintro ⟨leftPending, rightPending, keyed, same⟩
    exact ⟨rightPending, leftPending, same ▸ keyed, same.symm⟩
  · rintro ⟨rightPending, leftPending, keyed, same⟩
    exact ⟨leftPending, rightPending, same ▸ keyed, same.symm⟩

instance : Std.Symm fun left right => clash left right = false :=
  ⟨fun left right apart => (clash_comm right left).trans apart⟩

theorem clash_of_not_pending {left right : Row} (notPending : left.state ≠ .pending) :
    clash left right = false := by
  rw [Bool.eq_false_iff]
  intro clashing
  exact notPending (clash_eq_true_iff.mp clashing).1

theorem clash_congr {left left' right : Row} (sameState : left'.state = left.state)
    (sameKey : left'.debounceKey = left.debounceKey) : clash left' right = clash left right := by
  simp only [clash, sameState, sameKey]

/-! ### Finding rows -/

theorem find?_eq_none_iff {table : Table} {id : Int} :
    table.find? id = none ↔ ∀ row ∈ table.rows, row.id ≠ id := by
  simp [find?, List.find?_eq_none]

theorem mem_of_find? {table : Table} {id : Int} {row : Row} (found : table.find? id = some row) :
    row ∈ table.rows :=
  List.mem_of_find?_eq_some found

theorem id_of_find? {table : Table} {id : Int} {row : Row} (found : table.find? id = some row) :
    row.id = id := by
  simpa using List.find?_some found

namespace Ordered

variable {table : Table} (ordered : table.Ordered)

include ordered

theorem nodup_ids : (table.rows.map Row.id).Nodup :=
  List.pairwise_map.mpr (List.Pairwise.imp (fun less => Int.ne_of_lt less) ordered)

theorem eq_of_id_eq {left right : Row} (leftMember : left ∈ table.rows)
    (rightMember : right ∈ table.rows) (same : left.id = right.id) : left = right :=
  List.inj_on_of_nodup_map ordered.nodup_ids leftMember rightMember same

theorem find?_eq_some_iff {id : Int} {row : Row} :
    table.find? id = some row ↔ row ∈ table.rows ∧ row.id = id := by
  constructor
  · intro found
    exact ⟨mem_of_find? found, id_of_find? found⟩
  · rintro ⟨member, same⟩
    cases found : table.find? id with
    | none => exact absurd same (find?_eq_none_iff.mp found row member)
    | some other =>
        rw [ordered.eq_of_id_eq (mem_of_find? found) member
          ((id_of_find? found).trans same.symm)]

theorem find?_of_mem {row : Row} (member : row ∈ table.rows) : table.find? row.id = some row :=
  ordered.find?_eq_some_iff.mpr ⟨member, rfl⟩

end Ordered

namespace Consistent

variable {table : Table} (consistent : table.Consistent)

include consistent

theorem eq_of_id_eq {left right : Row} (leftMember : left ∈ table.rows)
    (rightMember : right ∈ table.rows) (same : left.id = right.id) : left = right :=
  consistent.ordered.eq_of_id_eq leftMember rightMember same

theorem find?_of_mem {row : Row} (member : row ∈ table.rows) : table.find? row.id = some row :=
  consistent.ordered.find?_of_mem member

theorem clash_eq_false {left right : Row} (leftMember : left ∈ table.rows)
    (rightMember : right ∈ table.rows) (different : left.id ≠ right.id) :
    clash left right = false :=
  consistent.compatible.forall leftMember rightMember fun same =>
    different (congrArg Row.id same)

theorem eq_of_pending {left right : Row} {key : String} (leftMember : left ∈ table.rows)
    (rightMember : right ∈ table.rows) (leftPending : left.state = .pending)
    (rightPending : right.state = .pending) (leftKey : left.debounceKey = .text key)
    (rightKey : right.debounceKey = .text key) : left = right := by
  apply consistent.eq_of_id_eq leftMember rightMember
  by_contra different
  have clashing : clash left right = true :=
    clash_eq_true_iff.mpr
      ⟨leftPending, rightPending, by simp [leftKey], leftKey.trans rightKey.symm⟩
  simp [consistent.clash_eq_false leftMember rightMember different] at clashing

theorem lastId_eq_mark : table.lastId = table.mark := by
  have bounded : ∀ (rows : List Row), (∀ row ∈ rows, row.id ≤ table.mark) →
      rows.foldl (fun largest row => max largest row.id) table.mark = table.mark := by
    intro rows
    induction rows with
    | nil => intro _; rfl
    | cons row rest ih =>
        intro below
        rw [List.foldl_cons, Int.max_eq_left (below row List.mem_cons_self)]
        exact ih fun other member => below other (List.mem_cons_of_mem _ member)
  exact bounded table.rows consistent.marked

end Consistent

/-! ### Edits -/

theorem mem_put {table : Table} {row other : Row} :
    other ∈ (table.put row).rows ↔
      (other = row ∧ ∃ old ∈ table.rows, old.id = row.id) ∨
        (other ∈ table.rows ∧ other.id ≠ row.id) := by
  simp only [put, List.mem_map]
  constructor
  · rintro ⟨old, member, rfl⟩
    by_cases same : old.id = row.id
    · exact .inl ⟨if_pos same, old, member, same⟩
    · rw [if_neg same]
      exact .inr ⟨member, same⟩
  · rintro (⟨rfl, old, member, same⟩ | ⟨member, different⟩)
    · exact ⟨old, member, if_pos same⟩
    · exact ⟨other, member, if_neg different⟩

@[simp] theorem mem_erase {table : Table} {id : Int} {row : Row} :
    row ∈ (table.erase id).rows ↔ row ∈ table.rows ∧ row.id ≠ id := by
  simp [erase]

@[simp] theorem mem_append {table : Table} {row other : Row} :
    other ∈ (table.append row).rows ↔ other ∈ table.rows ∨ other = row := by
  simp [append]

theorem find?_put (table : Table) (row : Row) (id : Int) :
    (table.put row).find? id =
      if id = row.id then (table.find? id).map fun _ => row else table.find? id := by
  simp only [find?, put]
  induction table.rows with
  | nil => simp
  | cons other rest ih =>
      by_cases same : other.id = row.id <;> by_cases here : id = row.id <;>
        by_cases reached : other.id = id <;> simp_all

theorem find?_erase (table : Table) (erased id : Int) :
    (table.erase erased).find? id = if id = erased then none else table.find? id := by
  simp only [find?, erase, List.find?_filter]
  split
  · next same =>
      rw [List.find?_eq_none]
      intro row _
      simp [same]
  · next different =>
      congr 1
      funext row
      by_cases reached : row.id = id <;> simp_all

theorem find?_append {table : Table} {row : Row} (id : Int)
    (fresh : table.find? row.id = none) :
    (table.append row).find? id = if id = row.id then some row else table.find? id := by
  simp only [find?, append, List.find?_append] at fresh ⊢
  split
  · next same => rw [same, fresh]; simp
  · next different => simp [Ne.symm different]

theorem Ordered.put {table : Table} (ordered : table.Ordered) (row : Row) :
    (table.put row).Ordered := by
  rw [Ordered, Table.put, List.pairwise_map]
  exact List.Pairwise.imp (fun {left right} less => by split <;> split <;> simp_all) ordered

theorem Ordered.erase {table : Table} (ordered : table.Ordered) (id : Int) :
    (table.erase id).Ordered :=
  List.Pairwise.filter _ ordered

theorem Consistent.put {table : Table} (consistent : table.Consistent) {row : Row}
    (keyed : ∃ key : Option String, row.debounceKey = .ofText? key)
    (apart : ∀ other ∈ table.rows, other.id ≠ row.id → clash row other = false) :
    (table.put row).Consistent where
  sorted := consistent.ordered.put row
  compatible := by
    have both := consistent.sorted.and consistent.compatible
    rw [Table.put, List.pairwise_map]
    refine both.imp_of_mem fun {left right} leftMember rightMember facts => ?_
    by_cases leftHere : left.id = row.id <;> by_cases rightHere : right.id = row.id
    · exact absurd (leftHere.trans rightHere.symm) (Int.ne_of_lt facts.1)
    · rw [if_pos leftHere, if_neg rightHere]
      exact apart right rightMember rightHere
    · rw [if_neg leftHere, if_pos rightHere, clash_comm]
      exact apart left leftMember leftHere
    · rw [if_neg leftHere, if_neg rightHere]
      exact facts.2
  marked := by
    intro other member
    rcases mem_put.mp member with ⟨rfl, old, oldMember, same⟩ | ⟨member, _⟩
    · exact same ▸ consistent.marked old oldMember
    · exact consistent.marked other member
  keyed := by
    intro other member
    rcases mem_put.mp member with ⟨rfl, _⟩ | ⟨member, _⟩
    · exact keyed
    · exact consistent.keyed other member
  unguarded := consistent.unguarded

theorem Consistent.erase {table : Table} (consistent : table.Consistent) (id : Int) :
    (table.erase id).Consistent where
  sorted := consistent.ordered.erase id
  compatible := consistent.compatible.filter _
  marked := fun row member => consistent.marked row (mem_erase.mp member).1
  keyed := fun row member => consistent.keyed row (mem_erase.mp member).1
  unguarded := consistent.unguarded

theorem Consistent.append {table : Table} (consistent : table.Consistent) {row : Row}
    (above : table.mark < row.id) (keyed : ∃ key : Option String, row.debounceKey = .ofText? key)
    (apart : ∀ other ∈ table.rows, clash row other = false) : (table.append row).Consistent where
  sorted := by
    rw [Table.append, List.pairwise_append]
    refine ⟨consistent.sorted, List.pairwise_singleton _ _, ?_⟩
    intro other member last lastMember
    rw [List.mem_singleton.mp lastMember]
    exact Int.lt_of_le_of_lt (consistent.marked other member) above
  compatible := by
    rw [Table.append, List.pairwise_append]
    refine ⟨consistent.compatible, List.pairwise_singleton _ _, ?_⟩
    intro other member last lastMember
    rw [List.mem_singleton.mp lastMember, clash_comm]
    exact apart other member
  marked := by
    intro other member
    rcases mem_append.mp member with old | rfl
    · exact Int.le_of_lt (Int.lt_of_le_of_lt (consistent.marked other old) above)
    · exact Int.le_refl _
  keyed := by
    intro other member
    rcases mem_append.mp member with old | rfl
    · exact consistent.keyed other old
    · exact keyed
  unguarded := consistent.unguarded

/-! ### Statements -/

theorem insertRow_eq_append {rows : List Row} {row : Row}
    (below : ∀ other ∈ rows, other.id < row.id) : insertRow row rows = rows ++ [row] := by
  induction rows with
  | nil => rfl
  | cons other rest ih =>
      have notBefore : ¬ row.id < other.id := Int.not_lt.mpr (Int.le_of_lt (below other (by simp)))
      rw [insertRow, if_neg notBefore, ih fun later member => below later (by simp [member])]
      rfl

theorem insertRow_of_forall_lt {rows : List Row} {row : Row}
    (above : ∀ other ∈ rows, row.id < other.id) : insertRow row rows = row :: rows := by
  cases rows with
  | nil => rfl
  | cons other rest => rw [insertRow, if_pos (above other (by simp))]

/-- Taking a row out and inserting another one with its id puts the other one in its place. -/
theorem insertRow_filter_eq_map {rows : List Row} {row : Row}
    (sorted : rows.Pairwise fun left right => left.id < right.id)
    (present : ∃ old ∈ rows, old.id = row.id) :
    insertRow row (rows.filter fun other => other.id != row.id) =
      rows.map fun other => if other.id = row.id then row else other := by
  induction rows with
  | nil => simp at present
  | cons other rest ih =>
      obtain ⟨least, restSorted⟩ := List.pairwise_cons.mp sorted
      by_cases here : other.id = row.id
      · have above : ∀ later ∈ rest, row.id < later.id := fun later member =>
          here ▸ least later member
        have kept : rest.filter (fun later => later.id != row.id) = rest := by
          rw [List.filter_eq_self]
          intro later member
          simpa using Int.ne_of_gt (above later member)
        have unchanged : rest.map (fun later => if later.id = row.id then row else later) =
            rest := by
          rw [List.map_congr_left fun later member => if_neg (Int.ne_of_gt (above later member)),
            List.map_id']
        rw [List.filter_cons_of_neg (by simp [here]), kept, List.map_cons, if_pos here, unchanged,
          insertRow_of_forall_lt above]
      · obtain ⟨old, member, same⟩ := present
        have oldMember : old ∈ rest := by
          rcases List.mem_cons.mp member with rfl | later
          · exact absurd same here
          · exact later
        have notBefore : ¬ row.id < other.id :=
          Int.not_lt.mpr (Int.le_of_lt (same ▸ least old oldMember))
        rw [List.filter_cons_of_pos (by simp [here]), insertRow, if_neg notBefore, List.map_cons,
          if_neg here, ih restSorted ⟨old, oldMember, same⟩]

/-- Putting a row in the place of the one with its id keeps to the rules if it clashes with no
other. -/
theorem Ordered.change_eq_put {table : Table} (ordered : table.Ordered) {id : Int} {row : Row}
    (found : table.find? id = some row) (edit : Row → Row) (sameId : (edit row).id = row.id)
    (apart : ∀ other ∈ table.rows, other.id ≠ row.id → clash (edit row) other = false) :
    table.change id edit = (.ok (some (edit row)), table.put (edit row)) := by
  have here : row.id = id := id_of_find? found
  have noClash : (table.rows.filter fun other => other.id != id).any (clash (edit row)) = false := by
    rw [List.any_eq_false]
    intro other member
    obtain ⟨otherMember, different⟩ := List.mem_filter.mp member
    simp [apart other otherMember (by simpa [here] using different)]
  have present : ∃ old ∈ table.rows, old.id = (edit row).id :=
    ⟨row, mem_of_find? found, sameId.symm⟩
  have placed := insertRow_filter_eq_map ordered present
  rw [sameId, here] at placed
  simp [change, found, replace, noClash, placed, Table.put, sameId, here]

namespace Consistent

variable {table : Table} (consistent : table.Consistent)

include consistent

theorem insert_eq_append {row : Row} (above : table.mark < row.id)
    (apart : ∀ other ∈ table.rows, clash row other = false) :
    table.insert row = .ok (table.append row) := by
  have below : ∀ other ∈ table.rows, other.id < row.id := fun other member =>
    Int.lt_of_le_of_lt (consistent.marked other member) above
  have newId : (table.rows.any fun other => other.id == row.id) = false := by
    rw [List.any_eq_false]
    intro other member
    simpa using Int.ne_of_lt (below other member)
  have noClash : table.rows.any (clash row) = false := by
    rw [List.any_eq_false]
    intro other member
    simp [apart other member]
  simp [insert, newId, noClash, insertRow_eq_append below, Table.append,
    Int.max_eq_right (Int.le_of_lt above)]

theorem change_eq_put {id : Int} {row : Row} (found : table.find? id = some row)
    (edit : Row → Row) (sameId : (edit row).id = row.id)
    (apart : ∀ other ∈ table.rows, other.id ≠ row.id → clash (edit row) other = false) :
    table.change id edit = (.ok (some (edit row)), table.put (edit row)) :=
  consistent.ordered.change_eq_put found edit sameId apart

theorem delete_eq_erase {id : Int} {row : Row} (found : table.find? id = some row) :
    table.delete id = (.ok (some row), table.erase id) := by
  simp [delete, found, consistent.unguarded, Table.erase]

end Consistent

end Table

end DurableJobs.Store
