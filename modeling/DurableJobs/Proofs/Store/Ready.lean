import DurableJobs.Proofs.Store.Cells
import DurableJobs.Proofs.Store.Edits
import DurableJobs.Proofs.Store.Reading

/-!
The ready records of a table.

Pending records stand by falling priority, those of one priority by ascending id. The ready ones are
the first of those that are due and whose type is not excluded: each comes ahead of all that it
precedes, and when one of them is among the first, so are all ready ones that precede it.
-/

set_option autoImplicit false

namespace DurableJobs

/-- The record is to be started first: it is more urgent, or as urgent and older. -/
def Record.Precedes (first second : Record) : Prop :=
  second.priority.number < first.priority.number ∨
    (second.priority.number = first.priority.number ∧ first.id < second.id)

theorem Record.Precedes.asymm {first second : Record} (precedes : first.Precedes second) :
    ¬ second.Precedes first := by
  rcases precedes with less | ⟨same, older⟩ <;> rintro (greater | ⟨_, younger⟩) <;> omega

namespace Store

/-- Of two different members of a list one comes first. -/
theorem sublist_or_sublist_of_mem {Item : Type} {items : List Item} {left right : Item}
    (leftMember : left ∈ items) (rightMember : right ∈ items) (different : left ≠ right) :
    [left, right].Sublist items ∨ [right, left].Sublist items := by
  obtain ⟨before, behind, rfl⟩ := List.append_of_mem leftMember
  rcases List.mem_append.mp rightMember with isBefore | isBehind
  · exact .inr ((List.singleton_sublist.mpr isBefore).append
      (List.singleton_sublist.mpr List.mem_cons_self))
  · rcases List.mem_cons.mp isBehind with same | later
    · exact absurd same.symm different
    · exact .inl (((List.singleton_sublist.mpr later).cons_cons left).trans
        (List.sublist_append_right before _))

theorem not_sublist_swap {Item : Type} {items : List Item} {left right : Item}
    (distinct : items.Nodup) (forward : [left, right].Sublist items) :
    ¬ [right, left].Sublist items := by
  intro backward
  induction items with
  | nil => cases forward
  | cons first rest ih =>
      obtain ⟨fresh, restDistinct⟩ := List.nodup_cons.mp distinct
      cases forward with
      | cons _ forward =>
          cases backward with
          | cons _ backward => exact ih restDistinct forward backward
          | cons_cons _ _ => exact fresh (forward.mem (by simp))
      | cons_cons _ rightLater =>
          cases backward with
          | cons _ backward => exact fresh (backward.mem (by simp))
          | cons_cons _ leftLater => exact fresh (leftLater.mem (by simp))

namespace Row

/-- The row comes first among the pending ones. -/
def Precedes (first second : Row) : Prop :=
  second.priority.compare first.priority = .lt ∨
    (second.priority.compare first.priority = .eq ∧ first.id < second.id)

theorem Precedes.asymm {first second : Row} (precedes : first.Precedes second) :
    ¬ second.Precedes first := by
  have swap : first.priority.compare second.priority =
      (second.priority.compare first.priority).swap := Std.OrientedCmp.eq_swap
  rintro (less | ⟨same, older⟩) <;> rcases precedes with first | ⟨first, younger⟩ <;>
    simp_all [Ordering.swap]
  omega

theorem precedes_iff {first second : Row} {left right : Record}
    (isLeft : first.record = .ok left) (isRight : second.record = .ok right) :
    first.Precedes second ↔ left.Precedes right := by
  have leftHolds := holds_of_record isLeft
  have rightHolds := holds_of_record isRight
  rw [Precedes, Record.Precedes, leftHolds.priority, rightHolds.priority, leftHolds.id,
    rightHolds.id, Cell.compare, Std.compare_eq_lt, Std.compare_eq_iff_eq]
  omega

end Row

theorem pairwise_of_mapM {rows : List Row} {records : List Record}
    (read : rows.mapM Row.record = .ok records) (sorted : rows.Pairwise Row.Precedes) :
    records.Pairwise Record.Precedes := by
  induction rows generalizing records with
  | nil =>
      obtain rfl := Except.ok.inj read
      exact .nil
  | cons row rest ih =>
      obtain ⟨first, restSorted⟩ := List.pairwise_cons.mp sorted
      rw [List.mapM_cons] at read
      obtain ⟨record, isRecord, read⟩ := bind_eq_ok read
      obtain ⟨others, areOthers, read⟩ := bind_eq_ok read
      obtain rfl := Except.ok.inj read
      refine List.pairwise_cons.mpr ⟨fun other member => ?_, ih areOthers restSorted⟩
      obtain ⟨later, laterMember, isOther⟩ := row_of_mem_mapM areOthers member
      exact (Row.precedes_iff isRecord isOther).mp (first later laterMember)

namespace JobFilter

/-- What the rows of the filter are listed by, the largest first. -/
def rank (filter : JobFilter) (row : Row) : Cell :=
  match filter with
  | .pending => row.priority
  | .failed => row.updatedAt
  | _ => .null

/-- The row comes first among those of the filter; of two with one rank it is the older one. -/
def Precedes (filter : JobFilter) (first second : Row) : Prop :=
  (filter.rank second).compare (filter.rank first) = .lt ∨
    ((filter.rank second).compare (filter.rank first) = .eq ∧ first.id < second.id)

theorem isBefore_eq_isLE (filter : JobFilter) (first second : Row) :
    filter.isBefore first second = ((filter.rank second).compare (filter.rank first)).isLE := by
  have same : ∀ order : Ordering, (order != .gt) = order.isLE := by
    rintro (_ | _ | _) <;> rfl
  cases filter with
  | pending => exact same _
  | failed => exact same _
  | _ => rfl

theorem isBefore_trans {filter : JobFilter} (first second third : Row)
    (one : filter.isBefore first second = true) (two : filter.isBefore second third = true) :
    filter.isBefore first third = true := by
  rw [isBefore_eq_isLE] at one two ⊢
  exact Std.TransCmp.isLE_trans two one

theorem isBefore_total {filter : JobFilter} (first second : Row) :
    (filter.isBefore first second || filter.isBefore second first) = true := by
  have swap : (filter.rank first).compare (filter.rank second) =
      ((filter.rank second).compare (filter.rank first)).swap := Std.OrientedCmp.eq_swap
  rw [isBefore_eq_isLE, isBefore_eq_isLE, swap]
  cases (filter.rank second).compare (filter.rank first) <;> rfl

end JobFilter

namespace Table

/-- The record is pending, due and of a type that is not excluded. -/
def IsReady (table : Table) (now : Instant) (excluded : List String) (record : Record) : Prop :=
  ∃ row, table.find? record.id = some row ∧ row.state = .pending ∧ row.record = .ok record ∧
    isDue now excluded row = true

theorem admitted_perm (table : Table) (filter : JobFilter) :
    (table.admitted filter).Perm (table.rows.filter filter.admits) :=
  List.mergeSort_perm _ _

theorem mem_admitted_pending {table : Table} {row : Row} :
    row ∈ table.admitted .pending ↔ row ∈ table.rows ∧ row.state = .pending := by
  rw [(table.admitted_perm .pending).mem_iff, List.mem_filter]
  simp [JobFilter.admits]

section Ready

variable {table : Table} {now : Instant} {limit : Nat} {excluded : List String}
  {records : List Record}

/-- Rows of one rank keep the order of their ids when they are sorted by rank. -/
theorem Ordered.pairwise_admitted (ordered : table.Ordered) (filter : JobFilter) :
    (table.admitted filter).Pairwise filter.Precedes := by
  have ascending := List.Pairwise.filter filter.admits ordered
  have sorted : (table.admitted filter).Pairwise fun first second =>
      filter.isBefore first second = true :=
    List.pairwise_mergeSort JobFilter.isBefore_trans JobFilter.isBefore_total _
  have permuted := table.admitted_perm filter
  have distinct : (table.admitted filter).Nodup :=
    permuted.nodup_iff.mpr (ordered.nodup_ids.of_map.filter _)
  rw [List.pairwise_iff_forall_sublist]
  intro first second listed
  have before := List.pairwise_iff_forall_sublist.mp sorted listed
  rw [JobFilter.isBefore_eq_isLE] at before
  have swap : (filter.rank first).compare (filter.rank second) =
      ((filter.rank second).compare (filter.rank first)).swap := Std.OrientedCmp.eq_swap
  cases order : (filter.rank second).compare (filter.rank first) with
  | lt => exact .inl order
  | gt => simp [order] at before
  | eq =>
      refine .inr ⟨order, ?_⟩
      have firstMember := permuted.mem_iff.mp (listed.mem List.mem_cons_self)
      have secondMember := permuted.mem_iff.mp
        (listed.mem (List.mem_cons_of_mem first List.mem_cons_self))
      have different : first ≠ second := by
        rintro rfl
        exact not_sublist_swap distinct listed listed
      rcases sublist_or_sublist_of_mem firstMember secondMember different with kept | swapped
      · exact List.pairwise_iff_forall_sublist.mp ascending kept
      · -- Sorting is stable, so the two would stand the other way round.
        have same : filter.isBefore second first = true := by
          simp [JobFilter.isBefore_eq_isLE, swap, order]
        exact absurd (List.pair_sublist_mergeSort JobFilter.isBefore_trans
          JobFilter.isBefore_total same swapped) (not_sublist_swap distinct listed)

theorem Ordered.ready_spec (ordered : table.Ordered)
    (read : table.ready now limit excluded = .ok records) :
    records.Pairwise Record.Precedes ∧ (records.map Record.id).Nodup ∧
      ∀ record ∈ records, table.IsReady now excluded record := by
  have listed : (((table.admitted .pending).filter (isDue now excluded)).take
      (rowLimit limit)).Sublist ((table.admitted .pending).filter (isDue now excluded)) :=
    List.take_sublist _ _
  have rowOf : ∀ row ∈ (table.admitted .pending).filter (isDue now excluded),
      row ∈ table.rows ∧ row.state = .pending ∧ isDue now excluded row = true := by
    intro row member
    obtain ⟨admitted, due⟩ := List.mem_filter.mp member
    obtain ⟨isRow, pending⟩ := mem_admitted_pending.mp admitted
    exact ⟨isRow, pending, due⟩
  refine ⟨?_, ?_, ?_⟩
  · exact pairwise_of_mapM read
      (((ordered.pairwise_admitted .pending).filter (isDue now excluded)).sublist listed)
  · rw [ids_of_mapM read]
    have distinct : ((table.admitted .pending).map Row.id).Nodup :=
      ((table.admitted_perm .pending).map Row.id).nodup_iff.mpr
        (ordered.nodup_ids.sublist (List.filter_sublist.map Row.id))
    exact distinct.sublist ((listed.trans List.filter_sublist).map Row.id)
  · intro record member
    obtain ⟨row, rowMember, isRecord⟩ := row_of_mem_mapM read member
    obtain ⟨isRow, pending, due⟩ := rowOf row (listed.mem rowMember)
    refine ⟨row, ?_, pending, isRecord, due⟩
    rw [← (Row.holds_of_record isRecord).id]
    exact ordered.find?_of_mem isRow

/-- A ready record that precedes one of the first is among the first, ahead of it. -/
theorem Ordered.sublist_of_precedes (ordered : table.Ordered)
    (read : table.ready now limit excluded = .ok records) {earlier later : Record}
    (isReady : table.IsReady now excluded earlier) (member : later ∈ records)
    (precedes : earlier.Precedes later) : [earlier, later].Sublist records := by
  have sorted := (ordered.pairwise_admitted .pending).filter (isDue now excluded)
  obtain ⟨row, found, pending, isEarlier, due⟩ := isReady
  obtain ⟨other, otherMember, isLater⟩ := row_of_mem_mapM read member
  have listed : row ∈ (table.admitted .pending).filter (isDue now excluded) :=
    List.mem_filter.mpr ⟨mem_admitted_pending.mpr ⟨mem_of_find? found, pending⟩, due⟩
  have rowPrecedes : row.Precedes other := (Row.precedes_iff isEarlier isLater).mpr precedes
  -- Were it not among the first, all of these would precede it.
  have isFirst : row ∈ ((table.admitted .pending).filter (isDue now excluded)).take
      (rowLimit limit) := by
    rw [← List.take_append_drop (rowLimit limit)
      ((table.admitted .pending).filter (isDue now excluded))] at sorted listed
    rcases List.mem_append.mp listed with first | left
    · exact first
    · exact absurd ((List.pairwise_append.mp sorted).2.2 other otherMember row left)
        rowPrecedes.asymm
  obtain ⟨record, recordMember, isRecord⟩ := record_of_mem_mapM read isFirst
  obtain rfl := Except.ok.inj (isRecord.symm.trans isEarlier)
  have different : record ≠ later := by
    rintro rfl
    exact Record.Precedes.asymm precedes precedes
  rcases sublist_or_sublist_of_mem recordMember member different with forward | backward
  · exact forward
  · exact absurd (List.pairwise_iff_forall_sublist.mp (ordered.ready_spec read).1 backward)
      precedes.asymm

end Ready

end Table

end Store

end DurableJobs
