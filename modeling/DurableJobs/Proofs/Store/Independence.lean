import DurableJobs.Proofs.Store.Histories

/-!
Settlements that do not meet.

A settlement reads the row of its record and the pending row with the key of that one; it touches the
row of its record only. So two settlements of records without a common key come to the same in either
order. Two records of one key that both come back contend for it: the first one settled holds it, and
the other one gives way.
-/

set_option autoImplicit false

namespace DurableJobs

theorem Backoff.delayFor_of_steady {backoff : Backoff}
    (steady : ∀ failures, backoff.isDrawn failures = false) (failures draw other : Nat) :
    backoff.delayFor failures draw = backoff.delayFor failures other := by
  simp only [delayFor, steady, Bool.false_eq_true, if_false]

namespace Store

theorem Verdict.of_steady {policy : RetryPolicy}
    (steady : ∀ failures, policy.backoff.isDrawn failures = false) (record : Record)
    (result : Except JobError Outcome) (draw other : Nat) (now : Instant) :
    Verdict.of record result policy draw now = Verdict.of record result policy other now := by
  simp only [Verdict.of, Backoff.delayFor_of_steady steady record.nextFailures draw other]

/-! ### Edits of one row -/

inductive RowEdit where
  | keep
  | put (row : Row)
  | erase (id : Int)

namespace RowEdit

def apply (table : Table) : RowEdit → Table
  | .keep => table
  | .put row => table.put row
  | .erase id => table.erase id

/-- The edit touches no row but that with the id. -/
def Touches (id : Int) : RowEdit → Prop
  | .keep => True
  | .put row => row.id = id
  | .erase other => other = id

theorem put_put_comm (table : Table) {first second : Row} (different : first.id ≠ second.id) :
    (table.put first).put second = (table.put second).put first := by
  simp only [Table.put, List.map_map]
  congr 2
  funext other
  by_cases isFirst : other.id = first.id
  · simp [isFirst, different]
  · by_cases isSecond : other.id = second.id
    · simp [isSecond, Ne.symm different]
    · simp [isFirst, isSecond]

theorem erase_put_comm (table : Table) (row : Row) (id : Int) :
    (table.put row).erase id = (table.erase id).put row := by
  simp only [Table.put, Table.erase, List.filter_map]
  congr 2
  refine List.filter_congr fun other _ => ?_
  by_cases here : other.id = row.id <;> simp [here]

theorem erase_erase_comm (table : Table) (first second : Int) :
    (table.erase first).erase second = (table.erase second).erase first := by
  simp only [Table.erase, List.filter_filter, Bool.and_comm]

/-- Edits of different rows come to the same in either order. -/
theorem apply_comm {first second : RowEdit} {left right : Int} (touchesLeft : first.Touches left)
    (touchesRight : second.Touches right) (different : left ≠ right) (table : Table) :
    second.apply (first.apply table) = first.apply (second.apply table) := by
  cases first with
  | keep => rfl
  | put row =>
      obtain rfl : row.id = left := touchesLeft
      cases second with
      | keep => rfl
      | put other =>
          obtain rfl : other.id = right := touchesRight
          exact put_put_comm table different
      | erase id => exact erase_put_comm table row id
  | erase id =>
      cases second with
      | keep => rfl
      | put row => exact (erase_put_comm table row id).symm
      | erase other => exact erase_erase_comm table id other

theorem find?_apply {edit : RowEdit} {touched : Int} (touches : edit.Touches touched) {id : Int}
    (different : id ≠ touched) (table : Table) :
    (edit.apply table).find? id = table.find? id := by
  cases edit with
  | keep => rfl
  | put row =>
      obtain rfl : row.id = touched := touches
      exact (Table.find?_put table row id).trans (if_neg different)
  | erase erased =>
      obtain rfl : erased = touched := touches
      exact (Table.find?_erase table erased id).trans (if_neg different)

end RowEdit

/-! ### Settlements as edits -/

/-- What comes of a row with a verdict on it, if it gives way to the survivor when it comes back. -/
def Verdict.carryOut (verdict : Verdict) (row : Row) (survivor? : Option Row) (now : Instant) :
    Settlement × RowEdit :=
  match verdict, survivor? with
  | .remove, _ => (.completed, .erase row.id)
  | .giveUp failure, _ =>
      (.deadLettered failure.error, .put (row.fail failure.failures failure.error now))
  | .comeBack _ _, some survivor => (.superseded survivor.id, .erase row.id)
  | .comeBack notBefore failure, none =>
      ( .retrying notBefore (failure.map Failure.error),
        .put (row.comeBack notBefore failure now) )

theorem Verdict.touches_carryOut (verdict : Verdict) (row : Row) (survivor? : Option Row)
    (now : Instant) : (verdict.carryOut row survivor? now).2.Touches row.id := by
  cases verdict with
  | remove => rfl
  | giveUp failure => rfl
  | comeBack notBefore failure =>
      cases survivor? with
      | none => exact Row.id_comeBack row notBefore failure now
      | some survivor => rfl

namespace Table

/-- What comes of a row of the table with a verdict on it. -/
def resolve (table : Table) (verdict : Verdict) (row : Row) (now : Instant) :
    Settlement × RowEdit :=
  verdict.carryOut row (table.survivor? row) now

theorem touches_resolve (table : Table) (verdict : Verdict) (row : Row) (now : Instant) :
    (table.resolve verdict row now).2.Touches row.id :=
  verdict.touches_carryOut row _ now

/-- A settlement rests on the row of its record and on the one that the row gives way to. -/
theorem Consistent.settle_eq_resolve {table : Table} (consistent : table.Consistent)
    {record : Record} {row : Row} (found : table.find? record.id = some row)
    (result : Except JobError Outcome) (policy : RetryPolicy) (draw : Nat) (now : Instant) :
    table.settle record result policy draw now =
      (.ok (table.resolve (Verdict.of record result policy draw now) row now).1,
        (table.resolve (Verdict.of record result policy draw now) row now).2.apply table) := by
  have here := id_of_find? found
  rcases consistent.settle_cases record result policy draw now with
    ⟨missing, _⟩ | ⟨other, otherFound, answer⟩
  · cases found.symm.trans missing
  · obtain rfl := Option.some.inj (found.symm.trans otherFound)
    cases verdict : Verdict.of record result policy draw now with
    | remove => simpa only [verdict, resolve, Verdict.carryOut, RowEdit.apply, here] using answer
    | giveUp failure => simpa only [verdict, resolve, Verdict.carryOut, RowEdit.apply] using answer
    | comeBack notBefore failure =>
        cases held : table.survivor? row with
        | none => simpa only [verdict, held, resolve, Verdict.carryOut, RowEdit.apply] using answer
        | some survivor =>
            simpa only [verdict, held, resolve, Verdict.carryOut, RowEdit.apply, here] using answer

theorem Consistent.survivor?_eq_some_iff {table : Table} (consistent : table.Consistent)
    {row survivor : Row} :
    table.survivor? row = some survivor ↔
      ∃ key, row.debounceKey = .text key ∧ survivor ∈ table.rows ∧ survivor.state = .pending ∧
        survivor.debounceKey = .text key ∧ survivor.id ≠ row.id := by
  constructor
  · exact of_survivor?
  · rintro ⟨key, isKey, member, pending, sameKey, different⟩
    cases held : table.survivor? row with
    | none =>
        exact absurd sameKey (survivor?_eq_none_iff.mp held survivor member pending different key isKey)
    | some other =>
        obtain ⟨_, otherKey, otherMember, otherPending, otherSame, _⟩ := of_survivor? held
        obtain rfl := Cell.text.inj (isKey.symm.trans otherKey)
        rw [consistent.eq_of_pending otherMember member otherPending pending otherSame sameKey]

/-- Two tables with the same rows of a key have the same row for one of that key to give way to. -/
theorem Consistent.survivor?_congr {table after : Table} (consistent : table.Consistent)
    (later : after.Consistent) {row : Row}
    (same : ∀ key, row.debounceKey = .text key → ∀ other : Row, other.debounceKey = .text key →
      (other ∈ after.rows ↔ other ∈ table.rows)) :
    after.survivor? row = table.survivor? row := by
  refine Option.ext fun survivor => ?_
  rw [later.survivor?_eq_some_iff, consistent.survivor?_eq_some_iff]
  refine exists_congr fun key => and_congr_right fun isKey => ?_
  constructor
  · rintro ⟨member, pending, sameKey, different⟩
    exact ⟨(same key isKey survivor sameKey).mp member, pending, sameKey, different⟩
  · rintro ⟨member, pending, sameKey, different⟩
    exact ⟨(same key isKey survivor sameKey).mpr member, pending, sameKey, different⟩

theorem Consistent.mem_put_of_key {table : Table} (consistent : table.Consistent)
    {row other : Row} (edited : Row) (member : row ∈ table.rows) (sameId : edited.id = row.id)
    (sameKey : edited.debounceKey = row.debounceKey)
    (different : other.debounceKey ≠ row.debounceKey) :
    other ∈ (table.put edited).rows ↔ other ∈ table.rows := by
  rw [mem_put]
  constructor
  · rintro (⟨rfl, _⟩ | ⟨isRow, _⟩)
    · exact absurd sameKey different
    · exact isRow
  · intro isRow
    refine .inr ⟨isRow, fun here => different ?_⟩
    rw [consistent.eq_of_id_eq isRow member (here.trans sameId)]

theorem Consistent.mem_erase_of_key {table : Table} (consistent : table.Consistent)
    {row other : Row} (member : row ∈ table.rows)
    (different : other.debounceKey ≠ row.debounceKey) :
    other ∈ (table.erase row.id).rows ↔ other ∈ table.rows := by
  rw [mem_erase]
  constructor
  · rintro ⟨isRow, _⟩
    exact isRow
  · intro isRow
    refine ⟨isRow, fun here => different ?_⟩
    rw [consistent.eq_of_id_eq isRow member here]

/-- A settlement leaves the rows with other keys alone. -/
theorem Consistent.mem_resolve_of_key {table : Table} (consistent : table.Consistent)
    {row other : Row} (member : row ∈ table.rows)
    (different : other.debounceKey ≠ row.debounceKey) (verdict : Verdict) (now : Instant) :
    other ∈ ((table.resolve verdict row now).2.apply table).rows ↔ other ∈ table.rows := by
  rw [resolve]
  cases verdict with
  | remove => exact consistent.mem_erase_of_key member different
  | giveUp failure =>
      exact consistent.mem_put_of_key (row.fail failure.failures failure.error now)
        member rfl rfl different
  | comeBack notBefore failure =>
      cases table.survivor? row with
      | some survivor => exact consistent.mem_erase_of_key member different
      | none =>
          exact consistent.mem_put_of_key (row.comeBack notBefore failure now) member
            (by simp) (by simp) different

section Settlements

variable {table : Table} {first second : Record} {left right : Row} {policy : RetryPolicy}

/-- After the settlement of an unrelated record, a settlement comes to what it comes to without. -/
theorem Consistent.settle_after (consistent : table.Consistent) (policy : RetryPolicy)
    (isFirst : table.find? first.id = some left) (isSecond : table.find? second.id = some right)
    (distinct : first.id ≠ second.id)
    (apart : left.debounceKey = .null ∨ left.debounceKey ≠ right.debounceKey)
    (firstResult secondResult : Except JobError Outcome) (draw other : Nat) (now later : Instant) :
    let edit := (table.resolve (Verdict.of first firstResult policy draw now) left now).2
    let resolved := table.resolve (Verdict.of second secondResult policy other later) right later
    (edit.apply table).settle second secondResult policy other later =
      (.ok resolved.1, resolved.2.apply (edit.apply table)) := by
  intro edit resolved
  have touches : edit.Touches first.id :=
    id_of_find? isFirst ▸ table.touches_resolve _ left now
  have after : (edit.apply table).Consistent := by
    have reaches := consistent.settle_reaches first firstResult policy draw now
    rw [consistent.settle_eq_resolve isFirst] at reaches
    exact reaches.consistent consistent
  have found : (edit.apply table).find? second.id = some right :=
    (RowEdit.find?_apply touches (Ne.symm distinct) table).trans isSecond
  have survivor : (edit.apply table).survivor? right = table.survivor? right := by
    refine consistent.survivor?_congr after fun key isKey row sameKey => ?_
    refine consistent.mem_resolve_of_key (mem_of_find? isFirst) (fun same => ?_) _ now
    rcases apart with absent | different
    · cases sameKey.symm.trans (same.trans absent)
    · exact different (same.symm.trans (sameKey.trans isKey.symm))
  rw [after.settle_eq_resolve found, resolve, survivor]
  rfl

/-- Settlements of two records without a common key come to the same in either order. -/
theorem Reachable.settlements_commute (reachable : table.Reachable)
    (steady : ∀ failures, policy.backoff.isDrawn failures = false)
    (isFirst : table.find? first.id = some left) (isSecond : table.find? second.id = some right)
    (distinct : first.id ≠ second.id)
    (apart : left.debounceKey = .null ∨ left.debounceKey ≠ right.debounceKey)
    (firstResult secondResult : Except JobError Outcome) (draw other draw' other' : Nat)
    (now later : Instant) :
    ∃ one two middle between after,
      table.settle first firstResult policy draw now = (.ok one, middle) ∧
      middle.settle second secondResult policy other later = (.ok two, after) ∧
      table.settle second secondResult policy other' later = (.ok two, between) ∧
      between.settle first firstResult policy draw' now = (.ok one, after) := by
  have consistent := reachable.consistent
  have swapped : right.debounceKey = .null ∨ right.debounceKey ≠ left.debounceKey := by
    by_cases same : right.debounceKey = left.debounceKey
    · exact .inl (same.trans (apart.resolve_right fun different => different same.symm))
    · exact .inr same
  have firstAlone := consistent.settle_eq_resolve isFirst firstResult policy draw now
  have secondAlone := consistent.settle_eq_resolve isSecond secondResult policy other' later
  have secondLater := consistent.settle_after policy isFirst isSecond distinct apart
    firstResult secondResult draw other now later
  have firstLater := consistent.settle_after policy isSecond isFirst
    (Ne.symm distinct) swapped secondResult firstResult other' draw' later now
  rw [Verdict.of_steady steady second secondResult other' other] at secondAlone firstLater
  rw [Verdict.of_steady steady first firstResult draw' draw] at firstLater
  have differ : left.id ≠ right.id := by
    rw [id_of_find? isFirst, id_of_find? isSecond]
    exact distinct
  have same := RowEdit.apply_comm (table.touches_resolve
    (Verdict.of first firstResult policy draw now) left now) (table.touches_resolve
    (Verdict.of second secondResult policy other later) right later) differ table
  exact ⟨_, _, _, _, _, firstAlone, secondLater, secondAlone, same ▸ firstLater⟩

/-- One of two running records fails and the other is to be run again, each with its own key. -/
theorem settlements_commute_keyed :
    ∃ (table after : Table) (first second : Record) (one two : Settlement),
      table.Reachable ∧ table.runningIds = [first.id, second.id] ∧ first.id ≠ second.id ∧
      (∃ middle, table.settle first (.error (.failed "boom")) RetryPolicy.standard 0
          Instant.epoch = (.ok one, middle) ∧
        middle.settle second (.ok (.retryAfter (Duration.ofMillis 5))) RetryPolicy.standard 0
          Instant.epoch = (.ok two, after)) ∧
      ∃ middle, table.settle second (.ok (.retryAfter (Duration.ofMillis 5)))
          RetryPolicy.standard 0 Instant.epoch = (.ok two, middle) ∧
        middle.settle first (.error (.failed "boom")) RetryPolicy.standard 0 Instant.epoch =
          (.ok one, after) := by
  let keyed (key : String) : Job := (Job.new "reindex" [118] Uuid.zero).withDebounceKey key
  let stored : Table := ((empty.perform (.enqueue (keyed "k") Instant.epoch)).2.perform
    (.enqueue (keyed "m") Instant.epoch)).2
  let table : Table := ((stored.perform (.claim 1 Instant.epoch)).2.perform
    (.claim 2 Instant.epoch)).2
  let record (id : Int) (key : String) : Record :=
    { id, jobType := "reindex", payload := [118], priority := .normal, notBefore := Instant.epoch
      debounceKey := some key, sagaId := none, correlationId := Uuid.zero, state := .running
      attempts := 1, failures := 0, lastError := none, createdAt := Instant.epoch
      updatedAt := Instant.epoch }
  have reachable : table.Reachable := .perform (.perform (.perform (.perform .empty _) _) _) _
  have firstKey : (table.find? 1).map Row.debounceKey = some (.text "k") := by decide +kernel
  have secondKey : (table.find? 2).map Row.debounceKey = some (.text "m") := by decide +kernel
  obtain ⟨left, foundFirst, leftKey⟩ := Option.map_eq_some_iff.mp firstKey
  obtain ⟨right, foundSecond, rightKey⟩ := Option.map_eq_some_iff.mp secondKey
  have isFirst : table.find? (record 1 "k").id = some left := foundFirst
  have isSecond : table.find? (record 2 "m").id = some right := foundSecond
  have steady : ∀ failures, RetryPolicy.standard.backoff.isDrawn failures = false := fun _ => rfl
  have apart : left.debounceKey = .null ∨ left.debounceKey ≠ right.debounceKey := by
    rw [leftKey, rightKey]
    decide
  obtain ⟨one, two, middle, between, after, firstAlone, secondLater, secondAlone, firstLater⟩ :=
    reachable.settlements_commute steady isFirst isSecond (by decide) apart
      (.error (.failed "boom")) (.ok (.retryAfter (Duration.ofMillis 5))) 0 0 0 0 Instant.epoch
      Instant.epoch
  exact ⟨table, after, record 1 "k", record 2 "m", one, two, reachable, by decide +kernel,
    by decide, ⟨middle, firstAlone, secondLater⟩, between, secondAlone, firstLater⟩

/-- Of two records with one key that nobody pending holds, both of which come back, the first one to be
settled holds it, and the other one gives way to it. -/
theorem Consistent.second_gives_way (consistent : table.Consistent) {key : String}
    {firstResult secondResult : Except JobError Outcome} {draw other : Nat}
    {now later time delayed : Instant} {failure failure' : Option Failure}
    (isFirst : table.find? first.id = some left) (isSecond : table.find? second.id = some right)
    (distinct : first.id ≠ second.id) (leftKey : left.debounceKey = .text key)
    (rightKey : right.debounceKey = .text key) (free : table.survivor? left = none)
    (firstBack : Verdict.of first firstResult policy draw now = .comeBack time failure)
    (secondBack : Verdict.of second secondResult policy other later = .comeBack delayed failure') :
    ∃ middle,
      table.settle first firstResult policy draw now =
        (.ok (.retrying time (failure.map Failure.error)), middle) ∧
      middle.settle second secondResult policy other later =
        (.ok (.superseded first.id), middle.erase second.id) := by
  have settled := consistent.settle_eq_resolve isFirst firstResult policy draw now
  simp only [firstBack, resolve, free, Verdict.carryOut, RowEdit.apply] at settled
  have after := (consistent.settle_reaches first firstResult policy draw now).consistent consistent
  rw [settled] at after
  refine ⟨_, settled, ?_⟩
  have found : (table.put (left.comeBack time failure now)).find? second.id = some right := by
    rw [find?_put, Row.id_comeBack, id_of_find? isFirst, if_neg (Ne.symm distinct), isSecond]
  have holds : (table.put (left.comeBack time failure now)).survivor? right =
      some (left.comeBack time failure now) := by
    refine after.survivor?_eq_some_iff.mpr ⟨key, rightKey, ?_, by simp, by simp [leftKey], ?_⟩
    · exact mem_put.mpr (.inl ⟨rfl, left, mem_of_find? isFirst, by simp⟩)
    · rw [Row.id_comeBack, id_of_find? isFirst, id_of_find? isSecond]
      exact distinct
  rw [after.settle_eq_resolve found]
  simp only [secondBack, resolve, holds, Verdict.carryOut, RowEdit.apply, Row.id_comeBack,
    id_of_find? isFirst, id_of_find? isSecond]

end Settlements

end Table

end Store

end DurableJobs
