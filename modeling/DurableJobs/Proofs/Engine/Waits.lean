import DurableJobs.Proofs.Engine.Leftovers

/-!
How long the dispatcher sleeps.

After a tick the dispatcher sleeps no longer than until the earliest pending record is due. When that
one is due already, it was left for lack of a slot, and the dispatcher sleeps for the whole poll
interval. It then knows nothing of the records that are due later, so it may sleep past them.
-/

set_option autoImplicit false

namespace DurableJobs

theorem Tick.wait_le (tick : Tick) (poll : Duration) (reading : Instant) :
    tick.wait poll reading ≤ poll := by
  unfold Tick.wait
  split
  · exact Nat.zero_le _
  · split
    · exact Nat.le_refl _
    · split
      · exact Nat.le_refl _
      · exact Duration.min_le_right _ _

namespace Store

theorem isLE_smaller (first second : Cell) :
    ((Table.smaller first second).compare first).isLE = true ∧
      ((Table.smaller first second).compare second).isLE = true := by
  have swap : first.compare second = (second.compare first).swap := Std.OrientedCmp.eq_swap
  rw [Table.smaller]
  cases order : second.compare first <;>
    simp [order, swap, Std.ReflCmp.compare_self, Ordering.isLE, Ordering.swap]

theorem isLE_foldl_smaller (first : Cell) (rest : List Cell) :
    ∀ cell ∈ first :: rest, ((rest.foldl Table.smaller first).compare cell).isLE = true := by
  induction rest generalizing first with
  | nil => simp [Std.ReflCmp.compare_self]
  | cons next rest ih =>
      have least := ih (Table.smaller first next) _ List.mem_cons_self
      obtain ⟨isFirst, isNext⟩ := isLE_smaller first next
      intro cell member
      rcases List.mem_cons.mp member with rfl | member
      · exact Std.TransCmp.isLE_trans least isFirst
      · rcases List.mem_cons.mp member with rfl | later
        · exact Std.TransCmp.isLE_trans least isNext
        · exact ih _ cell (List.mem_cons_of_mem _ later)

theorem foldl_smaller_mem (first : Cell) (rest : List Cell) :
    rest.foldl Table.smaller first ∈ first :: rest := by
  induction rest generalizing first with
  | nil => exact List.mem_cons_self
  | cons next rest ih =>
      rw [List.foldl_cons]
      rcases List.mem_cons.mp (ih (Table.smaller first next)) with isSmaller | later
      · rw [isSmaller, Table.smaller]
        split <;> simp
      · exact List.mem_cons_of_mem _ (List.mem_cons_of_mem _ later)

namespace Table

/-- The earliest pending row says when the next record is due. -/
theorem nextDue_spec {table : Table} {due : Option Instant} (read : table.nextDue = .ok due)
    {row : Row} (member : row ∈ table.rows) (pending : row.state = .pending) :
    ∃ first ∈ table.rows, ∃ millis, first.state = .pending ∧ first.notBefore = .integer millis ∧
      due = Instant.ofMillis? millis ∧
      ∀ other ∈ table.rows, other.state = .pending →
        (first.notBefore.compare other.notBefore).isLE = true := by
  have isPending : ∀ other : Row, other.state.isPending = true ↔ other.state = .pending :=
    fun other => beq_iff_eq
  have listed : ∀ other ∈ table.rows, other.state = .pending →
      other.notBefore ∈ (table.rows.filter fun row => row.state.isPending).map Row.notBefore :=
    fun other isRow isOther =>
      List.mem_map_of_mem (List.mem_filter.mpr ⟨isRow, (isPending other).mpr isOther⟩)
  rw [nextDue] at read
  split at read
  · next none =>
      have absent := listed row member pending
      rw [none] at absent
      cases absent
  · next head rest cells =>
      obtain ⟨millis, isInteger, read⟩ := bind_eq_ok read
      have least := isLE_foldl_smaller head rest
      have isCell := foldl_smaller_mem head rest
      rw [Row.of_readInteger isInteger] at least isCell
      rw [← cells] at least isCell
      obtain ⟨first, isFirst, sameCell⟩ := List.mem_map.mp isCell
      obtain ⟨isRow, firstPending⟩ := List.mem_filter.mp isFirst
      refine ⟨first, isRow, millis, (isPending first).mp firstPending, sameCell,
        (Except.ok.inj read).symm, fun other isOther otherPending => ?_⟩
      rw [sameCell]
      exact least _ (listed other isOther otherPending)

/-- A row is pending and due, whether it can be read or not. -/
def IsOverdue (table : Table) (now : Instant) : Prop :=
  ∃ row ∈ table.rows, row.state = .pending ∧ isDue now [] row = true

theorem isDue_nil_iff {now : Instant} {row : Row} :
    isDue now [] row = true ↔ (row.notBefore.compare (.integer now.millis)).isLE = true := by
  rw [isDue, List.all_nil, Bool.and_true, bne_iff_ne, ne_eq, Ordering.ne_gt_iff_isLE]

section Ticks

variable {table after : Table} {registry : Registry} {lanes : Lanes} {batch : Nat} {now : Instant}
  {tick : Tick}

theorem Dispatched.nextDue_eq (dispatched : Dispatched registry lanes batch table now tick after) :
    after.nextDue = .ok tick.nextDue := by
  cases dispatched with
  | idle later looked quiet =>
      obtain ⟨records, _, looked⟩ := bind_eq_ok looked
      obtain ⟨due, isDue, looked⟩ := bind_eq_ok looked
      rw [isDue, ← Except.ok.inj looked]
      rfl
  | acted answer =>
      obtain ⟨records, isReady, isApplied⟩ := applyPicks_of_tick answer
      simp only [Table.tick, isReady, isApplied] at answer
      split at answer
      · cases answer
      · next due isDue =>
          obtain ⟨isTick, _⟩ := Prod.mk.inj answer
          rw [isDue, ← Except.ok.inj isTick]

/-- While a pending record is due, the dispatcher sleeps for the whole poll interval. -/
theorem wait_of_isOverdue (isNext : after.nextDue = .ok tick.nextDue)
    (unsaturated : tick.isSaturated = false) (regular : tick.now.isLeap = false)
    (overdue : after.IsOverdue tick.now) (poll : Duration) (reading : Instant) :
    tick.wait poll reading = poll := by
  obtain ⟨row, member, pending, isDue⟩ := overdue
  obtain ⟨first, _, millis, _, isCell, due, least⟩ := nextDue_spec isNext member pending
  have passed := Std.TransCmp.isLE_trans (least row member pending) (isDue_nil_iff.mp isDue)
  rw [isCell, Cell.compare, Std.isLE_compare] at passed
  unfold Tick.wait
  rw [unsaturated, due]
  cases isInstant : Instant.ofMillis? millis with
  | none => rfl
  | some instant =>
      have isPast := (Instant.le_iff_of_ofMillis? isInstant regular).mpr passed
      simp [isPast]

/-- While no pending record is due, the dispatcher sleeps past none of them. -/
theorem wait_le_of_not_isOverdue (isNext : after.nextDue = .ok tick.nextDue)
    (unsaturated : tick.isSaturated = false) (regular : tick.now.isLeap = false)
    (early : ¬ after.IsOverdue tick.now) {record : Record} (waiting : after.IsWaiting record)
    (poll : Duration) (reading : Instant) :
    tick.wait poll reading ≤ record.notBefore.timeLeft reading := by
  obtain ⟨row, found, pending, isRecord⟩ := waiting
  obtain ⟨stored, isStored, isInstant⟩ := (Row.holds_of_record isRecord).notBefore
  have rowCell : row.notBefore = .integer stored := isStored
  obtain ⟨first, isRow, millis, firstPending, isCell, due, least⟩ :=
    nextDue_spec isNext (mem_of_find? found) pending
  have below := least row (mem_of_find? found) pending
  rw [isCell, rowCell, Cell.compare, Std.isLE_compare] at below
  have above : tick.now.millis < millis := by
    by_contra passed
    refine early ⟨first, isRow, firstPending, isDue_nil_iff.mpr ?_⟩
    rw [isCell, Cell.compare, Std.isLE_compare]
    exact Int.not_lt.mp passed
  obtain ⟨instant, isNextInstant⟩ :=
    Instant.exists_ofMillis?_of_between isInstant (Int.le_of_lt above) below
  have future : ¬ instant ≤ tick.now := fun passed =>
    absurd ((Instant.le_iff_of_ofMillis? isNextInstant regular).mp passed) (Int.not_le.mpr above)
  have sooner : instant.timeLeft reading ≤ record.notBefore.timeLeft reading := by
    refine Instant.timeLeft_le_timeLeft ?_ reading
    rw [Instant.nanos_of_ofMillis? isNextInstant, Instant.nanos_of_ofMillis? isInstant]
    omega
  unfold Tick.wait
  rw [unsaturated, due, isNextInstant]
  simp only [Bool.false_eq_true, if_false, future]
  exact Nat.le_trans (Duration.min_le_left _ _) sooner

/-- After a tick that does not ask to be repeated, the dispatcher sleeps no longer than the poll
interval. It sleeps past no record that was not due yet when the tick looked, unless another one is
overdue after the tick: then it sleeps past each of those that are due within the poll interval. -/
theorem Dispatched.wakes_in_time_iff
    (dispatched : Dispatched registry lanes batch table now tick after)
    (unsaturated : tick.isSaturated = false) (regular : tick.now.isLeap = false) (poll : Duration)
    (reading : Instant) :
    tick.wait poll reading ≤ poll ∧
      ((∀ record, after.IsWaiting record → now < record.notBefore →
          tick.wait poll reading ≤ record.notBefore.timeLeft reading) ↔
        (after.IsOverdue tick.now → ∀ record, after.IsWaiting record → now < record.notBefore →
          poll ≤ record.notBefore.timeLeft reading)) := by
  refine ⟨tick.wait_le poll reading, ?_⟩
  by_cases overdue : after.IsOverdue tick.now
  · rw [wait_of_isOverdue dispatched.nextDue_eq unsaturated regular overdue]
    exact ⟨fun law _ => law, fun law => law overdue⟩
  · refine ⟨fun _ isOverdue => absurd isOverdue overdue, fun _ record waiting _ => ?_⟩
    exact wait_le_of_not_isOverdue dispatched.nextDue_eq unsaturated regular overdue waiting poll
      reading

end Ticks

/-- A job that is due in five milliseconds, and the row of it. -/
def delayed : Job := (Job.new "mail" [118] Uuid.zero).withDelay (Duration.ofMillis 5)

theorem notBefore_of_delayed {id : Int} {record : Record}
    (isRecord : (Row.ofJob id delayed Instant.epoch).record = .ok record) :
    record.id = id ∧ Instant.epoch < record.notBefore ∧
      record.notBefore.timeLeft Instant.epoch = Duration.ofMillis 5 := by
  have holds := Row.holds_of_record isRecord
  obtain ⟨stored, isStored, isInstant⟩ := holds.notBefore
  have cell : stored = 5 := (Cell.integer.inj isStored).symm
  have soon : Instant.ofMillis? 5 = some ⟨0, 5000000, by decide, by decide, .inl (by decide)⟩ := rfl
  rw [cell, soon] at isInstant
  rw [← Option.some.inj isInstant]
  exact ⟨holds.id.symm, by decide, by decide +kernel⟩

/-- With nothing overdue the dispatcher sleeps until the one record is due at most. -/
theorem wakes_in_time_iff_delayed :
    ∃ (registry : Registry) (lanes : Lanes) (table : Table) (tick : Tick) (record : Record),
      Dispatched registry lanes 32 table Instant.epoch tick table ∧ tick.isSaturated = false ∧
      tick.now.isLeap = false ∧ table.IsWaiting record ∧ Instant.epoch < record.notBefore ∧
      ∀ poll reading, tick.wait poll reading ≤ poll ∧
        tick.wait poll reading ≤ record.notBefore.timeLeft reading := by
  let registry : Registry := ⟨[("mail", .transactional)]⟩
  let table : Table := (empty.enqueue delayed Instant.epoch).2
  obtain ⟨record, isRecord⟩ : ∃ record, (Row.ofJob 1 delayed Instant.epoch).record = .ok record :=
    exists_record_of_isSome (by decide +kernel)
  obtain ⟨isId, future, _⟩ := notBefore_of_delayed isRecord
  have waiting : table.IsWaiting record :=
    ⟨Row.ofJob 1 delayed Instant.epoch, isId.symm ▸ by decide +kernel, rfl, isRecord⟩
  obtain ⟨scan, looked, quiet⟩ : ∃ scan,
      table.scan registry ⟨1, 1⟩ 32 Instant.epoch = .ok scan ∧ scan.isActionable = false :=
    ⟨_, ok_of_toOption (by decide +kernel : _ = some ⟨false, Instant.ofMillis? 5⟩), rfl⟩
  have dispatched := Dispatched.idle Instant.epoch looked quiet
  have early : ¬ table.IsOverdue Instant.epoch := by
    rintro ⟨row, member, _, due⟩
    revert row
    decide +kernel
  refine ⟨registry, ⟨1, 1⟩, table, _, record, dispatched, rfl, rfl, waiting, future, ?_⟩
  intro poll reading
  obtain ⟨bounded, inTime⟩ := dispatched.wakes_in_time_iff rfl rfl poll reading
  exact ⟨bounded, inTime.mpr (fun overdue => absurd overdue early) record waiting future⟩

/-- Behind a record that waits for a slot, another one, due in five milliseconds, is slept past for a
second. -/
theorem due_time_slept_past :
    ∃ (registry : Registry) (table : Table) (tick : Tick) (record : Record),
      Reachable table ∧ registry.Distinct ∧
      Dispatched registry ⟨0, 1⟩ 32 table Instant.epoch tick table ∧ tick.isSaturated = false ∧
      tick.now = Instant.epoch ∧ table.IsWaiting record ∧ Instant.epoch < record.notBefore ∧
      record.notBefore.timeLeft Instant.epoch < tick.wait (Duration.ofMillis 1000) Instant.epoch := by
  let registry : Registry := ⟨[("reindex", .normal), ("mail", .transactional)]⟩
  let overdue : Job := Job.new "reindex" [118] Uuid.zero
  let table : Table := ((empty.enqueue overdue Instant.epoch).2.enqueue delayed Instant.epoch).2
  have reachable : Reachable table :=
    .perform (.perform .empty (.enqueue overdue Instant.epoch)) (.enqueue delayed Instant.epoch)
  have distinct : registry.Distinct := by simp [registry, Registry.Distinct]
  have sorted : table.admitted .pending = table.rows :=
    (List.mergeSort_of_pairwise (by decide +kernel)).trans (by decide +kernel)
  have looked : table.scan registry ⟨0, 1⟩ 32 Instant.epoch = .ok ⟨false, some Instant.epoch⟩ := by
    refine ok_of_toOption ?_
    simp only [Table.scan, Table.ready, sorted]
    decide +kernel
  obtain ⟨record, isRecord⟩ : ∃ record, (Row.ofJob 2 delayed Instant.epoch).record = .ok record :=
    exists_record_of_isSome (by decide +kernel)
  obtain ⟨isId, future, left⟩ := notBefore_of_delayed isRecord
  have waiting : table.IsWaiting record :=
    ⟨Row.ofJob 2 delayed Instant.epoch, isId.symm ▸ by decide +kernel, rfl, isRecord⟩
  refine ⟨registry, table, _, record, reachable, distinct, .idle Instant.epoch looked rfl, rfl, rfl,
    waiting, future, ?_⟩
  rw [left]
  decide +kernel

end Table

end Store

end DurableJobs
