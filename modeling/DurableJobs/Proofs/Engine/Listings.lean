import DurableJobs.Proofs.Engine.Batches

/-!
What is listed, and what is dispatched.

All reads of a table agree on its records. A listing has the records that its filter asks for, in one
total order, and is cut off at the limit; every record is listed in its state and in no other one. What
is ready, by the milliseconds that are stored, are those records of the pending listing that are ready
by their own account; and the next due time has come just when one of them is.
-/

set_option autoImplicit false

namespace DurableJobs

namespace Store

/-! ### Rows as they are written -/

/-- The time of the row is one of a clock, and its identifiers are spelled in the one way. -/
structure Row.IsSpelled (row : Row) : Prop where
  notBefore : ∃ instant : Instant, row.notBefore = .integer instant.millis
  sagaId : ∃ saga : Option Uuid, row.sagaId = .ofText? (saga.map Uuid.text)
  correlationId : ∃ correlation : Uuid, row.correlationId = .text correlation.text

namespace Row

theorem isSpelled_ofJob (id : Int) (job : Job) (now : Instant) : (ofJob id job now).IsSpelled :=
  ⟨⟨_, rfl⟩, ⟨_, rfl⟩, ⟨_, rfl⟩⟩

theorem IsSpelled.comeBack {row : Row} (spelled : row.IsSpelled) (notBefore : Instant)
    (failure : Option Failure) (now : Instant) : (row.comeBack notBefore failure now).IsSpelled := by
  cases failure with
  | none => exact ⟨⟨notBefore, rfl⟩, spelled.sagaId, spelled.correlationId⟩
  | some failure => exact ⟨⟨notBefore, rfl⟩, spelled.sagaId, spelled.correlationId⟩

end Row

namespace Table

def IsSpelled (table : Table) : Prop := ∀ row ∈ table.rows, row.IsSpelled

theorem IsSpelled.put {table : Table} (spelled : table.IsSpelled) {row : Row}
    (isSpelled : row.IsSpelled) : (table.put row).IsSpelled := by
  intro other member
  rcases mem_put.mp member with ⟨rfl, _⟩ | ⟨old, _⟩
  · exact isSpelled
  · exact spelled other old

theorem IsSpelled.erase {table : Table} (spelled : table.IsSpelled) (id : Int) :
    (table.erase id).IsSpelled :=
  fun row member => spelled row (mem_erase.mp member).1

theorem Transition.isSpelled {before after : Table} (transition : Transition before after)
    (spelled : before.IsSpelled) : after.IsSpelled := by
  cases transition with
  | @inserted job id now _ _ =>
      intro row member
      rcases mem_append.mp member with old | rfl
      · exact spelled row old
      · exact Row.isSpelled_ofJob id job now
  | coalesced now _ =>
      have written := Row.isSpelled_ofJob
      exact spelled.put ⟨⟨_, rfl⟩, ⟨_, rfl⟩, ⟨_, rfl⟩⟩
  | claimed now member _ =>
      have old := spelled _ member
      exact spelled.put ⟨old.notBefore, old.sagaId, old.correlationId⟩
  | completed _ => exact spelled.erase _
  | canceled _ _ => exact spelled.erase _
  | superseded _ _ => exact spelled.erase _
  | rescheduled notBefore failure now member _ =>
      exact spelled.put ((spelled _ member).comeBack notBefore failure now)
  | requeued now member _ _ =>
      have old := spelled _ member
      exact spelled.put ⟨⟨now, rfl⟩, old.sagaId, old.correlationId⟩
  | gaveUp failures error now member =>
      have old := spelled _ member
      exact spelled.put ⟨old.notBefore, old.sagaId, old.correlationId⟩

theorem Reaches.isSpelled {before after : Table} (reaches : Reaches before after)
    (spelled : before.IsSpelled) : after.IsSpelled := by
  induction reaches with
  | refl => exact spelled
  | tail _ transition ih => exact transition.isSpelled ih

theorem Reachable.isSpelled {table : Table} (reachable : Reachable table) : table.IsSpelled := by
  induction reachable with
  | empty => exact fun row member => by cases member
  | perform past operation ih => exact (past.consistent.perform_reaches operation).isSpelled ih

end Table

/-! ### Listings of rows -/

theorem take_rowLimit {rows : List Row} (fits : rows.length ≤ 0x7fffffffffffffff) (limit : Nat) :
    rows.take (rowLimit limit) = rows.take limit := by
  by_cases small : limit ≤ 0x7fffffffffffffff
  · rw [rowLimit, Nat.min_eq_left small]
  · have least : rowLimit limit = 0x7fffffffffffffff := Nat.min_eq_right (by omega)
    rw [least, List.take_of_length_le fits, List.take_of_length_le (by omega)]

/-- The reads of a table, row for row: rows that cannot be read are in them like all others, and a
read fails that has one of them in its answer. -/
structure Table.RowsAgree (table : Table) : Prop where
  permuted : ∀ filter, (table.admitted filter).Perm (table.rows.filter filter.admits)
  sorted : ∀ filter, (table.admitted filter).Pairwise filter.Precedes
  count : ∀ filter, table.count filter = (table.admitted filter).length
  list : ∀ filter limit,
    table.list filter limit = ((table.admitted filter).take limit).mapM Row.record
  ready : ∀ now limit excluded,
    table.ready now limit excluded =
      (((table.admitted .pending).filter (Table.isDue now excluded)).take limit).mapM Row.record
  -- The clock is read in whole milliseconds since the epoch, so it never stands in a leap second.
  isDue : ∀ now excluded, now.isLeap = false → ∀ row ∈ table.admitted .pending, ∀ record,
    row.record = .ok record →
      Table.isDue now excluded row = (record.isReady now && !excluded.contains record.jobType)
  wakes : ∀ now, now.isLeap = false →
    ((∃ due, table.nextDue = .ok (some due) ∧ due ≤ now) ↔ table.ready now 1 [] ≠ .ok [])

section Rows

variable {table : Table}

theorem Row.isDue_eq {row : Row} {record : Record} (isRecord : row.record = .ok record)
    (pending : row.state = .pending) {now : Instant} (regular : now.isLeap = false)
    (excluded : List String) :
    Table.isDue now excluded row = (record.isReady now && !excluded.contains record.jobType) := by
  have holds := Row.holds_of_record isRecord
  obtain ⟨_, _, isInstant⟩ := holds.notBefore
  have isPending : record.state = .pending := holds.state.symm.trans pending
  rw [Bool.eq_iff_iff, Table.isDue_iff_of_record isRecord, Instant.millis_of_ofMillis? isInstant,
    ← Instant.le_iff_of_ofMillis? isInstant regular]
  simp [Record.isReady, isPending, JobState.isPending]

theorem Table.Reachable.length_le (reachable : Table.Reachable table) :
    table.rows.length ≤ 0x7fffffffffffffff := by
  have few := Table.length_le_of_numbered reachable.consistent.sorted (by decide)
    reachable.numbered.range
  omega

theorem Table.Reachable.length_admitted_le (reachable : Table.Reachable table)
    (filter : JobFilter) : (table.admitted filter).length ≤ 0x7fffffffffffffff := by
  rw [(table.admitted_perm filter).length_eq]
  exact Nat.le_trans (List.length_filter_le _ _) reachable.length_le

theorem Table.nextDue_of_idle (idle : ∀ row ∈ table.rows, row.state ≠ .pending) :
    table.nextDue = .ok none := by
  have none : (table.rows.filter fun row => row.state.isPending) = [] := by
    rw [List.filter_eq_nil_iff]
    exact fun row member pending => idle row member (beq_iff_eq.mp pending)
  rw [Table.nextDue, none]
  rfl

/-- The next due time is read whatever else cannot be, and it has come once a pending row is due. -/
theorem Table.Reachable.nextDue_le_iff (reachable : Table.Reachable table) {now : Instant}
    (regular : now.isLeap = false) :
    (∃ due, table.nextDue = .ok (some due) ∧ due ≤ now) ↔
      ∃ row ∈ table.rows, row.state = .pending ∧ Table.isDue now [] row = true := by
  have spelled := reachable.isSpelled
  constructor
  · rintro ⟨due, read, le⟩
    by_cases idle : ∀ row ∈ table.rows, row.state ≠ .pending
    · rw [Table.nextDue_of_idle idle] at read
      cases read
    · simp only [not_forall, not_not] at idle
      obtain ⟨row, member, pending⟩ := idle
      obtain ⟨first, isFirst, millis, firstPending, isMillis, isDue, _⟩ :=
        Table.nextDue_spec read member pending
      refine ⟨first, isFirst, firstPending, ?_⟩
      rw [Table.isDue_nil_iff, isMillis, Cell.compare, Std.isLE_compare,
        ← Instant.le_iff_of_ofMillis? isDue.symm regular]
      exact le
  · rintro ⟨row, member, pending, isDue⟩
    have integers : ∀ other ∈ table.rows, ∃ millis, other.notBefore = .integer millis := by
      intro other isOther
      obtain ⟨instant, isInstant⟩ := (spelled other isOther).notBefore
      exact ⟨instant.millis, isInstant⟩
    obtain ⟨due, read⟩ := Table.nextDue_of_integers fun other isOther _ => integers other isOther
    obtain ⟨first, isFirst, millis, _, isMillis, rfl, least⟩ :=
      Table.nextDue_spec read member pending
    have come : millis ≤ now.millis := by
      have before := Std.TransCmp.isLE_trans (least row member pending) (Table.isDue_nil_iff.mp isDue)
      rwa [isMillis, Cell.compare, Std.isLE_compare] at before
    -- The time was written by a clock and lies before a reading of one, so it is an instant.
    obtain ⟨instant, isInstant⟩ := (spelled first isFirst).notBefore
    have same : instant.millis = millis := Cell.integer.inj (isInstant.symm.trans isMillis)
    obtain ⟨_, isLater⟩ := Instant.isStorable_of_regular regular
    obtain ⟨time, isTime⟩ :=
      Instant.exists_ofMillis?_of_between isLater (Int.le_of_eq same) come
    exact ⟨time, by rw [read, isTime], (Instant.le_iff_of_ofMillis? isTime regular).mpr come⟩

theorem Table.ready_one_ne_nil_iff {now : Instant} :
    table.ready now 1 [] ≠ .ok [] ↔
      ∃ row ∈ table.rows, row.state = .pending ∧ Table.isDue now [] row = true := by
  have listed : (∃ row ∈ table.rows, row.state = .pending ∧ Table.isDue now [] row = true) ↔
      ∃ row, row ∈ (table.admitted .pending).filter (Table.isDue now []) := by
    simp only [List.mem_filter, Table.mem_admitted_pending, and_assoc]
  rw [listed, Table.ready]
  cases (table.admitted .pending).filter (Table.isDue now []) with
  | nil => simp [pure, Except.pure]
  | cons row rest =>
      have one : (row :: rest).take (rowLimit 1) = [row] := rfl
      rw [one, List.mapM_cons, List.mapM_nil]
      cases row.record with
      | error error => simp [bind, Except.bind]
      | ok record => simp [bind, Except.bind, pure, Except.pure]

theorem Table.Reachable.rowsAgree (reachable : Table.Reachable table) : table.RowsAgree where
  permuted := table.admitted_perm
  sorted := reachable.consistent.ordered.pairwise_admitted
  count := fun filter => (table.admitted_perm filter).length_eq.symm
  list := fun filter limit => by
    rw [Table.list, take_rowLimit (reachable.length_admitted_le filter)]
  ready := fun now limit excluded => by
    rw [Table.ready, take_rowLimit (Nat.le_trans (List.length_filter_le _ _)
      (reachable.length_admitted_le .pending))]
  isDue := fun now excluded regular row member record isRecord =>
    row.isDue_eq isRecord (Table.mem_admitted_pending.mp member).2 regular excluded
  wakes := fun now regular =>
    (reachable.nextDue_le_iff regular).trans Table.ready_one_ne_nil_iff.symm

end Rows

/-! ### Listings of records -/

namespace JobFilter

/-- The record is one of those that the filter asks for. -/
def selects (filter : JobFilter) (record : Record) : Bool :=
  match filter with
  | .pending => record.state == .pending
  | .running => record.state == .running
  | .failed => record.state == .failed
  | .saga id => record.sagaId == some id
  | .correlation id => record.correlationId == id

/-- The first record stands before the second one in the listing of the filter. -/
def Before (filter : JobFilter) (first second : Record) : Prop :=
  match filter with
  | .pending => first.Precedes second
  | .failed =>
      second.updatedAt < first.updatedAt ∨
        (second.updatedAt = first.updatedAt ∧ first.id < second.id)
  | _ => first.id < second.id

theorem Before.asymm {filter : JobFilter} {first second : Record}
    (before : filter.Before first second) : ¬ filter.Before second first := by
  cases filter with
  | pending => exact Record.Precedes.asymm before
  | failed =>
      intro after
      rcases before with less | ⟨same, older⟩
      · rcases after with greater | ⟨same, _⟩
        · exact Instant.lt_asymm less greater
        · rw [same] at less
          exact Instant.lt_asymm less less
      · rcases after with greater | ⟨_, younger⟩
        · rw [same] at greater
          exact Instant.lt_asymm greater greater
        · exact Int.lt_asymm older younger
  | running => exact Int.lt_asymm before
  | saga id => exact Int.lt_asymm before
  | correlation id => exact Int.lt_asymm before

theorem before_or_before (filter : JobFilter) {first second : Record}
    (different : first.id ≠ second.id) :
    filter.Before first second ∨ filter.Before second first := by
  cases filter with
  | pending => exact Record.precedes_or_precedes different
  | failed =>
      rcases Instant.lt_or_eq_or_gt first.updatedAt second.updatedAt with less | same | greater
      · exact .inr (.inl less)
      · rcases Int.lt_or_gt_of_ne different with older | younger
        · exact .inl (.inr ⟨same.symm, older⟩)
        · exact .inr (.inr ⟨same, younger⟩)
      · exact .inl (.inl greater)
  | running => exact Int.lt_or_gt_of_ne different
  | saga id => exact Int.lt_or_gt_of_ne different
  | correlation id => exact Int.lt_or_gt_of_ne different

theorem text_eq_text_iff {left right : Uuid} :
    Cell.text left.text = .text right.text ↔ left = right := by
  rw [Cell.text.injEq]
  exact ⟨Uuid.text_injective, congrArg Uuid.text⟩

theorem ofText?_eq_text_iff {saga : Option Uuid} {id : Uuid} :
    Cell.ofText? (saga.map Uuid.text) = .text id.text ↔ saga = some id := by
  cases saga with
  | none => simp [Cell.ofText?]
  | some other => rw [Option.some.injEq, ← text_eq_text_iff, Option.map_some, Cell.ofText?]

theorem admits_saga {row : Row} {record : Record} (spelled : row.IsSpelled)
    (isRecord : row.record = .ok record) (id : Uuid) :
    row.sagaId = .text id.text ↔ record.sagaId = some id := by
  obtain ⟨saga, isSaga⟩ := spelled.sagaId
  have read := (Row.holds_of_record isRecord).sagaId
  rw [isSaga] at read ⊢
  rw [ofText?_eq_text_iff]
  cases saga with
  | none => rw [← Except.ok.inj read]
  | some saga =>
      have isId : (Row.readUuid 6 "saga_id" (.text saga.text)).map some = .ok record.sagaId := read
      rw [Row.readUuid_of_ofText? (Uuid.ofText?_text saga)] at isId
      rw [← Except.ok.inj isId]

theorem admits_correlation {row : Row} {record : Record} (spelled : row.IsSpelled)
    (isRecord : row.record = .ok record) (id : Uuid) :
    row.correlationId = .text id.text ↔ record.correlationId = id := by
  obtain ⟨correlation, isCorrelation⟩ := spelled.correlationId
  obtain ⟨text, isText, isId⟩ := (Row.holds_of_record isRecord).correlationId
  obtain rfl : correlation.text = text := Cell.text.inj (isCorrelation.symm.trans isText)
  obtain rfl := Option.some.inj ((Uuid.ofText?_text correlation).symm.trans isId)
  rw [isText]
  exact text_eq_text_iff

theorem admits_eq_selects {row : Row} {record : Record} (spelled : row.IsSpelled)
    (isRecord : row.record = .ok record) (filter : JobFilter) :
    filter.admits row = filter.selects record := by
  have sameState := (Row.holds_of_record isRecord).state
  cases filter with
  | pending => rw [admits, selects, sameState]
  | running => rw [admits, selects, sameState]
  | failed => rw [admits, selects, sameState]
  | saga id =>
      rw [admits, selects, Bool.eq_iff_iff, beq_iff_eq, beq_iff_eq]
      exact admits_saga spelled isRecord id
  | correlation id =>
      rw [admits, selects, Bool.eq_iff_iff, beq_iff_eq, beq_iff_eq]
      exact admits_correlation spelled isRecord id

theorem precedes_iff_before {filter : JobFilter} {first second : Row} {left right : Record}
    (isLeft : first.record = .ok left) (isRight : second.record = .ok right) :
    filter.Precedes first second ↔ filter.Before left right := by
  have leftHolds := Row.holds_of_record isLeft
  have rightHolds := Row.holds_of_record isRight
  have byId : first.id < second.id ↔ left.id < right.id := by
    rw [leftHolds.id, rightHolds.id]
  cases filter with
  | pending => exact Row.precedes_iff isLeft isRight
  | failed =>
      obtain ⟨leftMillis, isLeftMillis, leftUpdated⟩ := leftHolds.updatedAt
      obtain ⟨rightMillis, isRightMillis, rightUpdated⟩ := rightHolds.updatedAt
      rw [Precedes, Before, byId, rank, rank, isLeftMillis, isRightMillis, Cell.compare,
        Std.compare_eq_lt, Std.compare_eq_iff_eq,
        Instant.lt_iff_of_ofMillis? rightUpdated leftUpdated,
        Instant.eq_iff_of_ofMillis? rightUpdated leftUpdated]
  | _ => simp [Precedes, Before, rank, Cell.compare, byId]

end JobFilter

/-- The reads of a table all of whose rows can be read, with one listing for each filter. -/
structure Table.ReadsAgree (table : Table) (records : List Record)
    (listing : JobFilter → List Record) : Prop where
  total : ∀ filter : JobFilter, ∀ first ∈ records, ∀ second ∈ records, first ≠ second →
    filter.Before first second ∨ filter.Before second first
  permuted : ∀ filter, (listing filter).Perm (records.filter filter.selects)
  sorted : ∀ filter, (listing filter).Pairwise filter.Before
  count : ∀ filter, table.count filter = (listing filter).length
  list : ∀ filter limit, table.list filter limit = .ok ((listing filter).take limit)
  oneState : ∀ record ∈ records, ∃! filter : JobFilter,
    (filter = .pending ∨ filter = .running ∨ filter = .failed) ∧ record ∈ listing filter
  ready : ∀ now limit excluded, now.isLeap = false →
    table.ready now limit excluded =
      .ok (((listing .pending).filter fun record =>
        record.isReady now && !excluded.contains record.jobType).take limit)
  nextDue : ∃ due, table.nextDue = .ok due ∧
    (due = none ↔ listing .pending = []) ∧
    ∀ first, due = some first → (∃ record ∈ listing .pending, record.notBefore = first) ∧
      ∀ record ∈ listing .pending, first ≤ record.notBefore

/-- The order leaves one listing only. -/
theorem Table.ReadsAgree.eq_listing {table : Table} {records others : List Record}
    {listing : JobFilter → List Record} {filter : JobFilter}
    (agree : table.ReadsAgree records listing)
    (permuted : others.Perm (records.filter filter.selects))
    (sorted : others.Pairwise filter.Before) : others = listing filter :=
  List.Perm.eq_of_pairwise (fun _ _ _ _ before after => absurd after before.asymm) sorted
    (agree.sorted filter) (permuted.trans (agree.permuted filter).symm)

theorem mapM_eq_map {rows : List Row} (view : Row → Record)
    (reads : ∀ row ∈ rows, row.record = .ok (view row)) :
    rows.mapM Row.record = .ok (rows.map view) := by
  induction rows with
  | nil => rfl
  | cons row rest ih =>
      rw [List.mapM_cons, reads row List.mem_cons_self,
        ih fun other later => reads other (List.mem_cons_of_mem _ later)]
      rfl

theorem exists_view_of_mapM {rows : List Row} {records : List Record}
    (read : rows.mapM Row.record = .ok records) :
    ∃ view : Row → Record, (∀ row ∈ rows, row.record = .ok (view row)) ∧
      records = rows.map view := by
  have : Nonempty Record := ⟨Table.claimed⟩
  have readable : ∀ row ∈ rows, ∃ record, row.record = .ok record := fun row member =>
    let ⟨record, _, isRecord⟩ := record_of_mem_mapM read member
    ⟨record, isRecord⟩
  choose! view reads using readable
  exact ⟨view, reads, Except.ok.inj (read.symm.trans (mapM_eq_map view reads))⟩

section Records

variable {table : Table} {view : Row → Record}

theorem Table.mem_rows_of_admitted {filter : JobFilter} {row : Row}
    (member : row ∈ table.admitted filter) : row ∈ table.rows :=
  (List.mem_filter.mp ((table.admitted_perm filter).mem_iff.mp member)).1

theorem Table.mem_view_pending {record : Record} :
    record ∈ (table.admitted .pending).map view ↔
      ∃ row ∈ table.rows, row.state = .pending ∧ view row = record := by
  simp only [List.mem_map, Table.mem_admitted_pending, and_assoc]

theorem Table.IsSpelled.filter_view (spelled : table.IsSpelled)
    (reads : ∀ row ∈ table.rows, row.record = .ok (view row)) (filter : JobFilter) :
    (table.rows.map view).filter filter.selects = (table.rows.filter filter.admits).map view := by
  rw [List.filter_map]
  refine congrArg (List.map view) (List.filter_congr fun row member => ?_)
  exact (filter.admits_eq_selects (spelled row member) (reads row member)).symm

theorem Table.IsSpelled.perm_view (spelled : table.IsSpelled)
    (reads : ∀ row ∈ table.rows, row.record = .ok (view row)) (filter : JobFilter) :
    ((table.admitted filter).map view).Perm ((table.rows.map view).filter filter.selects) := by
  rw [spelled.filter_view reads]
  exact (table.admitted_perm filter).map view

/-- Of the filters for states, one asks for the record. -/
theorem JobFilter.existsUnique_selects (record : Record) :
    ∃! filter : JobFilter, (filter = .pending ∨ filter = .running ∨ filter = .failed) ∧
      filter.selects record = true := by
  have others : ∀ own : JobFilter, (own = .pending ∨ own = .running ∨ own = .failed) →
      own.selects record = true → ∀ filter : JobFilter,
        (filter = .pending ∨ filter = .running ∨ filter = .failed) ∧
          filter.selects record = true → filter = own := by
    rintro _ (rfl | rfl | rfl) isOwn _ ⟨rfl | rfl | rfl, selects⟩ <;>
      simp_all [JobFilter.selects]
  cases isState : record.state with
  | pending =>
      have own : JobFilter.pending.selects record = true := beq_iff_eq.mpr isState
      exact ⟨.pending, ⟨.inl rfl, own⟩, others _ (.inl rfl) own⟩
  | running =>
      have own : JobFilter.running.selects record = true := beq_iff_eq.mpr isState
      exact ⟨.running, ⟨.inr (.inl rfl), own⟩, others _ (.inr (.inl rfl)) own⟩
  | failed =>
      have own : JobFilter.failed.selects record = true := beq_iff_eq.mpr isState
      exact ⟨.failed, ⟨.inr (.inr rfl), own⟩, others _ (.inr (.inr rfl)) own⟩

/-- The next due time is the earliest one of the pending records. -/
theorem Table.nextDue_view (reads : ∀ row ∈ table.rows, row.record = .ok (view row)) :
    ∃ due, table.nextDue = .ok due ∧
      (due = none ↔ (table.admitted .pending).map view = []) ∧
      ∀ first, due = some first →
        (∃ record ∈ (table.admitted .pending).map view, record.notBefore = first) ∧
          ∀ record ∈ (table.admitted .pending).map view, first ≤ record.notBefore := by
  by_cases idle : ∀ row ∈ table.rows, row.state ≠ .pending
  · have nothing : (table.admitted .pending).map view = [] := by
      refine List.eq_nil_iff_forall_not_mem.mpr fun record member => ?_
      obtain ⟨row, isRow, pending, _⟩ := Table.mem_view_pending.mp member
      exact idle row isRow pending
    exact ⟨none, Table.nextDue_of_idle idle, iff_of_true rfl nothing,
      fun first isFirst => absurd isFirst.symm (Option.some_ne_none first)⟩
  · simp only [not_forall, not_not] at idle
    obtain ⟨row, member, pending⟩ := idle
    have timed : ∀ row ∈ table.rows, ∃ millis, row.notBefore = .integer millis ∧
        Instant.ofMillis? millis = some (view row).notBefore :=
      fun row member => (Row.holds_of_record (reads row member)).notBefore
    have integers : ∀ row ∈ table.rows, ∃ millis, row.notBefore = .integer millis := by
      intro row isRow
      obtain ⟨millis, isMillis, _⟩ := timed row isRow
      exact ⟨millis, isMillis⟩
    obtain ⟨due, read⟩ := Table.nextDue_of_integers fun other isOther _ => integers other isOther
    obtain ⟨earliest, isRow, millis, earliestPending, isMillis, rfl, least⟩ :=
      Table.nextDue_spec read member pending
    obtain ⟨_, sameMillis, isTime⟩ := timed earliest isRow
    obtain rfl := Cell.integer.inj (isMillis.symm.trans sameMillis)
    rw [isTime] at read
    have listed : (table.admitted .pending).map view ≠ [] :=
      List.ne_nil_of_mem (Table.mem_view_pending.mpr ⟨row, member, pending, rfl⟩)
    refine ⟨_, read, iff_of_false (by simp) listed, ?_⟩
    rintro _ ⟨rfl⟩
    refine ⟨⟨_, Table.mem_view_pending.mpr ⟨earliest, isRow, earliestPending, rfl⟩, rfl⟩, ?_⟩
    intro record isListed
    obtain ⟨other, isOther, otherPending, rfl⟩ := Table.mem_view_pending.mp isListed
    obtain ⟨later, isLater, laterTime⟩ := timed other isOther
    have before := least other isOther otherPending
    rw [isMillis, isLater, Cell.compare, Std.isLE_compare] at before
    rw [Instant.le_iff_of_ofMillis? isTime (Instant.isLeap_of_ofMillis? laterTime),
      Instant.millis_of_ofMillis? laterTime]
    exact before

theorem Table.Reachable.readsAgree (reachable : Table.Reachable table)
    (reads : ∀ row ∈ table.rows, row.record = .ok (view row)) :
    table.ReadsAgree (table.rows.map view) fun filter => (table.admitted filter).map view := by
  have rows := reachable.rowsAgree
  have readsAdmitted : ∀ filter, ∀ row ∈ table.admitted filter, row.record = .ok (view row) :=
    fun filter row member => reads row (Table.mem_rows_of_admitted member)
  have spelled := reachable.isSpelled
  constructor
  case total =>
    intro filter first isFirst second isSecond different
    obtain ⟨row, isRow, rfl⟩ := List.mem_map.mp isFirst
    obtain ⟨other, isOther, rfl⟩ := List.mem_map.mp isSecond
    refine filter.before_or_before fun same => different (congrArg view ?_)
    refine reachable.consistent.eq_of_id_eq isRow isOther ?_
    rw [(Row.holds_of_record (reads row isRow)).id, (Row.holds_of_record (reads other isOther)).id]
    exact same
  case permuted => exact spelled.perm_view reads
  case sorted =>
    intro filter
    rw [List.pairwise_map]
    refine (rows.sorted filter).imp_of_mem fun leftMember rightMember precedes => ?_
    exact (JobFilter.precedes_iff_before (readsAdmitted filter _ leftMember)
      (readsAdmitted filter _ rightMember)).mp precedes
  case count =>
    intro filter
    rw [List.length_map]
    exact rows.count filter
  case list =>
    intro filter limit
    rw [rows.list, mapM_eq_map view, List.map_take]
    exact fun row member => readsAdmitted filter row (List.mem_of_mem_take member)
  case oneState =>
    intro record member
    have listed : ∀ filter : JobFilter, record ∈ (table.admitted filter).map view ↔
        filter.selects record = true := fun filter => by
      rw [(spelled.perm_view reads filter).mem_iff, List.mem_filter]
      exact and_iff_right member
    simp only [listed]
    exact JobFilter.existsUnique_selects record
  case ready =>
    intro now limit excluded regular
    rw [rows.ready, mapM_eq_map view, List.map_take, List.filter_map]
    · refine congrArg (fun ready => Except.ok (List.take limit (List.map view ready))) ?_
      refine List.filter_congr fun row member => ?_
      exact rows.isDue now excluded regular row member _ (readsAdmitted .pending row member)
    · intro row member
      exact readsAdmitted .pending row (List.mem_filter.mp (List.mem_of_mem_take member)).1
  case nextDue => exact Table.nextDue_view reads

/-- Every listing has the records that its filter asks for, in its order and up to the limit, and is
as long as it is counted to be; every record is listed in one state. The records that are ready are
those of the pending listing that are ready by their own account, and the next due time has come just
when there is one. -/
theorem Table.Reachable.reads_agree (reachable : Table.Reachable table) :
    table.RowsAgree ∧ ∀ records, table.rows.mapM Row.record = .ok records →
      ∃ listing, table.ReadsAgree records listing := by
  refine ⟨reachable.rowsAgree, fun records read => ?_⟩
  obtain ⟨view, reads, rfl⟩ := exists_view_of_mapM read
  exact ⟨_, reachable.readsAgree reads⟩

/-- Records that were not claimed too often can all be read. -/
theorem Table.Written.exists_records (written : Table.Written table)
    (fresh : ∀ row ∈ table.rows, ¬ row.IsWornOut) :
    ∃ records, table.rows.mapM Row.record = .ok records :=
  exists_mapM_of_readable fun row member =>
    let ⟨record, holds⟩ := (written.isLegible row member).holds (fresh row member)
    ⟨record, Row.record_of_holds holds⟩

theorem Table.reads_agree_crowded :
    Table.Reachable Table.crowded ∧ Table.crowded.RowsAgree ∧
      ∃ records listing, Table.crowded.rows.mapM Row.record = .ok records ∧
        Table.crowded.ReadsAgree records listing ∧ records.length = 2 ∧
        (listing .pending).length = 2 ∧ (listing .running).length = 0 := by
  obtain ⟨rows, agree⟩ := Table.reachable_crowded.reads_agree
  obtain ⟨records, read, few⟩ : ∃ records, Table.crowded.rows.mapM Row.record = .ok records ∧
      records.length = 2 := by
    have readable : (Table.crowded.rows.mapM Row.record).toOption.map List.length = some 2 := by
      decide +kernel
    obtain ⟨records, isSome, few⟩ := Option.map_eq_some_iff.mp readable
    exact ⟨records, ok_of_toOption isSome, few⟩
  obtain ⟨listing, reads⟩ := agree records read
  refine ⟨Table.reachable_crowded, rows, records, listing, read, reads, few, ?_, ?_⟩
  · rw [← reads.count]
    decide +kernel
  · rw [← reads.count]
    decide +kernel

end Records

end Store

end DurableJobs
