import DurableJobs.Proofs.Engine.Listings
import DurableJobs.Proofs.Store.Contents

/-!
Looking up records by saga and by correlation.

Rows keep the identifiers of the job that was placed in them last, and they keep them as texts, which
are compared as they are. Since an identifier is written in one way only, however it was spelled when
it was read, a lookup has exactly the rows whose job has the identifier that is asked for.
-/

set_option autoImplicit false

namespace DurableJobs.Store

namespace Table

/-! ### Histories with the jobs that they place -/

def placedAll (table : Table) (jobs : List Job) (correlation : Uuid) (now : Instant) :
    List Placement :=
  match jobs with
  | [] => []
  | job :: rest =>
      match table.enqueue (job.withCorrelationId correlation) now with
      | (.error _, _) => []
      | (.ok receipt, after) =>
          ⟨receipt.id, job.withCorrelationId correlation⟩ :: after.placedAll rest correlation now

/-- The jobs that an operation places in rows, those of a refused one included that were placed
before the refusal. -/
def placed (table : Table) : Operation → List Placement
  | .enqueue job now =>
      match (table.enqueue job now).1 with
      | .error _ => []
      | .ok receipt => [⟨receipt.id, job⟩]
  | .enqueueAll jobs correlation now => table.placedAll jobs correlation now
  | _ => []

def performAll (table : Table) : List Operation → Table
  | [] => table
  | operation :: rest => (table.perform operation).2.performAll rest

/-- The jobs that operations place in rows, one operation after the other. -/
def placements (table : Table) : List Operation → List Placement
  | [] => []
  | operation :: rest => table.placed operation ++ (table.perform operation).2.placements rest

section Histories

variable {table after : Table}

theorem Consistent.enqueue_refused (consistent : table.Consistent) {job : Job} {now : Instant}
    {error : StoreError} (answer : table.enqueue job now = (.error error, after)) :
    after = table := by
  rcases consistent.enqueue_cases job now with
    ⟨_, _, coalesced⟩ | ⟨_, _, _, inserted⟩ | ⟨_, _, full⟩
  · cases coalesced.symm.trans answer
  · cases inserted.symm.trans answer
  · exact (Prod.mk.inj (answer.symm.trans full)).2

theorem Consistent.enqueueAll_places (consistent : table.Consistent) (jobs : List Job)
    (correlation : Uuid) (now : Instant) :
    Places table (table.placedAll jobs correlation now) (table.enqueueAll jobs correlation now).2 := by
  induction jobs generalizing table with
  | nil => exact .nil
  | cons job rest ih =>
      have reaches := consistent.enqueue_reaches (job.withCorrelationId correlation) now
      rw [placedAll, enqueueAll]
      cases answer : table.enqueue (job.withCorrelationId correlation) now with
      | mk result middle =>
          rw [answer] at reaches
          cases result with
          | error error =>
              obtain rfl := consistent.enqueue_refused answer
              exact .nil
          | ok receipt =>
              have later := ih (reaches.consistent consistent)
              cases final : middle.enqueueAll rest correlation now with
              | mk others last =>
                  rw [final] at later
                  cases others <;> exact .cons answer (by simpa [final] using later)

theorem Consistent.perform_places (consistent : table.Consistent) {operation : Operation}
    (enqueuing : operation.isEnqueuing = true) :
    Places table (table.placed operation) (table.perform operation).2 := by
  cases operation with
  | enqueue job now =>
      show Places table _ (table.enqueue job now).2
      rw [placed]
      cases answer : table.enqueue job now with
      | mk result middle =>
          cases result with
          | error error =>
              obtain rfl := consistent.enqueue_refused answer
              exact .nil
          | ok receipt => exact .cons answer .nil
  | enqueueAll jobs correlation now => exact consistent.enqueueAll_places jobs correlation now
  | _ => cases enqueuing

variable {column : Row → Cell} {cell : Job → Cell}

theorem Consistent.retains_placed (consistent : table.Consistent)
    (onlyPlaced : OnlyPlaced column cell) (operation : Operation) :
    Retains column cell table (table.placed operation) (table.perform operation).2 := by
  by_cases enqueuing : operation.isEnqueuing = true
  · exact (consistent.perform_places enqueuing).retains consistent onlyPlaced
  · have silent : operation.isEnqueuing = false := Bool.eq_false_iff.mpr enqueuing
    have nothing : table.placed operation = [] := by cases operation <;> first | rfl | cases silent
    rw [nothing]
    exact consistent.perform_retains onlyPlaced operation silent

/-- Whatever is done to a table, its rows hold of such a column what was placed in them last. -/
theorem Consistent.retains_placements (consistent : table.Consistent)
    (onlyPlaced : OnlyPlaced column cell) (history : List Operation) :
    Retains column cell table (table.placements history) (table.performAll history) := by
  induction history generalizing table with
  | nil => exact .refl table
  | cons operation rest ih =>
      have later := (consistent.perform_reaches operation).consistent consistent
      exact (consistent.retains_placed onlyPlaced operation).trans (ih later)

theorem Reachable.performAll (reachable : Reachable table) (history : List Operation) :
    Reachable (table.performAll history) := by
  induction history generalizing table with
  | nil => exact reachable
  | cons operation rest ih => exact ih (.perform reachable operation)

/-- Every row of a history has a job that was placed in it last, and holds its column. -/
theorem exists_lastJob? (onlyPlaced : OnlyPlaced column cell) {history : List Operation} {row : Row}
    (member : row ∈ (empty.performAll history).rows) :
    ∃ job, lastJob? row.id (empty.placements history) = some job ∧ column row = cell job := by
  have consistent := (Reachable.empty.performAll history).consistent
  have held := consistent_empty.retains_placements onlyPlaced history row.id row
    (consistent.find?_of_mem member)
  cases placed : lastJob? row.id (empty.placements history) with
  | some job =>
      rw [placed] at held
      exact ⟨job, rfl, held⟩
  | none =>
      rw [placed] at held
      obtain ⟨_, none, _⟩ := held
      cases none

end Histories

/-! ### Rows that are found -/

/-- The rows in which a job of the kind was placed last. -/
def rowsOf (table : Table) (placements : List Placement) (wanted : Job → Bool) : List Row :=
  table.rows.filter fun row => (lastJob? row.id placements).any wanted

/-- The filter counts the rows, and it lists them up to the limit. -/
def Finds (table : Table) (filter : JobFilter) (rows : List Row) : Prop :=
  table.count filter = rows.length ∧
    ∀ limit, table.list filter limit = (rows.take limit).mapM Row.record

theorem admitted_of_unordered (table : Table) {filter : JobFilter}
    (unordered : ∀ first second, filter.isBefore first second = true) :
    table.admitted filter = table.rows.filter filter.admits :=
  List.mergeSort_of_pairwise (List.pairwise_iff_getElem.mpr fun _ _ _ _ _ => unordered _ _)

theorem Reachable.finds {table : Table} (reachable : Reachable table) {filter : JobFilter}
    (unordered : ∀ first second, filter.isBefore first second = true) :
    table.Finds filter (table.rows.filter filter.admits) := by
  refine ⟨rfl, fun limit => ?_⟩
  rw [reachable.rowsAgree.list, table.admitted_of_unordered unordered]

section Finds

variable (history : List Operation)

/-- A filter finds the rows in which a job was placed last that it asks for. -/
theorem finds_rowsOf {filter : JobFilter} {wanted : Job → Bool}
    (unordered : ∀ first second, filter.isBefore first second = true)
    (asks : ∀ row ∈ (empty.performAll history).rows, ∃ job,
      lastJob? row.id (empty.placements history) = some job ∧ filter.admits row = wanted job) :
    (empty.performAll history).Finds filter
      ((empty.performAll history).rowsOf (empty.placements history) wanted) := by
  have same : (empty.performAll history).rowsOf (empty.placements history) wanted =
      (empty.performAll history).rows.filter filter.admits := by
    refine List.filter_congr fun row member => ?_
    obtain ⟨job, placed, admits⟩ := asks row member
    rw [placed, Option.any_some, admits]
  rw [same]
  exact (Reachable.empty.performAll history).finds unordered

theorem finds_saga (saga : Uuid) :
    (empty.performAll history).Finds (.saga saga)
      ((empty.performAll history).rowsOf (empty.placements history) fun job =>
        job.sagaId == some saga) := by
  refine finds_rowsOf history (fun _ _ => rfl) fun row member => ?_
  obtain ⟨job, placed, isSaga⟩ := exists_lastJob? onlyPlaced_sagaId member
  refine ⟨job, placed, ?_⟩
  rw [JobFilter.admits, isSaga, Bool.eq_iff_iff, beq_iff_eq, beq_iff_eq]
  exact JobFilter.ofText?_eq_text_iff

theorem finds_correlation (correlation : Uuid) :
    (empty.performAll history).Finds (.correlation correlation)
      ((empty.performAll history).rowsOf (empty.placements history) fun job =>
        job.correlationId == correlation) := by
  refine finds_rowsOf history (fun _ _ => rfl) fun row member => ?_
  obtain ⟨job, placed, isCorrelation⟩ := exists_lastJob? onlyPlaced_correlationId member
  refine ⟨job, placed, ?_⟩
  rw [JobFilter.admits, isCorrelation, Bool.eq_iff_iff, beq_iff_eq, beq_iff_eq]
  exact JobFilter.text_eq_text_iff

end Finds

/-! ### Records that are found -/

/-- The filter counts the records, and it lists them up to the limit. -/
def FindsRecords (table : Table) (filter : JobFilter) (records : List Record) : Prop :=
  table.count filter = records.length ∧
    ∀ limit, table.list filter limit = .ok (records.take limit)

/-- Every record has the identifiers of the job placed in it last, and a lookup by an identifier finds
the records that have it. -/
structure FoundByValue (table : Table) (placements : List Placement) (records : List Record) :
    Prop where
  read : table.rows.mapM Row.record = .ok records
  placed : ∀ record ∈ records, ∃ job, lastJob? record.id placements = some job ∧
    record.sagaId = job.sagaId ∧ record.correlationId = job.correlationId
  saga : ∀ saga, table.FindsRecords (.saga saga)
    (records.filter fun record => record.sagaId == some saga)
  correlation : ∀ correlation, table.FindsRecords (.correlation correlation)
    (records.filter fun record => record.correlationId == correlation)

section Records

variable {table after : Table}

theorem Places.append {middle : Table} {first second : List Placement}
    (earlier : Places table first middle) (later : Places middle second after) :
    Places table (first ++ second) after := by
  induction earlier with
  | nil => exact later
  | cons head _ ih => exact .cons head (ih later)

theorem Consistent.performAll_places (consistent : table.Consistent) {history : List Operation}
    (enqueuing : ∀ operation ∈ history, operation.isEnqueuing = true) :
    Places table (table.placements history) (table.performAll history) := by
  induction history generalizing table with
  | nil => exact .nil
  | cons operation rest ih =>
      obtain ⟨first, others⟩ := List.forall_mem_cons.mp enqueuing
      have reaches := consistent.perform_reaches operation
      exact (consistent.perform_places first).append (ih (reaches.consistent consistent) others)

theorem Places.exists_receipts {placements : List Placement}
    (places : Places table placements after) : ∃ receipts, EnqueuedAll table receipts after ∧
      receipts.map Receipt.id = placements.map Placement.id := by
  induction places with
  | nil => exact ⟨[], .nil, rfl⟩
  | @cons _ _ _ _ _ receipt _ first _ ih =>
      obtain ⟨receipts, all, same⟩ := ih
      exact ⟨receipt :: receipts, .cons first all, by rw [List.map_cons, same]; rfl⟩

/-- Jobs that are enqueued one after the other, from the empty table on, leave every row that they are
placed in, and every row that they leave waits for its first execution. -/
theorem Places.mem_rows {placements : List Placement} (places : Places empty placements after) :
    (∀ placement ∈ placements, ∃ row ∈ after.rows, row.id = placement.id) ∧
      ∀ row ∈ after.rows, row.IsUntried := by
  obtain ⟨receipts, all, sameIds⟩ := places.exists_receipts
  have renewed := all.renewed consistent_empty
  have consistent := renewed.reaches.consistent consistent_empty
  constructor
  · intro placement member
    have listed : placement.id ∈ receipts.map Receipt.id :=
      sameIds ▸ List.mem_map_of_mem member
    obtain ⟨row, found, _⟩ := renewed.untried placement.id listed
    exact ⟨row, mem_of_find? found, id_of_find? found⟩
  · intro row member
    have found := consistent.find?_of_mem member
    by_cases listed : row.id ∈ receipts.map Receipt.id
    · obtain ⟨other, otherFound, untried⟩ := renewed.untried row.id listed
      obtain rfl := Option.some.inj (found.symm.trans otherFound)
      exact untried
    · rw [renewed.unchanged row.id listed] at found
      cases found

theorem Written.performAll (written : Written table) {history : List Operation}
    (storable : ∀ operation ∈ history, operation.IsStorable) :
    Written (table.performAll history) := by
  induction history generalizing table with
  | nil => exact written
  | cons operation rest ih =>
      obtain ⟨first, others⟩ := List.forall_mem_cons.mp storable
      exact ih (.perform written first) others

theorem Reachable.findsRecords (reachable : Reachable table) {view : Row → Record}
    (reads : ∀ row ∈ table.rows, row.record = .ok (view row)) {filter : JobFilter}
    (unordered : ∀ first second, filter.isBefore first second = true) :
    table.FindsRecords filter ((table.rows.map view).filter filter.selects) := by
  obtain ⟨counted, listed⟩ := reachable.finds unordered
  rw [reachable.isSpelled.filter_view reads]
  refine ⟨by rw [counted, List.length_map], fun limit => ?_⟩
  rw [listed, mapM_eq_map view, List.map_take]
  intro row member
  exact reads row (List.mem_filter.mp (List.mem_of_mem_take member)).1

/-- In a history that can be read back, records are found by the identifiers placed last. -/
theorem foundByValue {history : List Operation} {records : List Record}
    (read : (empty.performAll history).rows.mapM Row.record = .ok records) :
    (empty.performAll history).FoundByValue (empty.placements history) records := by
  have reachable := Reachable.empty.performAll history
  obtain ⟨view, reads, rfl⟩ := exists_view_of_mapM read
  refine ⟨read, fun record member => ?_, fun saga => ?_, fun correlation => ?_⟩
  · obtain ⟨row, isRow, rfl⟩ := List.mem_map.mp member
    have spelled := reachable.isSpelled row isRow
    obtain ⟨job, placed, isSaga⟩ := exists_lastJob? onlyPlaced_sagaId isRow
    obtain ⟨other, placedToo, isCorrelation⟩ := exists_lastJob? onlyPlaced_correlationId isRow
    obtain rfl := Option.some.inj (placed.symm.trans placedToo)
    rw [(Row.holds_of_record (reads row isRow)).id] at placed
    refine ⟨job, placed, Option.ext fun id => ?_, ?_⟩
    · rw [← JobFilter.admits_saga spelled (reads row isRow), isSaga, JobFilter.ofText?_eq_text_iff]
    · exact (JobFilter.admits_correlation spelled (reads row isRow) _).mp isCorrelation
  · exact reachable.findsRecords reads fun _ _ => rfl
  · exact reachable.findsRecords reads fun _ _ => rfl

/-- Enqueued records can all be read, and none of them is lost. -/
theorem exists_records_of_enqueues {history : List Operation}
    (enqueuing : ∀ operation ∈ history, operation.isEnqueuing = true)
    (storable : ∀ operation ∈ history, operation.IsStorable) :
    ∃ records, (empty.performAll history).FoundByValue (empty.placements history) records ∧
      ∀ placement ∈ empty.placements history, ∃ record ∈ records, record.id = placement.id := by
  have written := Written.empty.performAll storable
  obtain ⟨present, untried⟩ := (consistent_empty.performAll_places enqueuing).mem_rows
  obtain ⟨records, read⟩ := written.exists_records fun row member wornOut =>
    wornOut 0 (Nat.zero_le _) (untried row member).attempts
  refine ⟨records, foundByValue read, fun placement member => ?_⟩
  obtain ⟨row, isRow, same⟩ := present placement member
  obtain ⟨record, isRecord, holds⟩ := record_of_mem_mapM read isRow
  exact ⟨record, isRecord, (Row.holds_of_record holds).id.symm.trans same⟩

end Records

/-- Identifiers are what their texts spell. The texts that are read are those that spell 16 bytes in one
of the forms, two of them are one identifier exactly if they spell the same bytes, and what is written
is the canonical form, which is read again. So in every history a lookup by an identifier finds the
rows whose job, the last one placed in them, has it; and of jobs that were only enqueued, all records
can be read and none is missing. -/
theorem identifiers_by_value :
    (∀ (text : String) (id : Uuid),
      Uuid.ofText? text = some id ↔ Uuid.Spells text.toList id.bytes) ∧
    (∀ text : String,
      (∃ id, Uuid.ofText? text = some id) ↔ ∃ bytes, Uuid.Spells text.toList bytes) ∧
    (∀ (left right : String) (first second : Uuid), Uuid.ofText? left = some first →
      Uuid.ofText? right = some second →
        (first = second ↔ ∃ bytes, Uuid.Spells left.toList bytes ∧
          Uuid.Spells right.toList bytes)) ∧
    (∀ (text : String) (id : Uuid), Uuid.IsCanonical text.toList id.bytes ↔ text = id.text) ∧
    (∀ id : Uuid, Uuid.ofText? id.text = some id) ∧
    ∀ history : List Operation,
      (∀ saga, (empty.performAll history).Finds (.saga saga)
        ((empty.performAll history).rowsOf (empty.placements history) fun job =>
          job.sagaId == some saga)) ∧
      (∀ correlation, (empty.performAll history).Finds (.correlation correlation)
        ((empty.performAll history).rowsOf (empty.placements history) fun job =>
          job.correlationId == correlation)) ∧
      ((∀ operation ∈ history, operation.isEnqueuing = true) →
        (∀ operation ∈ history, operation.IsStorable) →
        ∃ records, (empty.performAll history).FoundByValue (empty.placements history) records ∧
          ∀ placement ∈ empty.placements history,
            ∃ record ∈ records, record.id = placement.id) := by
  refine ⟨fun _ _ => Uuid.ofText?_eq_some_iff, fun _ => Uuid.exists_ofText?_iff,
    fun _ _ _ _ => Uuid.eq_iff_spells, fun _ _ => Uuid.isCanonical_iff, Uuid.ofText?_text,
    fun history => ⟨finds_saga history, finds_correlation history, ?_⟩⟩
  exact exists_records_of_enqueues

/-- Jobs of one saga are found together, however its identifier was spelled. -/
theorem identifiers_by_value_spelled :
    let plain := "67E5504410B1426F9247BB680E5FE0C8"
    let urn := "URN:uuid:67e55044-10b1-426f-9247-bb680e5fe0c8"
    let id := Uuid.ofNat 0x67e5504410b1426f9247bb680e5fe0c8
    let job := Job.new "reindex" [] Uuid.zero
    let history : List Operation :=
      [ .enqueue (job.inSaga id) Instant.epoch,
        .enqueue (job.withDebounceKey "k") Instant.epoch,
        .enqueue (((job.withDebounceKey "k").withCorrelationId id).inSaga id) Instant.epoch ]
    Uuid.ofText? plain = some id ∧ Uuid.ofText? urn = some id ∧
      (id = id ↔ ∃ bytes, Uuid.Spells plain.toList bytes ∧ Uuid.Spells urn.toList bytes) ∧
      (∀ operation ∈ history, operation.isEnqueuing = true) ∧
      (∀ operation ∈ history, operation.IsStorable) ∧
      (∃ records, (empty.performAll history).FoundByValue (empty.placements history) records ∧
        ∀ placement ∈ empty.placements history,
          ∃ record ∈ records, record.id = placement.id) ∧
      (empty.performAll history).count (.saga id) = 2 ∧
      (empty.performAll history).count (.correlation id) = 1 := by
  intro plain urn id job history
  have isPlain : Uuid.ofText? plain = some id := by decide +kernel
  have isUrn : Uuid.ofText? urn = some id := by decide +kernel
  have enqueuing : ∀ operation ∈ history, operation.isEnqueuing = true := by
    simp [history, Operation.isEnqueuing]
  have clock : Instant.epoch.IsStorable := Instant.isStorable_of_regular (by decide)
  have storable : ∀ operation ∈ history, operation.IsStorable := by
    simp [history, Operation.IsStorable, Job.IsStorable, clock, job, Job.inSaga, Job.new,
      Job.withDebounceKey, Job.withCorrelationId]
  obtain ⟨_, _, sameIf, _, _, found⟩ := identifiers_by_value
  exact ⟨isPlain, isUrn, sameIf plain urn id id isPlain isUrn, enqueuing, storable,
    (found history).2.2 enqueuing storable, by decide +kernel, by decide +kernel⟩

end Table

end DurableJobs.Store
