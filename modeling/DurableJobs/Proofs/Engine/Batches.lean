import DurableJobs.Proofs.Engine.Counts
import DurableJobs.Proofs.Engine.Waits
import DurableJobs.Proofs.Store.Reports

/-!
What a tick does with its batch.

The batch is made up of the first records that are due and whose pool has a slot. Of these a tick
claims all transactional ones and the first ones of each pool, as many as the pool has slots, and
gives up those whose type nobody executes. What it does with the earlier ones does not stand in the
way of the later ones: each claim hands out the record, and each failure is noted.
-/

set_option autoImplicit false

namespace DurableJobs

theorem Record.precedes_or_precedes {first second : Record} (different : first.id ≠ second.id) :
    first.Precedes second ∨ second.Precedes first := by
  simp only [Precedes]
  omega

/-- The record once it was claimed, at a time as the store keeps it. -/
def Record.started (record : Record) (time : Instant) : Record :=
  { record with state := .running, attempts := record.attempts + 1, updatedAt := time }

/-! ### Choices -/

def Registry.isOfKind (registry : Registry) (kind : ExecutorKind) (record : Record) : Bool :=
  registry.kindOf record.jobType == some kind

def Registry.isUnknown (registry : Registry) (record : Record) : Bool :=
  !registry.isRegistered record.jobType

/-- All transactional ones of the records are chosen, and the first ones of each pool, as many as it
has slots. -/
structure Lanes.Chooses (lanes : Lanes) (registry : Registry) (records chosen : List Record) :
    Prop where
  inOrder : chosen.Sublist records
  registered : ∀ record ∈ chosen, registry.isRegistered record.jobType = true
  transactional : chosen.filter (registry.isOfKind .transactional) =
    records.filter (registry.isOfKind .transactional)
  normal : chosen.filter (registry.isOfKind .normal) =
    (records.filter (registry.isOfKind .normal)).take lanes.normal
  longRunning : chosen.filter (registry.isOfKind .longRunning) =
    (records.filter (registry.isOfKind .longRunning)).take lanes.longRunning

namespace Lanes

/-- Of records of a kind, those for which there are slots. -/
def served (lanes : Lanes) : ExecutorKind → List Record → List Record
  | .transactional, records => records
  | .normal, records => records.take lanes.normal
  | .longRunning, records => records.take lanes.longRunning

variable {lanes left : Lanes} {taken kind : ExecutorKind}

theorem served_nil (lanes : Lanes) (kind : ExecutorKind) : lanes.served kind [] = [] := by
  cases kind <;> simp [served]

theorem served_cons (isLeft : lanes.take? kind = some left) (record : Record)
    (records : List Record) :
    lanes.served kind (record :: records) = record :: left.served kind records := by
  cases kind with
  | transactional => rfl
  | normal =>
      obtain ⟨slots, others⟩ := lanes
      cases slots with
      | zero => cases isLeft
      | succ slots => exact Option.some.inj isLeft ▸ rfl
  | longRunning =>
      obtain ⟨others, slots⟩ := lanes
      cases slots with
      | zero => cases isLeft
      | succ slots => exact Option.some.inj isLeft ▸ rfl

theorem served_of_take? (isLeft : lanes.take? taken = some left) (other : taken ≠ kind) :
    left.served kind = lanes.served kind := by
  have slots (pooled : kind ≠ .transactional) : left.count kind = lanes.count kind := by
    simpa [other] using count_take? isLeft pooled
  cases kind with
  | transactional => rfl
  | normal => exact funext fun records => congrArg records.take (slots (by decide))
  | longRunning => exact funext fun records => congrArg records.take (slots (by decide))

theorem served_of_full (full : lanes.take? kind = none) (records : List Record) :
    lanes.served kind records = [] := by
  obtain ⟨pooled, none⟩ := take?_eq_none_iff.mp full
  cases kind with
  | transactional => exact absurd rfl pooled
  | normal => exact (congrArg records.take none).trans List.take_zero
  | longRunning => exact (congrArg records.take none).trans List.take_zero

end Lanes

theorem claim_mem_iff {picks : List Pick} {record : Record} :
    .claim record ∈ picks ↔ record ∈ picks.filterMap Pick.claimed? := by
  rw [List.mem_filterMap]
  constructor
  · exact fun member => ⟨_, member, rfl⟩
  · rintro ⟨chosen, member, isRecord⟩
    cases chosen with
    | giveUp _ => cases isRecord
    | claim _ => exact Option.some.inj isRecord ▸ member

theorem giveUp_mem_iff {picks : List Pick} {record : Record} :
    .giveUp record ∈ picks ↔ record ∈ picks.filterMap Pick.givenUp? := by
  rw [List.mem_filterMap]
  constructor
  · exact fun member => ⟨_, member, rfl⟩
  · rintro ⟨chosen, member, isRecord⟩
    cases chosen with
    | claim _ => cases isRecord
    | giveUp _ => exact Option.some.inj isRecord ▸ member

section Picks

variable (registry : Registry) (lanes : Lanes) (records : List Record)

/-- Each claimed record of a kind takes a slot of it, so the first ones have what there is. -/
theorem filter_claimed_pick (kind : ExecutorKind) :
    ((pick registry lanes records).filterMap Pick.claimed?).filter (registry.isOfKind kind) =
      lanes.served kind (records.filter (registry.isOfKind kind)) := by
  induction records generalizing lanes with
  | nil => exact (lanes.served_nil kind).symm
  | cons first rest ih =>
      rw [pick]
      split
      · next unknown =>
          have other : registry.isOfKind kind first = false := by
            simp [Registry.isOfKind, unknown]
          rw [List.filter_cons_of_neg (by simp [other])]
          exact ih lanes
      · next taken isTaken =>
          have isFirst : registry.isOfKind kind first = decide (taken = kind) := by
            simp [Registry.isOfKind, isTaken, beq_eq_decide]
          rw [List.filter_cons, isFirst]
          split
          · next left isLeft =>
              rw [List.filterMap_cons, Pick.claimed?, List.filter_cons, isFirst, ih left]
              by_cases same : taken = kind
              · subst same
                simp [Lanes.served_cons isLeft]
              · simp [same, Lanes.served_of_take? isLeft same]
          · next isFull =>
              rw [ih lanes]
              by_cases same : taken = kind
              · subst same
                rw [Lanes.served_of_full isFull, Lanes.served_of_full isFull]
              · simp [same]

theorem pick_chooses :
    lanes.Chooses registry records ((pick registry lanes records).filterMap Pick.claimed?) where
  inOrder := (claimed_sublist _).trans (map_record_pick_sublist registry lanes records)
  registered := fun _ member => isRegistered_of_claim_mem_pick (claim_mem_iff.mpr member)
  transactional := filter_claimed_pick registry lanes records .transactional
  normal := filter_claimed_pick registry lanes records .normal
  longRunning := filter_claimed_pick registry lanes records .longRunning

theorem givenUp_pick :
    (pick registry lanes records).filterMap Pick.givenUp? = records.filter registry.isUnknown := by
  induction records generalizing lanes with
  | nil => rfl
  | cons first rest ih =>
      rw [pick]
      split
      · next unknown =>
          have isUnknown : registry.isUnknown first = true := by
            simp [Registry.isUnknown, Registry.isRegistered, unknown]
          rw [List.filter_cons_of_pos isUnknown, List.filterMap_cons, Pick.givenUp?, ih lanes]
      · next taken isTaken =>
          have known : registry.isUnknown first = false := by
            simp [Registry.isUnknown, Registry.isRegistered, isTaken]
          rw [List.filter_cons_of_neg (by simp [known])]
          split
          · next left _ => exact ih left
          · exact ih lanes

end Picks

/-- What a pick does to the row of its record. -/
def Pick.edit (now : Instant) : Pick → Store.Row → Store.Row
  | .claim _, row => row.claim now
  | .giveUp record, row => row.fail record.nextFailures (unknownTypeMessage record.jobType) now

@[simp] theorem Pick.id_edit (pick : Pick) (now : Instant) (row : Store.Row) :
    (pick.edit now row).id = row.id := by
  cases pick <;> rfl

namespace Store

/-! ### Rows -/

theorem exists_mapM_of_readable {rows : List Row}
    (readable : ∀ row ∈ rows, ∃ record, row.record = .ok record) :
    ∃ records, rows.mapM Row.record = .ok records := by
  induction rows with
  | nil => exact ⟨[], rfl⟩
  | cons row rest ih =>
      obtain ⟨record, isRecord⟩ := readable row List.mem_cons_self
      obtain ⟨records, areRecords⟩ := ih fun other later =>
        readable other (List.mem_cons_of_mem _ later)
      refine ⟨record :: records, ?_⟩
      rw [List.mapM_cons, isRecord, areRecords]
      rfl

/-- A claimed row is read as the record that was pending, running and with one more attempt. -/
theorem Row.record_claim {row : Row} {record : Record} {now time : Instant}
    (isRecord : row.record = .ok record) (few : record.attempts < Record.countLimit)
    (clock : Instant.ofMillis? now.millis = some time) :
    (row.claim now).record = .ok (record.started time) := by
  have holds := Row.holds_of_record isRecord
  have increased : (row.claim now).attempts = .integer (record.attempts + 1 : Nat) := by
    rw [Row.attempts_claim, holds.attempts.1, Cell.increment_integer holds.attempts.2]
  exact Row.record_of_holds
    { holds with
      state := rfl
      attempts := ⟨increased, few⟩
      updatedAt := ⟨now.millis, rfl, clock⟩ }

namespace Table

/-! ### Batches -/

/-- The record is pending and due, and the pool of its type, if it has one, has a slot. Times are
compared by the millisecond. -/
structure IsEligible (table : Table) (registry : Registry) (lanes : Lanes) (now : Instant)
    (record : Record) : Prop where
  waiting : table.IsWaiting record
  due : record.notBefore.millis ≤ now.millis
  admitted : ¬ lanes.IsSpent registry [] record.jobType

/-- The records are the first ones that are eligible, as many as a batch holds. -/
structure IsBatch (table : Table) (registry : Registry) (lanes : Lanes) (batch : Nat)
    (now : Instant) (records : List Record) : Prop where
  sorted : records.Pairwise Record.Precedes
  eligible : ∀ record ∈ records, table.IsEligible registry lanes now record
  length_le : records.length ≤ batch
  first : ∀ record, table.IsEligible registry lanes now record →
    record ∈ records ∨ records.length = batch ∧ ∀ other ∈ records, other.Precedes record

/-- The rows stand in order, numbered as the store numbers them. Each pending one can be read, and
its counts are below the largest one. -/
structure Startable (table : Table) : Prop where
  ordered : table.Ordered
  numbered : ∀ row ∈ table.rows, 0 < row.id ∧ row.id ≤ 0x7fffffffffffffff
  readable : ∀ row ∈ table.rows, row.state = .pending → ∃ record, row.record = .ok record ∧
    record.attempts < Record.countLimit ∧ record.failures < Record.countLimit

/-- The tables that operations leave are startable, as long as no count of a pending record has come
to the largest one. -/
theorem Written.startable {table : Table} (written : Written table)
    (counted : ∀ row ∈ table.rows, row.state = .pending → ∃ attempts failures : Nat,
      row.attempts = .integer attempts ∧ row.failures = .integer failures ∧
        attempts < Record.countLimit ∧ failures < Record.countLimit) : table.Startable where
  ordered := written.reachable.consistent.ordered
  numbered := written.reachable.numbered.range
  readable := by
    intro row member pending
    obtain ⟨attempts, failures, isAttempts, isFailures, fewAttempts, fewFailures⟩ :=
      counted row member pending
    have fresh : ¬ row.IsWornOut := fun wornOut =>
      wornOut attempts (Nat.le_of_lt fewAttempts) isAttempts
    obtain ⟨record, holds⟩ := (written.isLegible row member).holds fresh
    have sameAttempts := Cell.integer.inj (holds.attempts.1.symm.trans isAttempts)
    have sameFailures := Cell.integer.inj (holds.failures.1.symm.trans isFailures)
    exact ⟨record, Row.record_of_holds holds, by omega, by omega⟩

section Batch

variable {table : Table} {registry : Registry} {lanes : Lanes} {batch : Nat} {now : Instant}
  {records : List Record}

theorem isReady_iff_isEligible (distinct : registry.Distinct) {record : Record} :
    table.IsReady now (lanes.excluded registry) record ↔
      table.IsEligible registry lanes now record := by
  rw [isReady_iff_millis, distinct.mem_excluded_iff]
  exact ⟨fun ⟨waiting, due, admitted⟩ => ⟨waiting, due, admitted⟩,
    fun eligible => ⟨eligible.waiting, eligible.due, eligible.admitted⟩⟩

theorem IsWaiting.eq_of_id_eq {first second : Record} (isFirst : table.IsWaiting first)
    (isSecond : table.IsWaiting second) (same : first.id = second.id) : first = second := by
  obtain ⟨row, found, _, isRecord⟩ := isFirst
  obtain ⟨other, isOther, _, isOtherRecord⟩ := isSecond
  obtain rfl := Option.some.inj (found.symm.trans (same ▸ isOther))
  exact Except.ok.inj (isRecord.symm.trans isOtherRecord)

theorem IsBatch.nodup (isBatch : table.IsBatch registry lanes batch now records) :
    records.Nodup := by
  refine isBatch.sorted.imp fun precedes => ?_
  rintro rfl
  exact precedes.asymm precedes

theorem exists_not_mem_of_length_lt {Item : Type} {items others : List Item}
    (distinct : items.Nodup) (longer : others.length < items.length) :
    ∃ item ∈ items, item ∉ others := by
  by_contra all
  simp only [not_exists, not_and, not_not] at all
  exact Nat.not_lt.mpr (distinct.length_le_of_subset all) longer

/-- What is in one batch is in every other: were it left out, the other batch would be full of
records that precede it, and one of these would be left out of the first. -/
theorem IsBatch.mem_of_mem {others : List Record}
    (isBatch : table.IsBatch registry lanes batch now records)
    (isOther : table.IsBatch registry lanes batch now others) {record : Record}
    (member : record ∈ records) : record ∈ others := by
  by_contra absent
  obtain ⟨full, precede⟩ :=
    (isOther.first record (isBatch.eligible record member)).resolve_left absent
  -- The other batch is full without the record, so with it there is one that this batch lacks.
  have longer : records.length < (record :: others).length := by
    rw [List.length_cons, full]
    exact Nat.lt_succ_of_le isBatch.length_le
  obtain ⟨left, listed, unlisted⟩ :=
    exists_not_mem_of_length_lt (List.nodup_cons.mpr ⟨absent, isOther.nodup⟩) longer
  have isLeft : left ∈ others :=
    (List.mem_cons.mp listed).resolve_left fun same => unlisted (same ▸ member)
  obtain ⟨_, ahead⟩ := (isBatch.first left (isOther.eligible left isLeft)).resolve_left unlisted
  exact (precede left isLeft).asymm (ahead record member)

theorem IsBatch.unique {others : List Record}
    (isBatch : table.IsBatch registry lanes batch now records)
    (isOther : table.IsBatch registry lanes batch now others) : others = records := by
  have permuted : others.Perm records :=
    (List.perm_ext_iff_of_nodup isOther.nodup isBatch.nodup).mpr fun record =>
      ⟨isOther.mem_of_mem isBatch, isBatch.mem_of_mem isOther⟩
  exact permuted.eq_of_pairwise (fun first second _ _ precedes follows =>
    absurd follows precedes.asymm) isOther.sorted isBatch.sorted

theorem length_le_of_numbered {rows : List Row}
    (sorted : rows.Pairwise fun left right => left.id < right.id) {low high : Int}
    (range : low ≤ high) (inside : ∀ row ∈ rows, low < row.id ∧ row.id ≤ high) :
    (rows.length : Int) ≤ high - low := by
  induction rows generalizing low with
  | nil => simpa using range
  | cons row rest ih =>
      obtain ⟨least, restSorted⟩ := List.pairwise_cons.mp sorted
      have here := inside row List.mem_cons_self
      have others := ih restSorted here.2 fun other later =>
        ⟨least other later, (inside other (List.mem_cons_of_mem _ later)).2⟩
      rw [List.length_cons]
      omega

theorem Ordered.isBatch_of_ready (ordered : table.Ordered) (distinct : registry.Distinct)
    (fits : table.rows.length ≤ 0x7fffffffffffffff)
    (read : table.ready now batch (lanes.excluded registry) = .ok records) :
    table.IsBatch registry lanes batch now records := by
  obtain ⟨sorted, _, isReady⟩ := ordered.ready_spec read
  refine ⟨sorted, fun record member => (isReady_iff_isEligible distinct).mp (isReady record member),
    length_ready_le read, fun record eligible => ?_⟩
  have ready := (isReady_iff_isEligible distinct).mpr eligible
  by_cases member : record ∈ records
  · exact .inl member
  · refine .inr ⟨(mem_ready_or_full fits read ready).resolve_left member, fun other isOther => ?_⟩
    have different : other.id ≠ record.id := fun same =>
      member ((isReady other isOther).isWaiting.eq_of_id_eq eligible.waiting same ▸ isOther)
    rcases Record.precedes_or_precedes different with precedes | follows
    · exact precedes
    · exact absurd ((ordered.sublist_of_precedes read ready isOther follows).mem List.mem_cons_self)
        member

theorem Startable.fits (startable : table.Startable) :
    table.rows.length ≤ 0x7fffffffffffffff := by
  have few := length_le_of_numbered startable.ordered (by decide) startable.numbered
  omega

theorem Startable.exists_ready (startable : table.Startable) (now : Instant) (batch : Nat)
    (excluded : List String) :
    ∃ records, table.ready now batch excluded = .ok records := by
  refine exists_mapM_of_readable fun row member => ?_
  obtain ⟨admitted, _⟩ := List.mem_filter.mp (List.take_subset _ _ member)
  obtain ⟨isRow, pending⟩ := mem_admitted_pending.mp admitted
  obtain ⟨record, isRecord, _⟩ := startable.readable row isRow pending
  exact ⟨record, isRecord⟩

end Batch

/-! ### Picks that all succeed -/

theorem nextDue_of_integers {table : Table}
    (integers : ∀ row ∈ table.rows, row.state = .pending →
      ∃ millis, row.notBefore = .integer millis) :
    ∃ due, table.nextDue = .ok due := by
  rw [nextDue]
  split
  · exact ⟨none, rfl⟩
  · next head rest cells =>
      have least := foldl_smaller_mem head rest
      rw [← cells] at least
      obtain ⟨row, member, isLeast⟩ := List.mem_map.mp least
      obtain ⟨isRow, pending⟩ := List.mem_filter.mp member
      obtain ⟨millis, isMillis⟩ := integers row isRow (beq_iff_eq.mp pending)
      rw [← isLeast, isMillis]
      exact ⟨Instant.ofMillis? millis, rfl⟩

/-- Each pick does to the row of its record what it is to do, and no other row changes. -/
structure Carried (table : Table) (picks : List Pick) (now : Instant) (after : Table) : Prop where
  edited : ∀ chosen ∈ picks,
    after.find? chosen.record.id = (table.find? chosen.record.id).map (chosen.edit now)
  unchanged : ∀ id, id ∉ picks.map (fun chosen => chosen.record.id) →
    after.find? id = table.find? id

section Picks

variable {table after : Table} {now time : Instant} {first : Pick} {rest : List Pick} {row : Row}

theorem Carried.cons (found : table.find? first.record.id = some row)
    (fresh : first.record.id ∉ rest.map fun chosen => chosen.record.id)
    (carried : Carried (table.put (first.edit now row)) rest now after) :
    Carried table (first :: rest) now after := by
  have here : (first.edit now row).id = first.record.id :=
    (first.id_edit now row).trans (id_of_find? found)
  constructor
  · intro chosen member
    rcases List.mem_cons.mp member with rfl | later
    · rw [carried.unchanged _ fresh, find?_put, here, if_pos rfl, found]
      rfl
    · have different : chosen.record.id ≠ first.record.id := fun same =>
        fresh (List.mem_map.mpr ⟨chosen, later, same⟩)
      rw [carried.edited chosen later, find?_put, here, if_neg different]
  · intro id absent
    rw [List.map_cons, List.mem_cons, not_or] at absent
    rw [carried.unchanged id absent.2, find?_put, here, if_neg absent.1]

/-- What a tick reports of a record that it gives up. -/
def gaveUp (record : Record) : Record × Settlement :=
  (record, .deadLettered (unknownTypeMessage record.jobType))

/-- The first pick of a record that waits succeeds, whatever comes after it. -/
theorem Ordered.applyPicks_first (ordered : table.Ordered)
    (clock : Instant.ofMillis? now.millis = some time)
    (found : table.find? first.record.id = some row) (pending : row.state = .pending)
    (isRecord : row.record = .ok first.record) (few : first.record.attempts < Record.countLimit)
    {claimed : List Record} {unknown : List (Record × Settlement)}
    (isRest : (table.put (first.edit now row)).applyPicks now rest =
      (.ok (claimed, unknown), after)) :
    table.applyPicks now (first :: rest) =
      (.ok ((first.claimed?.map (Record.started · time)).toList ++ claimed,
        (first.givenUp?.map gaveUp).toList ++ unknown), after) := by
  cases first with
  | giveUp record =>
      rcases ordered.markFailed_cases record.id record.nextFailures
          (unknownTypeMessage record.jobType) now with ⟨missing, _⟩ | ⟨other, isOther, answer⟩
      · cases found.symm.trans missing
      · obtain rfl := Option.some.inj (found.symm.trans isOther)
        rw [Pick.edit] at isRest
        simp only [Table.applyPicks, answer, isRest]
        rfl
  | claim record =>
      rcases ordered.claim_cases record.id now with ⟨never, _⟩ | ⟨other, isOther, _, answer⟩
      · exact absurd pending (never row found)
      · obtain rfl := Option.some.inj (found.symm.trans isOther)
        rw [Row.record_claim isRecord few clock] at answer
        rw [Pick.edit] at isRest
        simp only [Table.applyPicks, answer, Except.map, isRest]
        rfl

/-- Records that wait under different ids are all claimed or given up as they were picked. -/
theorem Ordered.applyPicks_carried (ordered : table.Ordered)
    (clock : Instant.ofMillis? now.millis = some time) {picks : List Pick}
    (distinct : (picks.map fun chosen => chosen.record.id).Nodup)
    (waiting : ∀ chosen ∈ picks, table.IsWaiting chosen.record)
    (few : ∀ chosen ∈ picks, chosen.record.attempts < Record.countLimit) :
    ∃ after, table.applyPicks now picks =
        (.ok ((picks.filterMap Pick.claimed?).map (Record.started · time),
          (picks.filterMap Pick.givenUp?).map gaveUp), after) ∧
      Carried table picks now after := by
  induction picks generalizing table with
  | nil => exact ⟨table, rfl, by simp, fun _ _ => rfl⟩
  | cons first rest ih =>
      rw [List.map_cons, List.nodup_cons] at distinct
      obtain ⟨fresh, restDistinct⟩ := distinct
      obtain ⟨row, found, pending, isRecord⟩ := waiting first List.mem_cons_self
      -- The others have other ids, so they still wait once the first one is dealt with.
      have same : ∀ id, id ≠ first.record.id →
          (table.put (first.edit now row)).find? id = table.find? id := by
        intro id different
        rw [find?_put, Pick.id_edit, id_of_find? found, if_neg different]
      obtain ⟨after, isRest, carried⟩ := ih (ordered.put (first.edit now row)) restDistinct
        (isWaiting_of_same fresh waiting same)
        fun chosen later => few chosen (List.mem_cons_of_mem _ later)
      refine ⟨after, ?_, carried.cons found fresh⟩
      have fewFirst := few first List.mem_cons_self
      rw [ordered.applyPicks_first clock found pending isRecord fewFirst isRest]
      cases first <;> rfl

end Picks

/-! ### Ticks -/

/-- What a tick does with the records of its batch: those that it chooses are claimed in order and
handed out as they are then, those of an unknown type are given up, and no other row changes. -/
structure BatchApplied (table : Table) (registry : Registry) (lanes : Lanes) (now time : Instant)
    (records chosen : List Record) (tick : Tick) (after : Table) : Prop where
  chooses : lanes.Chooses registry records chosen
  claimed : tick.claimed = chosen.map (Record.started · time)
  unknown : tick.unknown = (records.filter registry.isUnknown).map gaveUp
  started : ∀ record ∈ chosen, ∃ row, table.find? record.id = some row ∧
    row.record = .ok record ∧ after.find? record.id = some (row.claim now)
  givenUp : ∀ record ∈ records, registry.isUnknown record = true →
    ∃ row, table.find? record.id = some row ∧ row.record = .ok record ∧
      after.find? record.id =
        some (row.fail (record.failures + 1) (unknownTypeMessage record.jobType) now)
  unchanged : ∀ id, (∀ record ∈ chosen, record.id ≠ id) →
    (∀ record ∈ records, registry.isUnknown record = true → record.id ≠ id) →
      after.find? id = table.find? id

section Ticks

variable {table after : Table} {registry : Registry} {lanes : Lanes} {now time : Instant}
  {records : List Record} {picks : List Pick} {tick : Tick}

theorem Startable.few (startable : table.Startable) {record : Record}
    (waiting : table.IsWaiting record) :
    record.attempts < Record.countLimit ∧ record.failures < Record.countLimit := by
  obtain ⟨row, found, pending, isRecord⟩ := waiting
  obtain ⟨other, isOther, few⟩ := startable.readable row (mem_of_find? found) pending
  rwa [Except.ok.inj (isRecord.symm.trans isOther)]

theorem Carried.find?_of_mem (carried : Carried table picks now after) {chosen : Pick}
    (member : chosen ∈ picks) (waiting : table.IsWaiting chosen.record) :
    ∃ row, table.find? chosen.record.id = some row ∧ row.record = .ok chosen.record ∧
      after.find? chosen.record.id = some (chosen.edit now row) := by
  obtain ⟨row, found, _, isRecord⟩ := waiting
  refine ⟨row, found, isRecord, ?_⟩
  rw [carried.edited chosen member, found]
  rfl

/-- No row that was picked is pending any more, so the rest can tell when the next one is due. -/
theorem Startable.exists_nextDue (startable : table.Startable)
    (carried : Carried table picks now after) (ordered : after.Ordered) :
    ∃ due, after.nextDue = .ok due := by
  refine nextDue_of_integers fun row member pending => ?_
  have found := ordered.find?_of_mem member
  by_cases picked : row.id ∈ picks.map fun chosen => chosen.record.id
  · obtain ⟨chosen, isChosen, same⟩ := List.mem_map.mp picked
    rw [← same, carried.edited chosen isChosen] at found
    obtain ⟨old, _, rfl⟩ := Option.map_eq_some_iff.mp found
    cases chosen <;> cases pending
  · rw [carried.unchanged row.id picked] at found
    obtain ⟨record, isRecord, _⟩ := startable.readable row (mem_of_find? found) pending
    obtain ⟨millis, isMillis, _⟩ := (Row.holds_of_record isRecord).notBefore
    exact ⟨millis, isMillis⟩

theorem Startable.batchApplied (startable : table.Startable)
    (waiting : ∀ record ∈ records, table.IsWaiting record)
    (carried : Carried table (pick registry lanes records) now after)
    (claimed : tick.claimed =
      ((pick registry lanes records).filterMap Pick.claimed?).map (Record.started · time))
    (unknown : tick.unknown = ((pick registry lanes records).filterMap Pick.givenUp?).map gaveUp) :
    BatchApplied table registry lanes now time records
      ((pick registry lanes records).filterMap Pick.claimed?) tick after where
  chooses := pick_chooses registry lanes records
  claimed := claimed
  unknown := by rw [unknown, givenUp_pick]
  started := by
    intro record member
    exact carried.find?_of_mem (claim_mem_iff.mpr member)
      (waiting record ((pick_chooses registry lanes records).inOrder.mem member))
  givenUp := by
    intro record member isUnknown
    have picked : .giveUp record ∈ pick registry lanes records := by
      rw [giveUp_mem_iff, givenUp_pick]
      exact List.mem_filter.mpr ⟨member, isUnknown⟩
    obtain ⟨row, found, isRecord, moved⟩ := carried.find?_of_mem picked (waiting record member)
    have counted : record.nextFailures = record.failures + 1 :=
      Nat.min_eq_left (startable.few (waiting record member)).2
    refine ⟨row, found, isRecord, ?_⟩
    rw [← counted]
    exact moved
  unchanged := by
    intro id unclaimed notGivenUp
    refine carried.unchanged id fun picked => ?_
    obtain ⟨chosen, member, same⟩ := List.mem_map.mp picked
    cases chosen with
    | claim record => exact unclaimed record (claim_mem_iff.mp member) same
    | giveUp record =>
        rw [giveUp_mem_iff, givenUp_pick] at member
        obtain ⟨listed, isUnknown⟩ := List.mem_filter.mp member
        exact notGivenUp record listed isUnknown same

/-- A tick always succeeds, and applies the one batch that there is. -/
theorem Startable.tick_applies_batch (startable : table.Startable) (distinct : registry.Distinct)
    (clock : now.IsStorable) (lanes : Lanes) (batch : Nat) :
    ∃ records time chosen tick after,
      (∀ others, table.IsBatch registry lanes batch now others ↔ others = records) ∧
      Instant.ofMillis? now.millis = some time ∧
      table.tick registry lanes batch now = (.ok tick, after) ∧
      BatchApplied table registry lanes now time records chosen tick after := by
  obtain ⟨time, isTime⟩ := clock
  obtain ⟨records, read⟩ := startable.exists_ready now batch (lanes.excluded registry)
  have isBatch := startable.ordered.isBatch_of_ready distinct startable.fits read
  have waiting := fun record member => (isBatch.eligible record member).waiting
  obtain ⟨ids, ready⟩ := startable.ordered.picks_of_ready registry lanes read
  obtain ⟨after, answer, carried⟩ := startable.ordered.applyPicks_carried isTime ids
    (fun chosen member => (ready chosen member).isWaiting)
    fun chosen member => (startable.few (ready chosen member).isWaiting).1
  have ordered : after.Ordered := .of_answer (startable.ordered.applyPicks now _) answer
  obtain ⟨due, isDue⟩ := startable.exists_nextDue carried ordered
  obtain ⟨tick, isTick, claimed, unknown⟩ : ∃ tick : Tick,
      table.tick registry lanes batch now = (.ok tick, after) ∧
        tick.claimed =
          ((pick registry lanes records).filterMap Pick.claimed?).map (Record.started · time) ∧
        tick.unknown = ((pick registry lanes records).filterMap Pick.givenUp?).map gaveUp := by
    simp only [Table.tick, read, answer, isDue]
    exact ⟨_, rfl, rfl, rfl⟩
  refine ⟨records, time, _, tick, after, fun others => ⟨isBatch.unique, ?_⟩, isTime, isTick,
    startable.batchApplied waiting carried claimed unknown⟩
  rintro rfl
  exact isBatch

end Ticks

theorem written_crowded : crowded.Written := by
  have retired : (Operation.enqueue ((Job.new "retired" [118] Uuid.zero).withPriority .critical)
      Instant.epoch).IsStorable :=
    ⟨by simp [Job.IsStorable, Job.new, Job.withPriority], isWhole_epoch.isStorable⟩
  have reindex : (Operation.enqueue (Job.new "reindex" [119] Uuid.zero)
      Instant.epoch).IsStorable :=
    ⟨by simp [Job.IsStorable, Job.new], isWhole_epoch.isStorable⟩
  exact (Written.empty.perform retired).perform reindex

theorem startable_crowded : crowded.Startable := by
  refine written_crowded.startable fun row member _ => ⟨0, 0, ?_, ?_, by decide, by decide⟩
  · revert row
    decide +kernel
  · revert row
    decide +kernel

/-- Of two records in a batch, one is given up and the other is claimed. -/
theorem tick_applies_batch_crowded :
    ∃ (registry : Registry) (records chosen : List Record) (time : Instant) (tick : Tick)
        (after : Table),
      crowded.Startable ∧ registry.Distinct ∧ Instant.epoch.IsStorable ∧
      crowded.IsBatch registry ⟨1, 1⟩ 32 Instant.epoch records ∧
      BatchApplied crowded registry ⟨1, 1⟩ Instant.epoch time records chosen tick after ∧
      chosen.length = 1 ∧ (records.filter registry.isUnknown).length = 1 := by
  let registry : Registry := ⟨[("reindex", .normal)]⟩
  have distinct : registry.Distinct := List.nodup_singleton "reindex"
  obtain ⟨records, time, chosen, tick, after, isBatch, _, answer, applied⟩ :=
    startable_crowded.tick_applies_batch distinct isWhole_epoch.isStorable ⟨1, 1⟩ 32
  obtain ⟨_, _, isSame, counts⟩ :
      ∃ tick after, crowded.tick registry ⟨1, 1⟩ 32 Instant.epoch = (.ok tick, after) ∧
        (tick.claimed.length == 1 && tick.unknown.length == 1) = true := by
    refine exists_of_tick (fun tick _ => tick.claimed.length == 1 && tick.unknown.length == 1) ?_
    simp only [Table.tick, Table.ready, admitted_crowded]
    decide +kernel
  rw [answer] at isSame
  obtain ⟨rfl, rfl⟩ : tick = _ ∧ after = _ :=
    ⟨Except.ok.inj (Prod.mk.inj isSame).1, (Prod.mk.inj isSame).2⟩
  rw [applied.claimed, applied.unknown, List.length_map, List.length_map] at counts
  exact ⟨registry, records, chosen, time, tick, after, startable_crowded, distinct,
    isWhole_epoch.isStorable, (isBatch records).mpr rfl, applied, by simpa using counts⟩

end Table

end Store

end DurableJobs
