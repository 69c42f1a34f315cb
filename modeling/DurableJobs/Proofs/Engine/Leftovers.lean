import DurableJobs.Proofs.Engine.Pools
import DurableJobs.Proofs.Engine.Urgency

/-!
What a tick leaves behind.

A tick looks at no more of the ready records than a batch holds. It passes over those whose pool has
no slot left; of the others it leaves some only if there are more than a batch. Then it asks to be
repeated at once, but only if it claimed something. So a batch in which nobody executes any type
stands in the way of what is ready behind it.
-/

set_option autoImplicit false

namespace DurableJobs

namespace Lanes

theorem take?_eq_none_iff {lanes : Lanes} {kind : ExecutorKind} :
    lanes.take? kind = none ↔ kind ≠ .transactional ∧ lanes.count kind = 0 := by
  cases kind <;> simp [take?, count]

/-- The type is executed in a pool that has no slot left once each claimed record has one. -/
def IsSpent (lanes : Lanes) (registry : Registry) (claimed : List Record) (jobType : String) :
    Prop :=
  ∃ kind, registry.kindOf jobType = some kind ∧ kind ≠ .transactional ∧
    lanes.count kind ≤ registry.countOf kind claimed

end Lanes

namespace Registry

/-- The types that a tick leaves out are those of the pools without a free slot. -/
theorem Distinct.mem_excluded_iff {registry : Registry} (distinct : registry.Distinct)
    {lanes : Lanes} {jobType : String} :
    jobType ∈ lanes.excluded registry ↔ lanes.IsSpent registry [] jobType := by
  rw [distinct.mem_excluded_iff_kindOf]
  constructor
  · rintro (⟨isKind, full⟩ | ⟨isKind, full⟩)
    · exact ⟨.normal, isKind, by simp, Nat.le_of_eq full⟩
    · exact ⟨.longRunning, isKind, by simp, Nat.le_of_eq full⟩
  · rintro ⟨kind, isKind, pooled, full⟩
    have empty : lanes.count kind = 0 := Nat.le_zero.mp full
    cases kind with
    | transactional => exact absurd rfl pooled
    | normal => exact .inl ⟨isKind, empty⟩
    | longRunning => exact .inr ⟨isKind, empty⟩

end Registry

theorem Lanes.IsSpent.mono {lanes : Lanes} {registry : Registry} {jobType : String}
    (spent : lanes.IsSpent registry [] jobType) (claimed : List Record) :
    lanes.IsSpent registry claimed jobType := by
  obtain ⟨kind, isKind, pooled, full⟩ := spent
  exact ⟨kind, isKind, pooled, Nat.le_trans full (Nat.zero_le _)⟩

theorem Lanes.IsSpent.of_types {lanes : Lanes} {registry : Registry} {jobType : String}
    {left right : List Record} (spent : lanes.IsSpent registry left jobType)
    (sameTypes : left.map Record.jobType = right.map Record.jobType) :
    lanes.IsSpent registry right jobType := by
  obtain ⟨kind, isKind, pooled, full⟩ := spent
  exact ⟨kind, isKind, pooled, countOf_congr sameTypes ▸ full⟩

/-! ### Picks -/

def Pick.givenUp? : Pick → Option Record
  | .giveUp record => some record
  | .claim _ => none

/-- A tick picks each record of its batch, unless the slots of its pool are used up. -/
theorem mem_pick_or_isSpent {registry : Registry} {lanes : Lanes} {records : List Record}
    {record : Record} (member : record ∈ records) :
    record ∈ (pick registry lanes records).map Pick.record ∨
      lanes.IsSpent registry ((pick registry lanes records).filterMap Pick.claimed?)
        record.jobType := by
  induction records generalizing lanes with
  | nil => cases member
  | cons first rest ih =>
      rw [pick]
      split
      · rcases List.mem_cons.mp member with rfl | later
        · exact .inl List.mem_cons_self
        · exact (ih later).imp_left (List.mem_cons_of_mem _)
      · next taken isTaken =>
          split
          · next left isLeft =>
              rcases List.mem_cons.mp member with rfl | later
              · exact .inl List.mem_cons_self
              · refine (ih later).imp (List.mem_cons_of_mem _) ?_
                rintro ⟨kind, isKind, pooled, full⟩
                refine ⟨kind, isKind, pooled, ?_⟩
                have slots := Lanes.count_take? isLeft pooled
                rw [Registry.countOf] at full
                rw [Registry.countOf, List.filterMap_cons, Pick.claimed?, List.countP_cons, isTaken]
                by_cases same : taken = kind <;> simp [same] at slots ⊢ <;> omega
          · next isFull =>
              rcases List.mem_cons.mp member with rfl | later
              · obtain ⟨pooled, empty⟩ := Lanes.take?_eq_none_iff.mp isFull
                exact .inr ⟨taken, isTaken, pooled, empty ▸ Nat.zero_le _⟩
              · exact ih later

/-- When each pool has a free slot and nothing is claimed, nobody executes any of the types. -/
theorem pick_eq_map_giveUp {registry : Registry} {lanes : Lanes} {records : List Record}
    (free : ∀ record ∈ records, ¬ lanes.IsSpent registry [] record.jobType)
    (unclaimed : (pick registry lanes records).filterMap Pick.claimed? = []) :
    pick registry lanes records = records.map .giveUp := by
  induction records with
  | nil => rfl
  | cons first rest ih =>
      rw [pick] at unclaimed ⊢
      split at unclaimed
      · next unknown =>
          rw [List.map_cons]
          exact congrArg _ (ih (fun record later => free record (List.mem_cons_of_mem _ later))
            unclaimed)
      · next kind isKind =>
          split at unclaimed
          · simp [Pick.claimed?] at unclaimed
          · next isFull =>
              obtain ⟨pooled, empty⟩ := Lanes.take?_eq_none_iff.mp isFull
              exact absurd ⟨kind, isKind, pooled, Nat.le_of_eq empty⟩ (free first List.mem_cons_self)

namespace Store.Table

/-! ### Ready records -/

/-- A row is due by the milliseconds of its time, which are all that the store compares. -/
theorem isDue_iff_of_record {row : Row} {now : Instant} {excluded : List String} {record : Record}
    (isRecord : row.record = .ok record) :
    isDue now excluded row = true ↔
      record.notBefore.millis ≤ now.millis ∧ record.jobType ∉ excluded := by
  have holds := Row.holds_of_record isRecord
  obtain ⟨stored, isStored, isInstant⟩ := holds.notBefore
  have cell : row.notBefore = .integer stored := isStored
  rw [Instant.millis_of_ofMillis? isInstant, isDue, Bool.and_eq_true, cell, Cell.compare,
    bne_iff_ne, ne_eq, Std.compare_eq_gt, Int.not_lt, List.all_eq_true]
  refine and_congr_right fun _ => ⟨fun others member => ?_, fun absent jobType member => ?_⟩
  · simpa [holds.jobType] using others _ member
  · rw [holds.jobType, bne_iff_ne]
    rintro ⟨rfl⟩
    exact absent member

theorem isReady_iff_millis {table : Table} {now : Instant} {excluded : List String}
    {record : Record} :
    table.IsReady now excluded record ↔
      table.IsWaiting record ∧ record.notBefore.millis ≤ now.millis ∧
        record.jobType ∉ excluded := by
  constructor
  · rintro ⟨row, found, pending, isRecord, isDue⟩
    exact ⟨⟨row, found, pending, isRecord⟩, (isDue_iff_of_record isRecord).mp isDue⟩
  · rintro ⟨⟨row, found, pending, isRecord⟩, isDue⟩
    exact ⟨row, found, pending, isRecord, (isDue_iff_of_record isRecord).mpr isDue⟩

theorem IsWaiting.millis_le_iff {table : Table} {now : Instant} {record : Record}
    (waiting : table.IsWaiting record) (regular : now.isLeap = false) :
    record.notBefore.millis ≤ now.millis ↔ record.notBefore ≤ now := by
  obtain ⟨row, _, _, isRecord⟩ := waiting
  obtain ⟨stored, _, isInstant⟩ := (Row.holds_of_record isRecord).notBefore
  rw [Instant.millis_of_ofMillis? isInstant, Instant.le_iff_of_ofMillis? isInstant regular]

theorem isReady_iff {table : Table} {now : Instant} {excluded : List String} {record : Record}
    (regular : now.isLeap = false) :
    table.IsReady now excluded record ↔
      table.IsWaiting record ∧ record.notBefore ≤ now ∧ record.jobType ∉ excluded := by
  rw [isReady_iff_millis]
  exact and_congr_right fun waiting => and_congr_left' (waiting.millis_le_iff regular)

section Batch

variable {table : Table} {now : Instant} {batch : Nat} {excluded : List String}
  {records : List Record}

theorem length_ready_le (read : table.ready now batch excluded = .ok records) :
    records.length ≤ batch := by
  have same := congrArg List.length (ids_of_mapM read)
  rw [List.length_map, List.length_map, List.length_take] at same
  have limit : rowLimit batch ≤ batch := Nat.min_le_left _ _
  omega

/-- A ready record is among those of the batch, unless the batch is full. -/
theorem mem_ready_or_full (fits : table.rows.length ≤ 0x7fffffffffffffff)
    (read : table.ready now batch excluded = .ok records) {record : Record}
    (isReady : table.IsReady now excluded record) : record ∈ records ∨ records.length = batch := by
  obtain ⟨row, found, pending, isRecord, due⟩ := isReady
  have permuted := List.mergeSort_perm (table.rows.filter JobFilter.pending.admits)
    JobFilter.pending.isBefore
  have listed : row ∈ (table.admitted .pending).filter (isDue now excluded) :=
    List.mem_filter.mpr ⟨mem_admitted_pending.mpr ⟨mem_of_find? found, pending⟩, due⟩
  by_cases short :
      ((table.admitted .pending).filter (isDue now excluded)).length ≤ rowLimit batch
  · left
    rw [← List.take_of_length_le short] at listed
    obtain ⟨other, member, isOther⟩ := record_of_mem_mapM read listed
    rwa [← Except.ok.inj (isOther.symm.trans isRecord)]
  · right
    have few : ((table.admitted .pending).filter (isDue now excluded)).length ≤ table.rows.length :=
      Nat.le_trans (List.length_filter_le _ _)
        (permuted.length_eq ▸ List.length_filter_le JobFilter.pending.admits table.rows)
    have same := congrArg List.length (ids_of_mapM read)
    rw [List.length_map, List.length_map, List.length_take] at same
    rw [rowLimit] at short same
    omega

end Batch

/-! ### Ticks -/

/-- A tick of the dispatcher. It looks at the table first, and is over if there is nothing to do; the
clock is read once more then. Otherwise it looks again and acts in one transaction, on the table as
it then is. The table and the clock reading are those of the last look. -/
inductive Dispatched (registry : Registry) (lanes : Lanes) (batch : Nat) (table : Table)
    (now : Instant) : Tick → Table → Prop where
  | idle {scan : Scan} (later : Instant)
      (looked : table.scan registry lanes batch now = .ok scan) (quiet : scan.isActionable = false) :
      Dispatched registry lanes batch table now (.idle scan.nextDue later) table
  | acted {tick : Tick} {after : Table}
      (answer : table.tick registry lanes batch now = (.ok tick, after)) :
      Dispatched registry lanes batch table now tick after

/-- What a tick does with the records of its batch. -/
structure Dealt (registry : Registry) (lanes : Lanes) (batch : Nat) (table : Table)
    (records : List Record) (tick : Tick) (after : Table) : Prop where
  types : tick.claimed.map Record.jobType =
    ((pick registry lanes records).filterMap Pick.claimed?).map Record.jobType
  unknown : tick.unknown.map Prod.fst = (pick registry lanes records).filterMap Pick.givenUp?
  isSaturated : tick.isSaturated = (records.length == batch && !tick.claimed.isEmpty)
  unchanged : ∀ id, id ∉ (pick registry lanes records).map (fun pick => pick.record.id) →
    after.find? id = table.find? id
  handled : ∀ chosen ∈ pick registry lanes records, ∀ row,
    after.find? chosen.record.id = some row → row.state ≠ .pending

section Ticks

variable {table after : Table} {registry : Registry} {lanes : Lanes} {batch : Nat} {now : Instant}
  {tick : Tick} {records : List Record}

theorem map_fst_unknown_of_applyPicks {picks : List Pick} {handedOut : List Record}
    {unknown : List (Record × Settlement)}
    (answer : table.applyPicks now picks = (.ok (handedOut, unknown), after)) :
    unknown.map Prod.fst = picks.filterMap Pick.givenUp? := by
  induction picks generalizing table handedOut unknown with
  | nil =>
      obtain ⟨isHandedOut, _⟩ := Prod.mk.inj answer
      obtain ⟨_, rfl⟩ := Prod.mk.inj (Except.ok.inj isHandedOut)
      rfl
  | cons first rest ih =>
      cases first with
      | giveUp record =>
          obtain ⟨_, _, others, _, isRest, rfl⟩ := applyPicks_giveUp answer
          rw [List.map_cons, ih isRest]
          rfl
      | claim record =>
          obtain ⟨_, _, _, _, isRest, _⟩ := applyPicks_claim answer
          exact ih isRest

/-- The first pick of a record that waits changes its row, which is pending no more. -/
theorem Ordered.applyPicks_cons (ordered : table.Ordered) {first : Pick} {rest : List Pick}
    {handedOut : List Record} {unknown : List (Record × Settlement)}
    (waiting : table.IsWaiting first.record)
    (answer : table.applyPicks now (first :: rest) = (.ok (handedOut, unknown), after)) :
    ∃ row edited claimed others, table.find? first.record.id = some row ∧ edited.id = row.id ∧
      edited.state ≠ .pending ∧
      (table.put edited).applyPicks now rest = (.ok (claimed, others), after) := by
  obtain ⟨row, found, pending, _⟩ := waiting
  cases first with
  | giveUp record =>
      obtain ⟨marked, middle, others, isMarked, isRest, _⟩ := applyPicks_giveUp answer
      rcases ordered.markFailed_cases record.id record.nextFailures
          (unknownTypeMessage record.jobType) now with ⟨missing, _⟩ | ⟨other, held, failed⟩
      · cases found.symm.trans missing
      · rw [failed, ← Option.some.inj (found.symm.trans held)] at isMarked
        obtain ⟨_, rfl⟩ := Prod.mk.inj isMarked
        exact ⟨row, row.fail record.nextFailures (unknownTypeMessage record.jobType) now, _, _, found,
          rfl, by simp, isRest⟩
  | claim record =>
      obtain ⟨record?, middle, others, isClaim, isRest, rfl⟩ := applyPicks_claim answer
      rcases ordered.claim_cases record.id now with ⟨never, _⟩ | ⟨other, held, _, claimed⟩
      · exact absurd pending (never row found)
      · rw [claimed, ← Option.some.inj (found.symm.trans held)] at isClaim
        obtain ⟨_, rfl⟩ := Prod.mk.inj isClaim
        exact ⟨row, row.claim now, _, _, found, rfl, by simp, isRest⟩

/-- A record that was picked is pending no more. -/
theorem Ordered.applyPicks_handled (ordered : table.Ordered) {picks : List Pick}
    {handedOut : List Record} {unknown : List (Record × Settlement)}
    (distinct : (picks.map fun pick => pick.record.id).Nodup)
    (waiting : ∀ pick ∈ picks, table.IsWaiting pick.record)
    (answer : table.applyPicks now picks = (.ok (handedOut, unknown), after)) :
    ∀ chosen ∈ picks, ∀ row, after.find? chosen.record.id = some row → row.state ≠ .pending := by
  induction picks generalizing table handedOut unknown with
  | nil => simp
  | cons first rest ih =>
      rw [List.map_cons, List.nodup_cons] at distinct
      obtain ⟨fresh, restDistinct⟩ := distinct
      obtain ⟨row, edited, claimed, others, found, sameId, busy, isRest⟩ :=
        ordered.applyPicks_cons (waiting first List.mem_cons_self) answer
      have here : edited.id = first.record.id := sameId.trans (id_of_find? found)
      have same : ∀ id, id ≠ first.record.id → (table.put edited).find? id = table.find? id := by
        intro id different
        rw [find?_put, here, if_neg different]
      have restWaiting := isWaiting_of_same fresh waiting same
      intro chosen member
      rcases List.mem_cons.mp member with rfl | later
      · intro other held
        have applied := (ordered.put edited).applyPicks_spec restDistinct restWaiting isRest
        rw [applied.unchanged _ fresh, find?_put, here, if_pos rfl, found] at held
        exact Option.some.inj held ▸ busy
      · exact ih (ordered.put edited) restDistinct restWaiting isRest chosen later

/-- However a tick ends, it has dealt with the ready records that it looked at last. -/
theorem Ordered.dealt_of_dispatched (ordered : table.Ordered)
    (dispatched : Dispatched registry lanes batch table now tick after) :
    ∃ records, table.ready now batch (lanes.excluded registry) = .ok records ∧
      Dealt registry lanes batch table records tick after := by
  cases dispatched with
  | idle later looked quiet =>
      obtain ⟨records, isReady, looked⟩ := bind_eq_ok looked
      obtain ⟨nextDue, _, looked⟩ := bind_eq_ok looked
      obtain rfl := Except.ok.inj looked
      have none : pick registry lanes records = [] := by simpa using quiet
      exact ⟨records, isReady, by
        constructor <;> simp [none, Tick.idle]⟩
  | acted answer =>
      obtain ⟨records, isReady, isApplied⟩ := applyPicks_of_tick answer
      obtain ⟨distinct, ready⟩ := ordered.picks_of_ready registry lanes isReady
      have waiting := fun chosen member => (ready chosen member).isWaiting
      have applied := ordered.applyPicks_spec distinct waiting isApplied
      refine ⟨records, isReady, applied.types, map_fst_unknown_of_applyPicks isApplied, ?_,
        applied.unchanged, ordered.applyPicks_handled distinct waiting isApplied⟩
      simp only [Table.tick, isReady, isApplied] at answer
      split at answer
      · cases answer
      · obtain ⟨isTick, _⟩ := Prod.mk.inj answer
        rw [← Except.ok.inj isTick]

/-- What is pending after a tick was pending before it, and was not picked. -/
theorem Dealt.wasWaiting (dealt : Dealt registry lanes batch table records tick after)
    {record : Record} (waiting : after.IsWaiting record) :
    table.IsWaiting record ∧
      record.id ∉ (pick registry lanes records).map fun pick => pick.record.id := by
  obtain ⟨row, found, pending, isRecord⟩ := waiting
  have unpicked : record.id ∉ (pick registry lanes records).map fun pick => pick.record.id := by
    intro picked
    obtain ⟨chosen, member, sameId⟩ := List.mem_map.mp picked
    exact dealt.handled chosen member row (sameId ▸ found) pending
  exact ⟨⟨row, dealt.unchanged _ unpicked ▸ found, pending, isRecord⟩, unpicked⟩

/-- A tick that found a full batch and does not ask to be repeated has given up all of it. -/
theorem Dealt.givesUp_of_full (dealt : Dealt registry lanes batch table records tick after)
    (free : ∀ record ∈ records, ¬ lanes.IsSpent registry [] record.jobType)
    (unsaturated : tick.isSaturated = false) (full : records.length = batch) :
    tick.claimed = [] ∧ tick.unknown.map Prod.fst = records ∧
      (pick registry lanes records).map Pick.record = records := by
  have unclaimed : tick.claimed = [] := by
    simpa [dealt.isSaturated, full] using unsaturated
  have gaveUp := pick_eq_map_giveUp free (by simpa [unclaimed] using dealt.types.symm)
  refine ⟨unclaimed, ?_, ?_⟩
  · rw [dealt.unknown, gaveUp, List.filterMap_map]
    exact List.filterMap_some
  · rw [gaveUp, List.map_map]
    exact List.map_id _

theorem Dealt.length_unknown_le (dealt : Dealt registry lanes batch table records tick after) :
    tick.unknown.length ≤ records.length := by
  have few : tick.unknown.length ≤ (pick registry lanes records).length := by
    rw [← List.length_map Prod.fst, dealt.unknown]
    exact List.length_filterMap_le _ _
  have picked := (map_record_pick_sublist registry lanes records).length_le
  rw [List.length_map] at picked
  exact Nat.le_trans few picked

/-- A tick that does not ask to be repeated leaves only due records whose pool has no slot left, unless
its batch was full of types that nobody executes and there were more ready records. -/
theorem Ordered.leaves_spent_iff (ordered : table.Ordered) (distinct : registry.Distinct)
    (fits : table.rows.length ≤ 0x7fffffffffffffff) (regular : now.isLeap = false)
    (dispatched : Dispatched registry lanes batch table now tick after)
    (unsaturated : tick.isSaturated = false) :
    (∀ record, after.IsWaiting record → record.notBefore ≤ now →
        lanes.IsSpent registry tick.claimed record.jobType) ↔
      (tick.unknown.length = batch → ∀ record, table.IsReady now (lanes.excluded registry) record →
        record.id ∈ tick.unknown.map fun entry => entry.1.id) := by
  obtain ⟨records, read, dealt⟩ := ordered.dealt_of_dispatched dispatched
  have free : ∀ record ∈ records, ¬ lanes.IsSpent registry [] record.jobType := by
    intro record member spent
    obtain ⟨_, _, included⟩ := (isReady_iff regular).mp ((ordered.ready_spec read).2.2 record member)
    exact included (distinct.mem_excluded_iff.mpr spent)
  have givesUp := dealt.givesUp_of_full free unsaturated
  have unknownIds : (tick.unknown.map fun entry => entry.1.id) =
      (tick.unknown.map Prod.fst).map Record.id := by simp
  have pickedIds : ((pick registry lanes records).map fun pick => pick.record.id) =
      ((pick registry lanes records).map Pick.record).map Record.id := by simp
  rw [unknownIds]
  constructor
  · intro law isFull record isReady
    have full : records.length = batch :=
      Nat.le_antisymm (length_ready_le read) (isFull ▸ dealt.length_unknown_le)
    obtain ⟨unclaimed, isUnknown, isPicked⟩ := givesUp full
    rw [isUnknown]
    by_contra unread
    -- Nothing touched the record, so the law would say that its pool is spent without a claim.
    obtain ⟨⟨row, found, pending, isRecord⟩, due, included⟩ := (isReady_iff regular).mp isReady
    have untouched := dealt.unchanged record.id (by rwa [pickedIds, isPicked])
    have spent := law record ⟨row, untouched.trans found, pending, isRecord⟩ due
    rw [unclaimed] at spent
    exact included (distinct.mem_excluded_iff.mpr spent)
  · intro behind record waiting due
    obtain ⟨wasWaiting, unpicked⟩ := dealt.wasWaiting waiting
    by_cases excluded : record.jobType ∈ lanes.excluded registry
    · exact (distinct.mem_excluded_iff.mp excluded).mono tick.claimed
    · have isReady := (isReady_iff regular).mpr ⟨wasWaiting, due, excluded⟩
      rcases mem_ready_or_full fits read isReady with member | full
      · rcases mem_pick_or_isSpent member with picked | spent
        · exact absurd (List.mem_map_of_mem picked) (pickedIds ▸ unpicked)
        · exact spent.of_types dealt.types.symm
      · obtain ⟨_, isUnknown, isPicked⟩ := givesUp full
        have isFull : tick.unknown.length = batch := by
          rw [← List.length_map Prod.fst, isUnknown, full]
        have gaveUp := behind isFull record isReady
        rw [isUnknown] at gaveUp
        exact absurd gaveUp (isPicked ▸ pickedIds ▸ unpicked)

end Ticks

/-- A job of a type that nobody executes, ahead of one that an executor waits for. -/
def crowded : Table :=
  let retired := (Job.new "retired" [118] Uuid.zero).withPriority .critical
  ((empty.enqueue retired Instant.epoch).2.enqueue (Job.new "reindex" [119] Uuid.zero)
    Instant.epoch).2

theorem reachable_crowded : Reachable crowded :=
  .perform (.perform .empty (.enqueue ((Job.new "retired" [118] Uuid.zero).withPriority .critical)
    Instant.epoch)) (.enqueue (Job.new "reindex" [119] Uuid.zero) Instant.epoch)

theorem admitted_crowded : crowded.admitted .pending = crowded.rows :=
  (List.mergeSort_of_pairwise (by decide +kernel)).trans (by decide +kernel)

theorem exists_record_of_isSome {row : Row} (readable : row.record.toOption.isSome = true) :
    ∃ record, row.record = .ok record := by
  obtain ⟨record, isSome⟩ := Option.isSome_iff_exists.mp readable
  exact ⟨record, ok_of_toOption isSome⟩

theorem exists_of_tick {table : Table} {registry : Registry} {lanes : Lanes} {batch : Nat}
    {now : Instant} (test : Tick → Table → Bool)
    (passes : (table.tick registry lanes batch now).1.toOption.any
      (fun tick => test tick (table.tick registry lanes batch now).2) = true) :
    ∃ tick after, table.tick registry lanes batch now = (.ok tick, after) ∧
      test tick after = true := by
  generalize table.tick registry lanes batch now = answer at passes ⊢
  obtain ⟨error | tick, after⟩ := answer
  · cases passes
  · exact ⟨tick, after, rfl, passes⟩

/-- In a batch that holds both, the one is given up and the other is claimed. -/
theorem leaves_spent_iff_crowded :
    ∃ (registry : Registry) (table after : Table) (tick : Tick), table.Ordered ∧
      registry.Distinct ∧ table.rows.length ≤ 0x7fffffffffffffff ∧ Instant.epoch.isLeap = false ∧
      Dispatched registry ⟨1, 1⟩ 32 table Instant.epoch tick after ∧ tick.isSaturated = false ∧
      ∀ record, after.IsWaiting record → record.notBefore ≤ Instant.epoch →
        Lanes.IsSpent ⟨1, 1⟩ registry tick.claimed record.jobType := by
  let registry : Registry := ⟨[("reindex", .transactional)]⟩
  have ordered : crowded.Ordered := reachable_crowded.consistent.ordered
  have distinct : registry.Distinct := List.nodup_singleton "reindex"
  have fits : crowded.rows.length ≤ 0x7fffffffffffffff := by decide +kernel
  obtain ⟨tick, after, answer, facts⟩ :
      ∃ tick after, crowded.tick registry ⟨1, 1⟩ 32 Instant.epoch = (.ok tick, after) ∧
        (!tick.isSaturated && tick.unknown.length == 1) = true := by
    refine exists_of_tick (fun tick _ => !tick.isSaturated && tick.unknown.length == 1) ?_
    simp only [Table.tick, Table.ready, admitted_crowded]
    decide +kernel
  obtain ⟨unsaturated, one⟩ : tick.isSaturated = false ∧ tick.unknown.length = 1 := by
    simpa using facts
  refine ⟨registry, crowded, _, tick, ordered, distinct, fits, rfl, .acted answer, unsaturated, ?_⟩
  refine (Ordered.leaves_spent_iff ordered distinct fits rfl (.acted answer) unsaturated).mpr ?_
  intro isFull
  rw [one] at isFull
  cases isFull

/-- A record that is due and needs no slot is left behind a batch that nobody executes, and the
dispatcher goes to sleep. -/
theorem due_record_left :
    ∃ (registry : Registry) (table after : Table) (tick : Tick) (record : Record),
      Reachable table ∧ registry.Distinct ∧
      Dispatched registry ⟨1, 1⟩ 1 table Instant.epoch tick after ∧ tick.isSaturated = false ∧
      (∀ poll reading, tick.wait poll reading = poll) ∧ after.IsWaiting record ∧
      record.notBefore ≤ Instant.epoch ∧ registry.isTransactional record = true ∧
      ¬ Lanes.IsSpent ⟨1, 1⟩ registry tick.claimed record.jobType := by
  let registry : Registry := ⟨[("reindex", .transactional)]⟩
  let row := Row.ofJob 2 (Job.new "reindex" [119] Uuid.zero) Instant.epoch
  obtain ⟨tick, after, answer, facts⟩ :
      ∃ tick after, crowded.tick registry ⟨1, 1⟩ 1 Instant.epoch = (.ok tick, after) ∧
        (!tick.isSaturated && tick.nextDue == some tick.now && after.find? 2 == some row) = true := by
    refine exists_of_tick (fun tick after =>
      !tick.isSaturated && tick.nextDue == some tick.now && after.find? 2 == some row) ?_
    simp only [Table.tick, Table.ready, admitted_crowded]
    decide +kernel
  obtain ⟨⟨unsaturated, overdue⟩, found⟩ :
      (tick.isSaturated = false ∧ tick.nextDue = some tick.now) ∧ after.find? 2 = some row := by
    simpa using facts
  obtain ⟨record, isRecord⟩ : ∃ record, row.record = .ok record :=
    exists_record_of_isSome (by decide +kernel)
  have holds := Row.holds_of_record isRecord
  have isType : record.jobType = "reindex" := (Cell.text.inj holds.jobType).symm
  obtain ⟨stored, isStored, isInstant⟩ := holds.notBefore
  have isKind : registry.kindOf record.jobType = some .transactional := isType ▸ by decide
  refine ⟨registry, crowded, after, tick, record, reachable_crowded, List.nodup_singleton "reindex",
    .acted answer, unsaturated, ?_, ⟨row, holds.id ▸ found, rfl, isRecord⟩, ?_, ?_, ?_⟩
  · intro poll reading
    have passed : tick.now ≤ tick.now := .inr ⟨rfl, Nat.le_refl _⟩
    simp [Tick.wait, unsaturated, overdue, passed]
  · have isEpoch : stored = Instant.epoch.millis := (Cell.integer.inj isStored).symm
    exact (Instant.le_iff_of_ofMillis? isInstant rfl).mpr (Int.le_of_eq isEpoch)
  · simp [Registry.isTransactional, isKind]
  · rintro ⟨kind, isPool, pooled, _⟩
    exact pooled (Option.some.inj (isPool.symm.trans isKind))

end Store.Table

namespace Engine

variable {Business : Type} {engine after : Engine Business}

/-- When the dispatcher finds nothing to do, its tick is over. -/
theorem dispatched_of_scan {now later : Instant} {dispatcher : Dispatcher} {tick : Tick}
    (taken : engine.scan now later = some after) (found : after.dispatcher = some dispatcher)
    (resting : dispatcher.phase = .resting tick) :
    tick.now = later ∧ ∃ lanes, Store.Table.Dispatched engine.registry lanes engine.config.batchSize
      engine.database.jobs now tick after.database.jobs := by
  unfold scan at taken
  split at taken
  · next before isBefore =>
      split at taken
      · next lanes scanning =>
          split at taken
          · cases taken
            cases found
            cases resting
          · next scan looked =>
              split at taken
              · cases taken
                cases found
                cases resting
              · next quiet =>
                  cases taken
                  cases found
                  cases resting
                  exact ⟨rfl, lanes, .idle later looked (Bool.eq_false_iff.mpr quiet)⟩
      · cases taken
  · cases taken

/-- What the dispatcher launches is what its tick claimed. -/
theorem dispatched_of_decide {now : Instant} {dispatcher : Dispatcher} {notices : List Notice}
    {claimed : List Record} {tick : Tick} (taken : engine.decide now = some after)
    (found : after.dispatcher = some dispatcher)
    (launching : dispatcher.phase = .launching notices claimed tick) :
    claimed = tick.claimed ∧ ∃ lanes, Store.Table.Dispatched engine.registry lanes
      engine.config.batchSize engine.database.jobs now tick after.database.jobs := by
  obtain ⟨before, lanes, _, _, ⟨_, phase, quiet, rfl⟩ | ⟨other, jobs, _, answer, rfl⟩⟩ :=
    decide_ticks taken
  · cases found
    rcases quiet with rfl | rfl <;> cases launching
  · cases found
    cases launching
    exact ⟨rfl, lanes, .acted answer⟩

end Engine

end DurableJobs
