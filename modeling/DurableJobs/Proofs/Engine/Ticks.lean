import DurableJobs.Engine.Tick
import DurableJobs.Proofs.Store.Ready
import DurableJobs.Proofs.Store.Receipts

/-!
What a tick does to the table.

The ready records are pending and of different ids, so a tick claims every record that it picks to be
claimed: each becomes running, and is handed out as it then is. It gives up those whose type nobody
executes. Rows that are not ready stay as they are, and so do running ones.
-/

set_option autoImplicit false

namespace DurableJobs

namespace Pick

def record : Pick → Record
  | .claim record => record
  | .giveUp record => record

def claimed? : Pick → Option Record
  | .claim record => some record
  | .giveUp _ => none

end Pick

theorem claimed_sublist (picks : List Pick) :
    (picks.filterMap Pick.claimed?).Sublist (picks.map Pick.record) := by
  induction picks with
  | nil => exact .slnil
  | cons first rest ih =>
      cases first with
      | claim record => exact ih.cons_cons record
      | giveUp record => exact ih.cons record

theorem map_id_claimed_sublist (picks : List Pick) :
    ((picks.filterMap Pick.claimed?).map Record.id).Sublist
      (picks.map fun pick => pick.record.id) := by
  simpa [Function.comp_def] using (claimed_sublist picks).map Record.id

theorem map_record_pick_sublist (registry : Registry) (lanes : Lanes) (records : List Record) :
    ((pick registry lanes records).map Pick.record).Sublist records := by
  induction records generalizing lanes with
  | nil => exact .slnil
  | cons record rest ih =>
      rw [pick]
      split
      · exact (ih lanes).cons_cons record
      · split
        · next left _ => exact (ih left).cons_cons record
        · exact (ih lanes).cons record

theorem isRegistered_of_claim_mem_pick {registry : Registry} {lanes : Lanes}
    {records : List Record} {record : Record}
    (member : .claim record ∈ pick registry lanes records) :
    registry.isRegistered record.jobType = true := by
  induction records generalizing lanes with
  | nil => cases member
  | cons first rest ih =>
      rw [pick] at member
      split at member
      · rcases List.mem_cons.mp member with isFirst | later
        · cases isFirst
        · exact ih later
      · next kind isKind =>
          split at member
          · rcases List.mem_cons.mp member with isFirst | later
            · obtain rfl := Pick.claim.inj isFirst
              simp [Registry.isRegistered, isKind]
            · exact ih later
          · exact ih member

namespace Store.Table

def IsWaiting (table : Table) (record : Record) : Prop :=
  ∃ row, table.find? record.id = some row ∧ row.state = .pending ∧ row.record = .ok record

theorem IsReady.isWaiting {table : Table} {now : Instant} {excluded : List String}
    {record : Record} (isReady : table.IsReady now excluded record) : table.IsWaiting record := by
  obtain ⟨row, found, pending, isRecord, _⟩ := isReady
  exact ⟨row, found, pending, isRecord⟩

/-- The record was waiting before the claim, and is now running as it was handed out. -/
structure Claimed (before : Table) (record : Record) (now : Instant) (after : Table) : Prop where
  row : ∃ old, before.find? record.id = some old ∧ old.state = .pending ∧
    after.find? record.id = some (old.claim now) ∧ (old.claim now).record = .ok record

/-- What is left of the picks once they were applied: no other row changed. -/
structure PicksApplied (table : Table) (picks : List Pick) (now : Instant)
    (handedOut : List Record) (after : Table) : Prop where
  reaches : table.Consistent → Reaches table after
  unchanged : ∀ id, id ∉ picks.map (fun pick => pick.record.id) → after.find? id = table.find? id
  ids : handedOut.map Record.id = (picks.filterMap Pick.claimed?).map Record.id
  claimed : ∀ record ∈ handedOut, Claimed table record now after
  types : handedOut.map Record.jobType = (picks.filterMap Pick.claimed?).map Record.jobType

theorem applyPicks_giveUp {table after : Table} {now : Instant} {record : Record}
    {rest : List Pick} {handedOut : List Record} {unknown : List (Record × Settlement)}
    (answer : table.applyPicks now (.giveUp record :: rest) = (.ok (handedOut, unknown), after)) :
    ∃ marked middle others,
      table.markFailed record.id record.nextFailures (unknownTypeMessage record.jobType) now =
        (.ok marked, middle) ∧
      middle.applyPicks now rest = (.ok (handedOut, others), after) ∧
      unknown =
        (record, if marked then .deadLettered (unknownTypeMessage record.jobType) else .missing) ::
          others := by
  simp only [applyPicks] at answer
  split at answer
  · cases answer
  · next marked middle isMarked =>
      split at answer
      · cases answer
      · next claimed others final isRest =>
          cases answer
          exact ⟨marked, middle, others, isMarked, isRest, rfl⟩

theorem applyPicks_claim {table after : Table} {now : Instant} {record : Record}
    {rest : List Pick} {handedOut : List Record} {unknown : List (Record × Settlement)}
    (answer : table.applyPicks now (.claim record :: rest) = (.ok (handedOut, unknown), after)) :
    ∃ record? middle others, table.claim record.id now = (.ok record?, middle) ∧
      middle.applyPicks now rest = (.ok (others, unknown), after) ∧
      handedOut = record?.toList ++ others := by
  simp only [applyPicks] at answer
  split at answer
  · cases answer
  · next record? middle isClaim =>
      split at answer
      · cases answer
      · next others unknown final isRest =>
          cases answer
          exact ⟨record?, middle, others, isClaim, isRest, rfl⟩

/-- What is handed out agrees with the picks in whatever the first record and the others agree. -/
theorem map_claimed_cons {Value : Type} (convert : Record → Value) {first : Pick}
    {rest : List Pick} {record? : Option Record} {handedOut : List Record}
    (isFirst : record?.map convert = first.claimed?.map convert)
    (others : handedOut.map convert = (rest.filterMap Pick.claimed?).map convert) :
    (record?.toList ++ handedOut).map convert =
      ((first :: rest).filterMap Pick.claimed?).map convert := by
  have firsts : record?.toList.map convert = first.claimed?.toList.map convert := by
    rw [← Option.toList_map, isFirst, Option.toList_map]
  rw [List.map_append, others, firsts, ← List.map_append]
  cases first <;> rfl

theorem PicksApplied.cons {table middle after : Table} {first : Pick} {rest : List Pick}
    {now : Instant} {handedOut : List Record} (record? : Option Record)
    (applied : PicksApplied middle rest now handedOut after)
    (fresh : first.record.id ∉ rest.map fun pick => pick.record.id)
    (step : Transition table middle)
    (same : ∀ id, id ≠ first.record.id → middle.find? id = table.find? id)
    (isFirst : record?.map Record.id = first.claimed?.map Record.id)
    (sameType : record?.map Record.jobType = first.claimed?.map Record.jobType)
    (claimed : ∀ record, record? = some record → Claimed table record now middle) :
    PicksApplied table (first :: rest) now (record?.toList ++ handedOut) after := by
  have sameId : ∀ record, record? = some record → record.id = first.record.id := by
    rintro record rfl
    cases first with
    | giveUp source => simp [Pick.claimed?] at isFirst
    | claim source => exact Option.some.inj isFirst
  have laterId : ∀ record ∈ handedOut, record.id ≠ first.record.id := by
    intro record member isSame
    have listed : record.id ∈ (rest.filterMap Pick.claimed?).map Record.id :=
      applied.ids ▸ List.mem_map_of_mem member
    obtain ⟨source, sourceMember, sourceId⟩ := List.mem_map.mp listed
    obtain ⟨pick, pickMember, isSource⟩ := List.mem_filterMap.mp sourceMember
    cases pick with
    | giveUp _ => cases isSource
    | claim _ =>
        obtain rfl := Option.some.inj isSource
        exact fresh (List.mem_map.mpr ⟨_, pickMember, sourceId.trans isSame⟩)
  refine ⟨fun consistent => .head step (applied.reaches (step.consistent consistent)), ?_,
    map_claimed_cons Record.id isFirst applied.ids, ?_,
    map_claimed_cons Record.jobType sameType applied.types⟩
  · intro id absent
    rw [List.map_cons, List.mem_cons, not_or] at absent
    rw [applied.unchanged id absent.2, same id absent.1]
  · intro record member
    rcases List.mem_append.mp member with isRecord | later
    · rw [Option.mem_toList] at isRecord
      obtain ⟨old, found, pending, moved, read⟩ := (claimed record isRecord).row
      refine ⟨old, found, pending, ?_, read⟩
      rw [applied.unchanged _ (sameId record isRecord ▸ fresh), moved]
    · obtain ⟨old, found, holds⟩ := (applied.claimed record later).row
      exact ⟨old, by rw [← same _ (laterId record later), found], holds⟩

/-- Picks have different ids, so the others still wait once the first one was applied. -/
theorem isWaiting_of_same {table middle : Table} {first : Pick} {rest : List Pick}
    (fresh : first.record.id ∉ rest.map fun pick => pick.record.id)
    (waiting : ∀ pick ∈ first :: rest, table.IsWaiting pick.record)
    (same : ∀ id, id ≠ first.record.id → middle.find? id = table.find? id) :
    ∀ pick ∈ rest, middle.IsWaiting pick.record := by
  intro pick member
  have different : pick.record.id ≠ first.record.id := fun isSame =>
    fresh (List.mem_map.mpr ⟨pick, member, isSame⟩)
  obtain ⟨row, found, holds⟩ := waiting pick (List.mem_cons_of_mem _ member)
  exact ⟨row, by rw [same _ different, found], holds⟩

theorem Ordered.applyPicks_spec {table after : Table} (ordered : table.Ordered)
    {now : Instant} {picks : List Pick} {handedOut : List Record}
    {unknown : List (Record × Settlement)}
    (distinct : (picks.map fun pick => pick.record.id).Nodup)
    (waiting : ∀ pick ∈ picks, table.IsWaiting pick.record)
    (answer : table.applyPicks now picks = (.ok (handedOut, unknown), after)) :
    PicksApplied table picks now handedOut after := by
  induction picks generalizing table handedOut unknown with
  | nil =>
      obtain ⟨isHandedOut, rfl⟩ := Prod.mk.inj answer
      obtain ⟨rfl, _⟩ := Prod.mk.inj (Except.ok.inj isHandedOut)
      exact ⟨fun _ => .refl, fun _ _ => rfl, rfl, by simp, rfl⟩
  | cons first rest ih =>
      rw [List.map_cons, List.nodup_cons] at distinct
      obtain ⟨fresh, restDistinct⟩ := distinct
      obtain ⟨row, found, pending, isRecord⟩ := waiting first List.mem_cons_self
      have member := mem_of_find? found
      have here := id_of_find? found
      have same : ∀ edited : Row, edited.id = row.id → ∀ id, id ≠ first.record.id →
          (table.put edited).find? id = table.find? id := by
        intro edited sameId id different
        rw [find?_put, sameId, here, if_neg different]
      cases first with
      | giveUp record =>
          obtain ⟨marked, middle, others, isMarked, isRest, _⟩ := applyPicks_giveUp answer
          let failed := row.fail record.nextFailures (unknownTypeMessage record.jobType) now
          have isFailed : middle = table.put failed := by
            rcases ordered.markFailed_cases record.id record.nextFailures
                (unknownTypeMessage record.jobType) now with ⟨missing, _⟩ | ⟨other, held, answer⟩
            · cases found.symm.trans missing
            · rw [answer, ← Option.some.inj (found.symm.trans held)] at isMarked
              exact (Prod.mk.inj isMarked).2.symm
          subst isFailed
          have applied := ih (ordered.put failed) restDistinct
            (isWaiting_of_same fresh waiting (same failed rfl)) isRest
          exact applied.cons none fresh (.gaveUp _ _ now member) (same failed rfl) rfl rfl (by simp)
      | claim record =>
          obtain ⟨record?, middle, others, isClaim, isRest, rfl⟩ := applyPicks_claim answer
          have isClaimed : table.claim record.id now =
              ((row.claim now).record.map some, table.put (row.claim now)) := by
            rcases ordered.claim_cases record.id now with ⟨never, _⟩ | ⟨other, held, _, answer⟩
            · exact absurd pending (never row found)
            · rw [answer, ← Option.some.inj (found.symm.trans held)]
          obtain ⟨isRecord?, rfl⟩ := Prod.mk.inj (isClaimed.symm.trans isClaim)
          obtain ⟨handed, isHanded, rfl⟩ := map_eq_ok isRecord?
          have applied := ih (ordered.put (row.claim now)) restDistinct
            (isWaiting_of_same fresh waiting (same (row.claim now) rfl)) isRest
          have before := Row.holds_of_record isRecord
          have later := Row.holds_of_record isHanded
          refine applied.cons (some handed) fresh (.claimed now member pending)
            (same (row.claim now) rfl) ?_ ?_ ?_
          · exact congrArg some (later.id.symm.trans here)
          · exact congrArg some (Cell.text.inj (later.jobType.symm.trans before.jobType))
          · rintro _ ⟨rfl⟩
            refine ⟨row, ?_, pending, ?_, isHanded⟩
            · rw [← later.id, Row.id_claim]
              exact ordered.find?_of_mem member
            · rw [find?_put, ← later.id, if_pos rfl, Row.id_claim, ordered.find?_of_mem member]
              rfl

/-- What a tick hands out: records of registered types and of different ids, each running as it was
handed out. No running row changed. -/
structure Ticked (table : Table) (registry : Registry) (now : Instant) (handedOut : List Record)
    (after : Table) : Prop where
  reaches : Reaches table after
  distinct : (handedOut.map Record.id).Nodup
  claimed : ∀ record ∈ handedOut, Claimed table record now after
  registered : ∀ record ∈ handedOut, registry.isRegistered record.jobType = true
  spared : SparesRunning table after

theorem applyPicks_of_tick {table after : Table} {registry : Registry} {lanes : Lanes}
    {batch : Nat} {now : Instant} {tick : Tick}
    (answer : table.tick registry lanes batch now = (.ok tick, after)) :
    ∃ records, table.ready now batch (lanes.excluded registry) = .ok records ∧
      table.applyPicks now (pick registry lanes records) =
        (.ok (tick.claimed, tick.unknown), after) := by
  simp only [Table.tick] at answer
  split at answer
  · cases answer
  · next records isReady =>
      split at answer
      · cases answer
      · next handedOut unknown final isApplied =>
          split at answer
          · cases answer
          · next nextDue _ =>
              cases answer
              exact ⟨records, isReady, isApplied⟩

theorem Ordered.picks_of_ready {table : Table} (ordered : table.Ordered) (registry : Registry)
    (lanes : Lanes) {batch : Nat} {now : Instant} {excluded : List String} {records : List Record}
    (read : table.ready now batch excluded = .ok records) :
    ((pick registry lanes records).map fun pick => pick.record.id).Nodup ∧
      ∀ chosen ∈ pick registry lanes records, table.IsReady now excluded chosen.record := by
  obtain ⟨_, distinct, isReady⟩ := ordered.ready_spec read
  have picked := map_record_pick_sublist registry lanes records
  constructor
  · simpa [Function.comp_def] using distinct.sublist (picked.map Record.id)
  · exact fun chosen member => isReady _ (picked.mem (List.mem_map_of_mem member))

/-- A tick applies the picks of the records that are ready. -/
theorem Ordered.picks_of_tick {table after : Table} (ordered : table.Ordered)
    {registry : Registry} {lanes : Lanes} {batch : Nat} {now : Instant} {tick : Tick}
    (answer : table.tick registry lanes batch now = (.ok tick, after)) :
    ∃ records, table.ready now batch (lanes.excluded registry) = .ok records ∧
      PicksApplied table (pick registry lanes records) now tick.claimed after := by
  obtain ⟨records, isReady, isApplied⟩ := applyPicks_of_tick answer
  obtain ⟨distinct, ready⟩ := ordered.picks_of_ready registry lanes isReady
  exact ⟨records, isReady,
    ordered.applyPicks_spec distinct (fun chosen member => (ready chosen member).isWaiting) isApplied⟩

theorem Consistent.tick_spec {table after : Table} (consistent : table.Consistent)
    {registry : Registry} {lanes : Lanes} {batch : Nat} {now : Instant} {tick : Tick}
    (answer : table.tick registry lanes batch now = (.ok tick, after)) :
    Ticked table registry now tick.claimed after := by
  obtain ⟨records, isReady, applied⟩ := consistent.ordered.picks_of_tick answer
  obtain ⟨distinct, ready⟩ := consistent.ordered.picks_of_ready registry lanes isReady
  refine ⟨applied.reaches consistent, ?_, applied.claimed, ?_, ?_⟩
  · rw [applied.ids]
    exact distinct.sublist (map_id_claimed_sublist _)
  · intro record member
    have isType : record.jobType ∈
        ((pick registry lanes records).filterMap Pick.claimed?).map Record.jobType :=
      applied.types ▸ List.mem_map_of_mem member
    obtain ⟨source, sourceMember, sameType⟩ := List.mem_map.mp isType
    obtain ⟨chosen, chosenMember, isSource⟩ := List.mem_filterMap.mp sourceMember
    rw [← sameType]
    cases chosen with
    | giveUp _ => cases isSource
    | claim _ =>
        obtain rfl := Option.some.inj isSource
        exact isRegistered_of_claim_mem_pick chosenMember
  · intro id row found running
    rw [applied.unchanged id, found]
    intro isPicked
    obtain ⟨pick, member, rfl⟩ := List.mem_map.mp isPicked
    obtain ⟨other, otherFound, pending, _⟩ := ready pick member
    obtain rfl := Option.some.inj (found.symm.trans otherFound)
    rw [pending] at running
    cases running

/-! ### Records that are given up -/

/-- The record was waiting before the tick, and has failed since, as its type has no executor. -/
structure GivenUp (before : Table) (record : Record) (now : Instant) (after : Table) : Prop where
  row : ∃ old, before.find? record.id = some old ∧ old.state = .pending ∧
    old.record = .ok record ∧
    after.find? record.id =
      some (old.fail record.nextFailures (unknownTypeMessage record.jobType) now)

/-- A tick reports a record as given up if it has given it up; what it neither claimed nor gave up
is as it was. -/
structure Sifted (table : Table) (now : Instant) (claimed : List Record)
    (unknown : List (Record × Settlement)) (after : Table) : Prop where
  givenUp : ∀ entry ∈ unknown,
    entry.2 = .deadLettered (unknownTypeMessage entry.1.jobType) ∧ GivenUp table entry.1 now after
  unchanged : ∀ id, id ∉ claimed.map Record.id → id ∉ unknown.map (fun entry => entry.1.id) →
    after.find? id = table.find? id
  ids_eq : after.ids = table.ids

/-- The first pick takes a waiting record out of the way of the others. -/
theorem Sifted.cons {table middle after : Table} {now : Instant} {claimed : List Record}
    {unknown : List (Record × Settlement)} {first : Record}
    (rest : Sifted middle now claimed unknown after)
    (same : ∀ id, id ≠ first.id → middle.find? id = table.find? id)
    (busy : ∀ row, middle.find? first.id = some row → row.state ≠ .pending)
    (ids_eq : middle.ids = table.ids) {nowClaimed : List Record}
    {nowUnknown : List (Record × Settlement)}
    (picked : (∃ record, record.id = first.id ∧ nowClaimed = record :: claimed ∧
        nowUnknown = unknown) ∨
      ∃ settlement, nowClaimed = claimed ∧ nowUnknown = (first, settlement) :: unknown ∧
        settlement = .deadLettered (unknownTypeMessage first.jobType) ∧
        GivenUp table first now after) :
    Sifted table now nowClaimed nowUnknown after := by
  have others : ∀ entry ∈ unknown,
      entry.2 = .deadLettered (unknownTypeMessage entry.1.jobType) ∧
        GivenUp table entry.1 now after := by
    intro entry member
    obtain ⟨settled, old, found, pending, isRecord, left⟩ := rest.givenUp entry member
    refine ⟨settled, old, ?_, pending, isRecord, left⟩
    rw [← same entry.1.id, found]
    intro isFirst
    exact busy old (isFirst ▸ found) pending
  have unchanged : ∀ id, id ≠ first.id → id ∉ claimed.map Record.id →
      id ∉ unknown.map (fun entry => entry.1.id) → after.find? id = table.find? id := by
    intro id different notClaimed notUnknown
    rw [rest.unchanged id notClaimed notUnknown, same id different]
  cases picked with
  | inl picked =>
      obtain ⟨record, isFirst, rfl, rfl⟩ := picked
      refine ⟨others, fun id notClaimed notUnknown => ?_, rest.ids_eq.trans ids_eq⟩
      rw [List.map_cons, List.mem_cons, not_or, isFirst] at notClaimed
      exact unchanged id notClaimed.1 notClaimed.2 notUnknown
  | inr picked =>
      obtain ⟨settlement, rfl, rfl, isDead, givenUp⟩ := picked
      refine ⟨fun entry member => ?_, fun id notClaimed notUnknown => ?_,
        rest.ids_eq.trans ids_eq⟩
      · cases member with
        | head => exact ⟨isDead, givenUp⟩
        | tail _ later => exact others entry later
      · rw [List.map_cons, List.mem_cons, not_or] at notUnknown
        exact unchanged id notUnknown.1 notClaimed notUnknown.2

theorem Consistent.applyPicks_sifted {table after : Table} (consistent : table.Consistent)
    {now : Instant} {picks : List Pick} {handedOut : List Record}
    {unknown : List (Record × Settlement)}
    (distinct : (picks.map fun pick => pick.record.id).Nodup)
    (waiting : ∀ pick ∈ picks, table.IsWaiting pick.record)
    (answer : table.applyPicks now picks = (.ok (handedOut, unknown), after)) :
    Sifted table now handedOut unknown after := by
  induction picks generalizing table handedOut unknown with
  | nil =>
      obtain ⟨isHandedOut, rfl⟩ := Prod.mk.inj answer
      obtain ⟨_, rfl⟩ := Prod.mk.inj (Except.ok.inj isHandedOut)
      exact ⟨by simp, fun _ _ _ => rfl, rfl⟩
  | cons first rest ih =>
      rw [List.map_cons, List.nodup_cons] at distinct
      obtain ⟨fresh, restDistinct⟩ := distinct
      obtain ⟨row, found, pending, isRecord⟩ := waiting first List.mem_cons_self
      have member := mem_of_find? found
      have here := id_of_find? found
      have same : ∀ edited : Row, edited.id = row.id → ∀ id, id ≠ first.record.id →
          (table.put edited).find? id = table.find? id := by
        intro edited sameId id different
        rw [find?_put, sameId, here, if_neg different]
      have moved : ∀ edited : Row, edited.id = row.id →
          (table.put edited).find? first.record.id = some edited := by
        intro edited sameId
        rw [find?_put, sameId, here, if_pos rfl, found]
        rfl
      cases first with
      | giveUp record =>
          obtain ⟨marked, middle, others, isMarked, isRest, rfl⟩ := applyPicks_giveUp answer
          let failed := row.fail record.nextFailures (unknownTypeMessage record.jobType) now
          have isFailed : table.markFailed record.id record.nextFailures
              (unknownTypeMessage record.jobType) now = (.ok true, table.put failed) := by
            rcases consistent.markFailed_cases record.id record.nextFailures
                (unknownTypeMessage record.jobType) now with ⟨missing, _⟩ | ⟨other, held, answer⟩
            · cases found.symm.trans missing
            · rw [answer, ← Option.some.inj (found.symm.trans held)]
          obtain ⟨isTrue, rfl⟩ := Prod.mk.inj (isMarked.symm.trans isFailed)
          obtain rfl := Except.ok.inj isTrue
          have kept := (Transition.gaveUp record.nextFailures (unknownTypeMessage record.jobType)
            now member).consistent consistent
          have restWaiting := isWaiting_of_same fresh waiting (same failed rfl)
          have applied := kept.ordered.applyPicks_spec restDistinct restWaiting isRest
          refine (ih kept restDistinct restWaiting isRest).cons (same failed rfl) ?_
            (ids_put table failed) (.inr ⟨_, rfl, rfl, rfl, row, found, pending, isRecord, ?_⟩)
          · intro other held
            rw [← Option.some.inj ((moved failed rfl).symm.trans held)]
            simp [failed]
          · rw [applied.unchanged _ fresh]
            exact moved failed rfl
      | claim record =>
          obtain ⟨record?, middle, others, isClaim, isRest, rfl⟩ := applyPicks_claim answer
          have isClaimed : table.claim record.id now =
              ((row.claim now).record.map some, table.put (row.claim now)) := by
            rcases consistent.claim_cases record.id now with ⟨never, _⟩ | ⟨other, held, _, answer⟩
            · exact absurd pending (never row found)
            · rw [answer, ← Option.some.inj (found.symm.trans held)]
          obtain ⟨isRecord?, rfl⟩ := Prod.mk.inj (isClaimed.symm.trans isClaim)
          obtain ⟨handed, isHanded, rfl⟩ := map_eq_ok isRecord?
          have kept := (Transition.claimed now member pending).consistent consistent
          have restWaiting := isWaiting_of_same fresh waiting (same (row.claim now) rfl)
          refine (ih kept restDistinct restWaiting isRest).cons (same (row.claim now) rfl) ?_
            (ids_put table _) (.inl ⟨handed, ?_, rfl, rfl⟩)
          · intro other held
            rw [← Option.some.inj ((moved (row.claim now) rfl).symm.trans held)]
            simp
          · exact (Row.holds_of_record isHanded).id.symm.trans here

theorem Consistent.tick_sifted {table after : Table} (consistent : table.Consistent)
    {registry : Registry} {lanes : Lanes} {batch : Nat} {now : Instant} {tick : Tick}
    (answer : table.tick registry lanes batch now = (.ok tick, after)) :
    Sifted table now tick.claimed tick.unknown after := by
  obtain ⟨records, isReady, isApplied⟩ := applyPicks_of_tick answer
  obtain ⟨distinct, ready⟩ := consistent.ordered.picks_of_ready registry lanes isReady
  exact consistent.applyPicks_sifted distinct (fun chosen member => (ready chosen member).isWaiting)
    isApplied

end Store.Table

end DurableJobs
