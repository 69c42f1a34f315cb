import DurableJobs.Proofs.Engine.Ticks
import DurableJobs.Proofs.Instant
import DurableJobs.Proofs.Registry

/-!
Which records a tick claims, and in which order.

A tick looks at the table again before it claims, so what it claims is pending and due then. It claims
in the order in which the ready records stand, and leaves none of them out that needs no slot.
-/

set_option autoImplicit false

namespace DurableJobs

namespace Registry

def isTransactional (registry : Registry) (record : Record) : Bool :=
  registry.kindOf record.jobType == some .transactional

end Registry

theorem claim_mem_pick {registry : Registry} {lanes : Lanes} {records : List Record}
    {record : Record} (member : record ∈ records)
    (isKind : registry.kindOf record.jobType = some .transactional) :
    .claim record ∈ pick registry lanes records := by
  induction records generalizing lanes with
  | nil => cases member
  | cons first rest ih =>
      rw [pick]
      rcases List.mem_cons.mp member with rfl | later
      · rw [isKind]
        exact List.mem_cons_self
      · split
        · exact List.mem_cons_of_mem _ (ih later)
        · split
          · exact List.mem_cons_of_mem _ (ih later)
          · exact ih later

namespace Store.Table

/-- The record was pending and due before it was claimed. -/
def WasDue (table : Table) (now : Instant) (record : Record) : Prop :=
  ∃ row stored, table.find? record.id = some row ∧ row.state = .pending ∧
    row.notBefore = .integer stored ∧ stored ≤ now.millis ∧
    Instant.ofMillis? stored = some record.notBefore ∧ record.notBefore.nanos ≤ now.nanos ∧
    (row.claim now).record = .ok record

section Ticks

variable {table after : Table} {registry : Registry} {lanes : Lanes} {batch : Nat} {now : Instant}
  {tick : Tick}

theorem Ordered.due_of_tick (ordered : table.Ordered)
    (answer : table.tick registry lanes batch now = (.ok tick, after)) :
    ∀ record ∈ tick.claimed, table.WasDue now record := by
  intro record member
  obtain ⟨records, isReady, applied⟩ := ordered.picks_of_tick answer
  obtain ⟨row, found, pending, _, isRecord⟩ := (applied.claimed record member).row
  obtain ⟨stored, isStored, isInstant⟩ := (Row.holds_of_record isRecord).notBefore
  -- The record was picked from the ready ones, and those are due.
  have picked : record.id ∈ (pick registry lanes records).map fun pick => pick.record.id :=
    (map_id_claimed_sublist _).mem (applied.ids ▸ List.mem_map_of_mem member)
  obtain ⟨chosen, isChosen, sameId⟩ := List.mem_map.mp picked
  obtain ⟨other, isOther, _, _, due⟩ := (ordered.picks_of_ready registry lanes isReady).2 chosen isChosen
  rw [sameId] at isOther
  obtain rfl := Option.some.inj (found.symm.trans isOther)
  have isCell : row.notBefore = .integer stored := isStored
  have early : stored ≤ now.millis := by
    have notAfter := (Bool.and_eq_true _ _ ▸ due).1
    rw [isCell, Cell.compare, bne_iff_ne, ne_eq, Std.compare_eq_gt] at notAfter
    exact Int.not_lt.mp notAfter
  refine ⟨row, stored, found, pending, isCell, early, isInstant, ?_, isRecord⟩
  rw [Instant.nanos_of_ofMillis? isInstant]
  rw [Instant.millis] at early
  omega

theorem jobType_of_claimed {record source : Record} {excluded : List String}
    (claimed : Claimed table record now after) (isReady : table.IsReady now excluded source)
    (sameId : record.id = source.id) : record.jobType = source.jobType := by
  obtain ⟨row, found, _, _, isRecord⟩ := claimed.row
  obtain ⟨other, isOther, _, isSource, _⟩ := isReady
  obtain rfl := Option.some.inj (found.symm.trans (sameId ▸ isOther))
  exact Cell.text.inj ((Row.holds_of_record isRecord).jobType.symm.trans
    (Row.holds_of_record isSource).jobType)

/-- When the later of two ready transactional records is claimed, so is the earlier one, and first. -/
theorem Ordered.claimed_in_order (ordered : table.Ordered) (distinct : registry.Distinct)
    (answer : table.tick registry lanes batch now = (.ok tick, after)) {earlier later : Record}
    (earlierReady : table.IsReady now [] earlier) (laterReady : table.IsReady now [] later)
    (earlierKind : registry.isTransactional earlier = true)
    (laterKind : registry.isTransactional later = true) (precedes : earlier.Precedes later)
    (isClaimed : later.id ∈ tick.claimed.map Record.id) :
    ∃ first second, first.id = earlier.id ∧ second.id = later.id ∧
      [first, second].Sublist (tick.claimed.filter registry.isTransactional) := by
  obtain ⟨records, isReady, applied⟩ := ordered.picks_of_tick answer
  obtain ⟨sorted, _, _⟩ := ordered.ready_spec isReady
  have isSublist : ((pick registry lanes records).filterMap Pick.claimed?).Sublist records :=
    (claimed_sublist _).trans (map_record_pick_sublist registry lanes records)
  have isIncluded : table.IsReady now (lanes.excluded registry) earlier := by
    obtain ⟨row, found, pending, isRecord, due⟩ := earlierReady
    refine ⟨row, found, pending, isRecord, ?_⟩
    have unexcluded := distinct.not_mem_excluded lanes (beq_iff_eq.mp earlierKind)
    rw [isDue, Bool.and_eq_true] at due ⊢
    refine ⟨due.1, List.all_eq_true.mpr fun jobType member => ?_⟩
    rw [(Row.holds_of_record isRecord).jobType, bne_iff_ne]
    rintro ⟨rfl⟩
    exact unexcluded member
  have laterClaim : later ∈ (pick registry lanes records).filterMap Pick.claimed? := by
    rw [applied.ids] at isClaimed
    obtain ⟨source, isSource, sameId⟩ := List.mem_map.mp isClaimed
    obtain ⟨row, found, _, isRecord, _⟩ := (ordered.ready_spec isReady).2.2 source
      (isSublist.mem isSource)
    obtain ⟨other, isOther, _, isLater, _⟩ := laterReady
    obtain rfl := Option.some.inj (found.symm.trans (sameId ▸ isOther))
    rwa [← Except.ok.inj (isRecord.symm.trans isLater)]
  have forward := ordered.sublist_of_precedes isReady isIncluded (isSublist.mem laterClaim) precedes
  have earlierClaim : earlier ∈ (pick registry lanes records).filterMap Pick.claimed? :=
    List.mem_filterMap.mpr ⟨.claim earlier,
      claim_mem_pick (forward.mem List.mem_cons_self) (beq_iff_eq.mp earlierKind), rfl⟩
  have inOrder : [earlier, later].Sublist ((pick registry lanes records).filterMap Pick.claimed?) := by
    have different : earlier ≠ later := by
      rintro rfl
      exact precedes.asymm precedes
    rcases sublist_or_sublist_of_mem earlierClaim laterClaim different with kept | swapped
    · exact kept
    · exact absurd (List.pairwise_iff_forall_sublist.mp (sorted.sublist isSublist) swapped)
        precedes.asymm
  have byId := inOrder.map Record.id
  rw [← applied.ids] at byId
  obtain ⟨claims, isClaims, ids⟩ := List.sublist_map_iff.mp byId
  obtain ⟨first, others, rfl, firstId, ofOthers⟩ := List.map_eq_cons_iff.mp ids.symm
  obtain ⟨second, rest, rfl, secondId, ofRest⟩ := List.map_eq_cons_iff.mp ofOthers
  obtain rfl := List.map_eq_nil_iff.mp ofRest
  have firstKind : registry.isTransactional first = true := by
    rw [Registry.isTransactional, jobType_of_claimed (applied.claimed first
      (isClaims.mem List.mem_cons_self)) earlierReady firstId]
    exact earlierKind
  have secondKind : registry.isTransactional second = true := by
    rw [Registry.isTransactional, jobType_of_claimed (applied.claimed second
      (isClaims.mem (List.mem_cons_of_mem _ List.mem_cons_self))) laterReady secondId]
    exact laterKind
  have kept := isClaims.filter registry.isTransactional
  rw [List.filter_cons_of_pos firstKind, List.filter_cons_of_pos secondKind, List.filter_nil] at kept
  exact ⟨first, second, firstId, secondId, kept⟩

end Ticks

end Store.Table

end DurableJobs
