import DurableJobs.Proofs.Store.Debounce

/-!
Recovery: what becomes of the records that a process left running when it died.

Each of them becomes pending again, or gives way to a pending record with its key and is removed. So
each key that was in use is held by one pending record in the end, whichever of its records were
running, and nothing is left to recover.
-/

set_option autoImplicit false

namespace DurableJobs.Store.Table

/-- The records that were running are reported in order. Each is pending from the given time on, or
gone while a pending record holds its key; all others are as they were. -/
structure Recovered (table : Table) (time now : Instant) (replies : List (Int × Rescheduled))
    (after : Table) : Prop where
  ascending : (replies.map Prod.fst).Pairwise fun left right => left < right
  mem_iff : ∀ id, id ∈ replies.map Prod.fst ↔
    ∃ row, table.find? id = some row ∧ row.state = .running
  idle : ∀ row ∈ after.rows, row.state ≠ .running
  keyHeld : ∀ key,
    (∃ row ∈ table.rows, (row.state = .pending ∨ row.state = .running) ∧
      row.debounceKey = .text key) ↔
    ∃ row, after.pendingRows key = [row]
  pending : ∀ id reported, (id, .pending reported) ∈ replies →
    reported = time ∧ ∃ row, table.find? id = some row ∧
      after.find? id = some
        { row with
          state := .pending
          notBefore := .integer time.millis
          updatedAt := .integer now.millis }
  superseded : ∀ id survivor, (id, .superseded survivor) ∈ replies →
    after.find? id = none ∧ ∃ row holder key, table.find? id = some row ∧
      row.debounceKey = .text key ∧ after.find? survivor = some holder ∧
      holder.state = .pending ∧ holder.debounceKey = .text key
  found : ∀ id, (id, .missing) ∉ replies
  unchanged : ∀ id, (∀ row, table.find? id = some row → row.state ≠ .running) →
    after.find? id = table.find? id

theorem Consistent.mem_runningIds_iff {table : Table} (consistent : table.Consistent) {id : Int} :
    id ∈ table.runningIds ↔ ∃ row, table.find? id = some row ∧ row.state = .running := by
  rw [mem_runningIds]
  constructor
  · rintro ⟨row, member, running, rfl⟩
    exact ⟨row, consistent.find?_of_mem member, running⟩
  · rintro ⟨row, found, running⟩
    exact ⟨row, mem_of_find? found, running, id_of_find? found⟩

section RescheduledAll

variable {table after : Table} {ids : List Int} {notBefore now : Instant}
  {replies : List (Int × Rescheduled)}

/-- A record of the list is pending again in the end, or gone while a pending one holds its key. -/
theorem RescheduledAll.fate (all : RescheduledAll table ids notBefore now replies after) {id : Int}
    (listed : id ∈ ids) {row : Row} (found : table.find? id = some row) :
    after.find? id = some (row.reschedule notBefore now) ∨
      after.find? id = none ∧ ∃ holder key, row.debounceKey = .text key ∧ holder ∈ after.rows ∧
        holder.state = .pending ∧ holder.debounceKey = .text key := by
  obtain ⟨⟨_, reply⟩, member, rfl⟩ := List.mem_map.mp (all.ids_eq ▸ listed)
  cases reply with
  | pending time =>
      obtain ⟨_, other, isOther, moved⟩ := all.pending _ time member
      obtain rfl := Option.some.inj (found.symm.trans isOther)
      exact .inl moved
  | superseded survivor =>
      obtain ⟨gone, other, holder, key, isOther, isKey, held, pending, sameKey⟩ :=
        all.superseded _ survivor member
      obtain rfl := Option.some.inj (found.symm.trans isOther)
      exact .inr ⟨gone, holder, key, isKey, mem_of_find? held, pending, sameKey⟩
  | missing => cases found.symm.trans (all.missing _ member)

variable (consistent : table.Consistent)
  (all : RescheduledAll table table.runningIds notBefore now replies after)

include consistent all

theorem RescheduledAll.not_running {row : Row} (member : row ∈ after.rows) :
    row.state ≠ .running := by
  have left := (all.reaches.consistent consistent).find?_of_mem member
  intro running
  by_cases listed : row.id ∈ table.runningIds
  · obtain ⟨old, found, _⟩ := consistent.mem_runningIds_iff.mp listed
    rcases all.fate listed found with moved | ⟨gone, _⟩
    · rw [Option.some.inj (left.symm.trans moved)] at running
      cases running
    · cases left.symm.trans gone
  · rw [all.unchanged _ listed] at left
    exact listed (consistent.mem_runningIds_iff.mpr ⟨row, left, running⟩)

theorem RescheduledAll.key_held_iff (key : String) :
    (∃ row ∈ table.rows, (row.state = .pending ∨ row.state = .running) ∧
        row.debounceKey = .text key) ↔
      ∃ row, after.pendingRows key = [row] := by
  have kept := all.reaches.consistent consistent
  constructor
  · rintro ⟨row, member, inUse, isKey⟩
    have found := consistent.find?_of_mem member
    by_cases listed : row.id ∈ table.runningIds
    · -- The record holds its key again, or the one does to which it gave way.
      rcases all.fate listed found with
        moved | ⟨_, holder, other, isOther, isHolder, pending, sameKey⟩
      · exact ⟨_, kept.pendingRows_eq_singleton (mem_of_find? moved) rfl isKey⟩
      · rw [Cell.text.inj (isOther.symm.trans isKey)] at sameKey
        exact ⟨holder, kept.pendingRows_eq_singleton isHolder pending sameKey⟩
    · have pending : row.state = .pending := inUse.resolve_right fun running =>
        listed (consistent.mem_runningIds_iff.mpr ⟨row, found, running⟩)
      rw [← all.unchanged _ listed] at found
      exact ⟨row, kept.pendingRows_eq_singleton (mem_of_find? found) pending isKey⟩
  · rintro ⟨row, isOnly⟩
    obtain ⟨member, pending, isKey⟩ := mem_pendingRows.mp (isOnly ▸ List.mem_singleton_self row)
    have left := kept.find?_of_mem member
    by_cases listed : row.id ∈ table.runningIds
    · obtain ⟨old, found, running⟩ := consistent.mem_runningIds_iff.mp listed
      rcases all.fate listed found with moved | ⟨gone, _⟩
      · rw [Option.some.inj (left.symm.trans moved)] at isKey
        exact ⟨old, mem_of_find? found, .inr running, isKey⟩
      · cases left.symm.trans gone
    · rw [all.unchanged _ listed] at left
      exact ⟨row, mem_of_find? left, .inl pending, isKey⟩

theorem RescheduledAll.recovered : Recovered table notBefore now replies after where
  ascending := by
    rw [all.ids_eq]
    exact List.pairwise_map.mpr (consistent.sorted.filter _)
  mem_iff := fun id => by rw [all.ids_eq, consistent.mem_runningIds_iff]
  idle := fun _ => all.not_running consistent
  keyHeld := all.key_held_iff consistent
  pending := all.pending
  superseded := all.superseded
  found := by
    intro id member
    have listed : id ∈ table.runningIds := all.ids_eq ▸ List.mem_map_of_mem member
    obtain ⟨row, found, _⟩ := consistent.mem_runningIds_iff.mp listed
    cases found.symm.trans (all.missing id member)
  unchanged := by
    intro id idle
    refine all.unchanged id fun listed => ?_
    obtain ⟨row, found, running⟩ := consistent.mem_runningIds_iff.mp listed
    exact idle row found running

end RescheduledAll

theorem recover_of_idle {table : Table} (idle : ∀ row ∈ table.rows, row.state ≠ .running)
    (recovery : Recovery) (policy : RetryPolicy) (draw : Nat) (now : Instant) :
    table.recover recovery policy draw now = (.ok [], table) := by
  have none : table.runningIds = [] := by
    rw [runningIds, List.map_eq_nil_iff, List.filter_eq_nil_iff]
    intro row member
    simpa using idle row member
  show table.rescheduleAll table.runningIds (recoveryTime recovery policy draw now) now = _
  rw [none]
  rfl

/-- Recovery succeeds in every history and settles each running record, so that recovering once more
finds nothing to do. -/
theorem Reachable.recovers_running {table : Table} (reachable : Reachable table) (recovery : Recovery)
    (policy : RetryPolicy) (draw : Nat) (now : Instant) :
    ∃ replies after, table.recover recovery policy draw now = (.ok replies, after) ∧
      Recovered table (recoveryTime recovery policy draw now) now replies after ∧
      ∀ nextRecovery nextPolicy nextDraw later,
        after.recover nextRecovery nextPolicy nextDraw later = (.ok [], after) := by
  have consistent := reachable.consistent
  obtain ⟨replies, after, answer, all⟩ := consistent.recover_spec recovery policy draw now
  have recovered := all.recovered consistent
  exact ⟨replies, after, answer, recovered, recover_of_idle recovered.idle⟩

/-- Of two running records one has a newer pending record with its key, to which it gives way. -/
theorem recovers_running_orphans :
    ∃ (table after : Table) (replies : List (Int × Rescheduled)),
      Reachable table ∧ table.runningIds = [1, 3] ∧
      Recovered table Instant.epoch Instant.epoch replies after ∧
      replies = [(1, .superseded 2), (3, .pending Instant.epoch)] := by
  let keyed : Job := (Job.new "reindex" [118] Uuid.zero).withDebounceKey "k"
  let claimed : Table :=
    ((empty.perform (.enqueue keyed Instant.epoch)).2.perform (.claim 1 Instant.epoch)).2
  let joined : Table := ((claimed.perform (.enqueue keyed Instant.epoch)).2.perform
    (.enqueue (Job.new "mail" [119] Uuid.zero) Instant.epoch)).2
  let table : Table := (joined.perform (.claim 3 Instant.epoch)).2
  have reachable : Reachable table :=
    .perform (.perform (.perform (.perform (.perform .empty _) _) _) _) _
  obtain ⟨replies, after, answer, recovered, _⟩ :=
    reachable.recovers_running .immediately RetryPolicy.standard 0 Instant.epoch
  have isReplies : (table.recover .immediately RetryPolicy.standard 0 Instant.epoch).1.toOption =
      some [(1, .superseded 2), (3, .pending Instant.epoch)] := by decide +kernel
  rw [answer] at isReplies
  exact ⟨table, after, replies, reachable, by decide +kernel, recovered, Option.some.inj isReplies⟩

end DurableJobs.Store.Table
