import DurableJobs.Proofs.Store.Refusals

/-!
Debouncing: of each key, no more than one record is pending.

The rule holds in every history, and no operation has to be refused for its sake. An enqueued job
with a key becomes the one pending record of it, under the id of the record that it replaces if there
is one; nothing else changes.
-/

set_option autoImplicit false

namespace DurableJobs.Store

/-- The row is pending and holds a job as it was enqueued; when it was created is left open. -/
structure Row.Carries (row : Row) (job : Job) (now : Instant) : Prop where
  jobType : row.jobType = .text job.jobType
  payload : row.payload = .blob job.payload
  priority : row.priority = .integer job.priority.number
  notBefore : row.notBefore = .integer (job.notBeforeAt now).millis
  debounceKey : row.debounceKey = .ofText? job.debounceKey
  sagaId : row.sagaId = .ofText? (job.sagaId.map Uuid.text)
  correlationId : row.correlationId = .text job.correlationId.text
  state : row.state = .pending
  attempts : row.attempts = .integer 0
  failures : row.failures = .integer 0
  lastError : row.lastError = .null
  updatedAt : row.updatedAt = .integer now.millis

theorem Row.carries_ofJob (id : Int) (job : Job) (now : Instant) :
    (ofJob id job now).Carries job now :=
  ⟨rfl, rfl, rfl, rfl, rfl, rfl, rfl, rfl, rfl, rfl, rfl, rfl⟩

theorem Row.carries_coalesce {row : Row} {job : Job} (now : Instant)
    (sameKey : row.debounceKey = .ofText? job.debounceKey) :
    (row.coalesce job now).Carries job now :=
  { carries_ofJob row.id job now with debounceKey := sameKey }

namespace Table

def pendingRows (table : Table) (key : String) : List Row :=
  table.rows.filter fun row => row.state.isPending && row.debounceKey == .text key

theorem mem_pendingRows {table : Table} {key : String} {row : Row} :
    row ∈ table.pendingRows key ↔
      row ∈ table.rows ∧ row.state = .pending ∧ row.debounceKey = .text key := by
  simp [pendingRows, JobState.isPending]

theorem pendingRows_eq_nil_iff {table : Table} {key : String} :
    table.pendingRows key = [] ↔ table.pendingWithKey? key = none := by
  rw [pendingRows, pendingWithKey?, List.filter_eq_nil_iff, List.find?_eq_none]

structure KeyTaken (before : Table) (job : Job) (key : String) (now : Instant) (receipt : Receipt)
    (after : Table) : Prop where
  holder : ∃ row, after.pendingRows key = [row] ∧ row.id = receipt.id ∧ row.Carries job now ∧
    (receipt.isCoalesced = true →
      ∃ old ∈ before.pendingRows key, old.id = receipt.id ∧ row.createdAt = old.createdAt) ∧
    (receipt.isCoalesced = false →
      before.find? receipt.id = none ∧ row.createdAt = .integer now.millis)
  isCoalesced_iff : receipt.isCoalesced = true ↔ before.pendingRows key ≠ []
  unchanged : ∀ id, id ≠ receipt.id → after.find? id = before.find? id

namespace Consistent

variable {table : Table} (consistent : table.Consistent)

include consistent

theorem length_pendingRows_le_one (key : String) : (table.pendingRows key).length ≤ 1 := by
  have apart : (table.pendingRows key).Pairwise fun left right => clash left right = false :=
    consistent.compatible.filter _
  cases rows : table.pendingRows key with
  | nil => simp
  | cons first rest =>
      cases rest with
      | nil => simp
      | cons second rest =>
          have firstHolds := mem_pendingRows.mp (rows ▸ List.mem_cons_self)
          have secondHolds := mem_pendingRows.mp (rows ▸ List.mem_cons_of_mem _ List.mem_cons_self)
          have clashing : clash first second = true :=
            clash_eq_true_iff.mpr ⟨firstHolds.2.1, secondHolds.2.1, by simp [firstHolds.2.2],
              firstHolds.2.2.trans secondHolds.2.2.symm⟩
          rw [rows] at apart
          have noClash := (List.pairwise_cons.mp apart).1 second List.mem_cons_self
          simp [clashing] at noClash

theorem pendingRows_eq_singleton {key : String} {row : Row} (member : row ∈ table.rows)
    (pending : row.state = .pending) (isKey : row.debounceKey = .text key) :
    table.pendingRows key = [row] := by
  have holds : row ∈ table.pendingRows key := mem_pendingRows.mpr ⟨member, pending, isKey⟩
  obtain ⟨only, isOnly⟩ := List.length_eq_one_iff.mp
    (Nat.le_antisymm (consistent.length_pendingRows_le_one key) (List.length_pos_of_mem holds))
  rw [isOnly, List.mem_singleton] at holds
  rw [isOnly, holds]

theorem coalesce_keyTaken {job : Job} {key : String} {row : Row} (now : Instant)
    (isKey : job.debounceKey = some key) (held : table.pendingWithKey? key = some row) :
    KeyTaken table job key now ⟨row.id, true⟩ (table.put (row.coalesce job now)) := by
  obtain ⟨member, pending, rowKey⟩ := of_pendingWithKey? held
  have after : (table.put (row.coalesce job now)).Consistent :=
    (Transition.coalesced now (by rw [isKey]; exact held)).consistent consistent
  have placed : row.coalesce job now ∈ (table.put (row.coalesce job now)).rows :=
    mem_put.mpr (.inl ⟨rfl, row, member, rfl⟩)
  have was : row ∈ table.pendingRows key := mem_pendingRows.mpr ⟨member, pending, rowKey⟩
  refine ⟨⟨row.coalesce job now, after.pendingRows_eq_singleton placed rfl rowKey, rfl,
    Row.carries_coalesce now (by rw [rowKey, isKey]; rfl), fun _ => ⟨row, was, rfl, rfl⟩,
    by simp⟩, ?_, ?_⟩
  · simpa using List.ne_nil_of_mem was
  · intro id different
    rw [find?_put, Row.id_coalesce, if_neg different]

theorem insert_keyTaken {job : Job} {key : String} {id : Int} (now : Instant)
    (isKey : job.debounceKey = some key) (free : table.pendingWithKey? key = none)
    (next : table.nextId? = some id) :
    KeyTaken table job key now ⟨id, false⟩ (table.append (Row.ofJob id job now)) := by
  have after : (table.append (Row.ofJob id job now)).Consistent :=
    (Transition.inserted now (by rw [isKey]; exact free) next).consistent consistent
  have fresh := consistent.find?_nextId next
  have placed : Row.ofJob id job now ∈ (table.append (Row.ofJob id job now)).rows :=
    mem_append.mpr (.inr rfl)
  refine ⟨⟨Row.ofJob id job now,
    after.pendingRows_eq_singleton placed rfl (by simp [isKey, Cell.ofText?]), rfl,
    Row.carries_ofJob id job now, by simp, fun _ => ⟨fresh, rfl⟩⟩, ?_, ?_⟩
  · simpa using pendingRows_eq_nil_iff.mpr free
  · intro other different
    rw [find?_append other fresh, Row.id_ofJob, if_neg different]

end Consistent

/-- In every history no key has two pending records, and no operation is refused because an id or a
key is taken. Enqueuing a job with a key then gives the key its one pending record; the only refusal
is that a new record is needed and ids have run out. -/
theorem debounced_history {table : Table} (reachable : Reachable table) :
    (∀ key, (table.pendingRows key).length ≤ 1) ∧
      (∀ operation column, (table.perform operation).1 ≠ .error (.duplicate column)) ∧
      ∀ (job : Job) (key : String) (now : Instant), job.debounceKey = some key →
        (∃ receipt after, table.enqueue job now = (.ok receipt, after) ∧
          KeyTaken table job key now receipt after) ∨
        (table.enqueue job now = (.error .full, table) ∧ table.pendingRows key = [] ∧
          0x7fffffffffffffff ≤ table.mark) := by
  have consistent := reachable.consistent
  refine ⟨consistent.length_pendingRows_le_one, ?_, ?_⟩
  · intro operation column refused
    rcases consistent.refusal refused with isFull | unreadable
    · cases isFull
    · simp [StoreError.isUnreadable] at unreadable
  · intro job key now isKey
    have held : job.debounceKey.bind table.pendingWithKey? = table.pendingWithKey? key := by
      rw [isKey]
      rfl
    rcases consistent.enqueue_cases job now with
      ⟨row, taken, answer⟩ | ⟨id, free, next, answer⟩ | ⟨free, runOut, answer⟩
    · exact .inl ⟨_, _, answer, consistent.coalesce_keyTaken now isKey (held ▸ taken)⟩
    · exact .inl ⟨_, _, answer, consistent.insert_keyTaken now isKey (held ▸ free) next⟩
    · refine .inr ⟨answer, pendingRows_eq_nil_iff.mpr (held ▸ free), ?_⟩
      rw [nextId?, consistent.lastId_eq_mark] at runOut
      simpa using runOut

theorem debounced_history_twice :
    ∃ table receipt after, Reachable table ∧
      table = (empty.enqueue ((Job.new "reindex" [118] Uuid.zero).withDebounceKey "k")
        Instant.epoch).2 ∧
      KeyTaken table ((Job.new "reindex" [118] Uuid.zero).withDebounceKey "k") "k" Instant.epoch
        receipt after ∧
      receipt.isCoalesced = true := by
  let job := (Job.new "reindex" [118] Uuid.zero).withDebounceKey "k"
  have reachable : Reachable (empty.enqueue job Instant.epoch).2 :=
    .perform .empty (.enqueue job Instant.epoch)
  have held : (empty.enqueue job Instant.epoch).2.pendingRows "k" ≠ [] := by decide +kernel
  rcases (debounced_history reachable).2.2 job "k" Instant.epoch rfl with
    ⟨receipt, after, _, taken⟩ | ⟨_, free, _⟩
  · exact ⟨_, receipt, after, reachable, rfl, taken, taken.isCoalesced_iff.mpr held⟩
  · exact absurd free held

end Table

end DurableJobs.Store
