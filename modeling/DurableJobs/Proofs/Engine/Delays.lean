import DurableJobs.Proofs.Engine.Leftovers
import DurableJobs.Proofs.Store.Reports

/-!
How long a record is held back.

A job may ask for a delay when it is enqueued, and an execution when it asks to be run again. The
delay is counted in whole milliseconds, as is everything that the store keeps of time. So no tick
claims the record before the whole milliseconds of the delay are over, but one may do so within the
last millisecond when that one is not asked for in full.
-/

set_option autoImplicit false

namespace DurableJobs

namespace Store.Table

/-- The record is pending from a moment on, and as long as its row stays as it is, no tick claims it
before. Moments are counted in nanoseconds. -/
structure HeldUntil (table : Table) (id moment : Int) : Prop where
  row : ∃ row millis, table.find? id = some row ∧ row.state = .pending ∧
    row.notBefore = .integer millis ∧ moment ≤ millis * 1000000
  unclaimed : ∀ later : Table, later.Ordered → later.find? id = table.find? id →
    ∀ registry lanes batch reading tick after,
      later.tick registry lanes batch reading = (.ok tick, after) →
        id ∈ tick.claimed.map Record.id → moment ≤ reading.nanos

/-- No tick claims a record before the time that its row shows. -/
theorem heldUntil_iff {table : Table} {id millis : Int} {row : Row}
    (found : table.find? id = some row) (pending : row.state = .pending)
    (isMillis : row.notBefore = .integer millis) (moment : Int) :
    table.HeldUntil id moment ↔ moment ≤ millis * 1000000 := by
  constructor
  · rintro ⟨⟨other, stored, isOther, _, isStored, held⟩, _⟩
    obtain rfl := Option.some.inj (found.symm.trans isOther)
    rwa [← Cell.integer.inj (isMillis.symm.trans isStored)] at held
  · intro held
    refine ⟨⟨row, millis, found, pending, isMillis, held⟩, ?_⟩
    intro later ordered same registry lanes batch reading tick after answer claimed
    obtain ⟨record, member, rfl⟩ := List.mem_map.mp claimed
    obtain ⟨other, stored, isOther, _, isStored, early, _⟩ :=
      ordered.due_of_tick answer record member
    obtain rfl := Option.some.inj ((same.trans found).symm.trans isOther)
    rw [← Cell.integer.inj (isMillis.symm.trans isStored), Instant.millis] at early
    omega

/-- The record is held back for the whole milliseconds of a delay, and for all of it if and only if
there is nothing but whole milliseconds. -/
structure Delayed (table : Table) (id : Int) (now : Instant) (delay : Duration) : Prop where
  whole : table.HeldUntil id (now.nanos + delay.millis * 1000000)
  exact_iff : table.HeldUntil id (now.nanos + delay.nanos) ↔ delay.nanos % 1000000 = 0

theorem delayed_of_row {table : Table} {id : Int} {row : Row} {now : Instant} {delay : Duration}
    (whole : now.IsWhole) (fits : now.nanos + delay.nanos ≤ Instant.latest.nanos)
    (found : table.find? id = some row) (pending : row.state = .pending)
    (isMillis : row.notBefore = .integer (now.after delay).millis) :
    table.Delayed id now delay := by
  have stored := whole.millis_after fits
  have parts : delay.millis = delay.nanos / 1000000 := rfl
  refine ⟨(heldUntil_iff found pending isMillis _).mpr (Int.le_of_eq stored.symm), ?_⟩
  rw [heldUntil_iff found pending isMillis, stored]
  omega

namespace Consistent

variable {table : Table} (consistent : table.Consistent) {now : Instant} {delay : Duration}

include consistent

theorem enqueue_delayed (whole : now.IsWhole)
    (fits : now.nanos + delay.nanos ≤ Instant.latest.nanos) (job : Job) :
    (∃ receipt after, table.enqueue (job.withDelay delay) now = (.ok receipt, after) ∧
        after.Delayed receipt.id now delay) ∨
      (table.enqueue (job.withDelay delay) now = (.error .full, table) ∧
        0x7fffffffffffffff ≤ table.mark) := by
  rcases consistent.enqueue_cases (job.withDelay delay) now with
    ⟨row, held, answer⟩ | ⟨id, free, next, answer⟩ | ⟨_, runOut, answer⟩
  · obtain ⟨_, _, member, _, _⟩ := of_bind_pendingWithKey? held
    have placed : (table.put (row.coalesce (job.withDelay delay) now)).find? row.id =
        some (row.coalesce (job.withDelay delay) now) := by
      rw [find?_put, Row.id_coalesce, if_pos rfl, consistent.find?_of_mem member]
      rfl
    exact .inl ⟨_, _, answer, delayed_of_row whole fits placed rfl rfl⟩
  · have placed : (table.append (Row.ofJob id (job.withDelay delay) now)).find? id =
        some (Row.ofJob id (job.withDelay delay) now) := by
      rw [find?_append id (consistent.find?_nextId next), Row.id_ofJob, if_pos rfl]
    exact .inl ⟨_, _, answer, delayed_of_row whole fits placed rfl rfl⟩
  · refine .inr ⟨answer, ?_⟩
    rw [nextId?, consistent.lastId_eq_mark] at runOut
    simpa using runOut

theorem retryAfter_delayed (whole : now.IsWhole)
    (fits : now.nanos + delay.nanos ≤ Instant.latest.nanos) {record : Record} {row : Row}
    (found : table.find? record.id = some row) (free : table.survivor? row = none) :
    ∃ after, table.settleOutcome record (.retryAfter delay) now =
        (.ok (.retrying (now.after delay) none), after) ∧
      after.Delayed record.id now delay := by
  rcases consistent.reschedule_cases record.id (now.after delay) none now with
    ⟨missing, _⟩ | ⟨other, survivor, isOther, held, _⟩ | ⟨other, isOther, _, answer⟩
  · cases found.symm.trans missing
  · obtain rfl := Option.some.inj (found.symm.trans isOther)
    cases free.symm.trans held
  · obtain rfl := Option.some.inj (found.symm.trans isOther)
    refine ⟨table.put (row.comeBack (now.after delay) none now),
      by simp [settleOutcome, answer, Settlement.ofRescheduled], ?_⟩
    have placed : (table.put (row.comeBack (now.after delay) none now)).find? record.id =
        some (row.comeBack (now.after delay) none now) := by
      rw [find?_put, Row.id_comeBack, id_of_find? found, if_pos rfl, found]
      rfl
    exact delayed_of_row whole fits placed (Row.state_comeBack _ _ _ _)
      (Row.notBefore_comeBack _ _ _ _)

/-- A delay that an execution or a job asks for holds the record back in whole milliseconds: for all
of the delay if and only if it has no part of a millisecond. -/
theorem delays_kept (whole : now.IsWhole)
    (fits : now.nanos + delay.nanos ≤ Instant.latest.nanos) :
    (∀ (record : Record) (row : Row), table.find? record.id = some row → row.state = .running →
        table.survivor? row = none →
        ∃ after, table.settleOutcome record (.retryAfter delay) now =
            (.ok (.retrying (now.after delay) none), after) ∧
          after.Delayed record.id now delay) ∧
      ∀ job : Job,
        (∃ receipt after, table.enqueue (job.withDelay delay) now = (.ok receipt, after) ∧
            after.Delayed receipt.id now delay) ∨
          (table.enqueue (job.withDelay delay) now = (.error .full, table) ∧
            0x7fffffffffffffff ≤ table.mark) :=
  ⟨fun _ _ found _ free => consistent.retryAfter_delayed whole fits found free,
    consistent.enqueue_delayed whole fits⟩

end Consistent

/-- A running record and a new one are both held back for a delay of five milliseconds. -/
theorem delays_kept_milliseconds :
    ∃ (record : Record) (table retried enqueued : Table) (job : Job) (receipt : Receipt),
      table.Consistent ∧
      table.settleOutcome record (.retryAfter (Duration.ofMillis 5)) Instant.epoch =
        (.ok (.retrying (Instant.epoch.after (Duration.ofMillis 5)) none), retried) ∧
      retried.HeldUntil record.id 5000000 ∧
      table.enqueue (job.withDelay (Duration.ofMillis 5)) Instant.epoch =
        (.ok receipt, enqueued) ∧
      enqueued.HeldUntil receipt.id 5000000 := by
  let job : Job := Job.new "reindex" [118] Uuid.zero
  let row : Row := (Row.ofJob 1 job Instant.epoch).claim Instant.epoch
  have consistent := written_running.reachable.consistent
  have found : running.find? claimed.id = some row := by decide +kernel
  have fits : Instant.epoch.nanos + (Duration.ofMillis 5).nanos ≤ Instant.latest.nanos := by
    decide +kernel
  obtain ⟨settling, enqueuing⟩ := consistent.delays_kept isWhole_epoch fits
  obtain ⟨retried, settled, held⟩ := settling claimed row found rfl (by decide +kernel)
  rcases enqueuing job with ⟨receipt, enqueued, answer, newHeld⟩ | ⟨_, runOut⟩
  · exact ⟨claimed, running, retried, enqueued, job, receipt, consistent, settled,
      held.exact_iff.mpr (by decide +kernel), answer, newHeld.exact_iff.mpr (by decide +kernel)⟩
  · exact absurd runOut (by decide +kernel)

/-- A delay of half a millisecond is none at all: a tick claims the record in the millisecond in
which it was enqueued. -/
theorem delay_cut_short :
    ∃ (registry : Registry) (job : Job) (delay : Duration) (table after : Table) (receipt : Receipt)
        (tick : Tick),
      Instant.epoch.IsWhole ∧ Instant.epoch.nanos + delay.nanos ≤ Instant.latest.nanos ∧
      empty.enqueue (job.withDelay delay) Instant.epoch = (.ok receipt, table) ∧
      ¬ table.HeldUntil receipt.id (Instant.epoch.nanos + delay.nanos) ∧
      table.tick registry ⟨1, 1⟩ 32 Instant.epoch = (.ok tick, after) ∧
      receipt.id ∈ tick.claimed.map Record.id ∧
      Instant.epoch.nanos < Instant.epoch.nanos + delay.nanos := by
  let registry : Registry := ⟨[("mail", .transactional)]⟩
  let job : Job := Job.new "mail" [118] Uuid.zero
  let delay : Duration := Duration.ofNanos 500000
  let row : Row := Row.ofJob 1 (job.withDelay delay) Instant.epoch
  let table : Table := ⟨[row], 1, false⟩
  have enqueued : empty.enqueue (job.withDelay delay) Instant.epoch = (.ok ⟨1, false⟩, table) := by
    decide +kernel
  have found : table.find? 1 = some row := rfl
  have stored : row.notBefore = .integer 0 := by decide +kernel
  have sorted : table.admitted .pending = table.rows := List.mergeSort_singleton row
  obtain ⟨tick, after, answer, claimed⟩ :
      ∃ tick after, table.tick registry ⟨1, 1⟩ 32 Instant.epoch = (.ok tick, after) ∧
        decide (1 ∈ tick.claimed.map Record.id) = true := by
    refine exists_of_tick (fun tick _ => decide (1 ∈ tick.claimed.map Record.id)) ?_
    simp only [Table.tick, Table.ready, sorted]
    decide +kernel
  refine ⟨registry, job, delay, table, after, ⟨1, false⟩, tick, isWhole_epoch, by decide +kernel,
    enqueued, ?_, answer, of_decide_eq_true claimed, by decide +kernel⟩
  rw [heldUntil_iff found rfl stored]
  decide +kernel

end Store.Table

end DurableJobs
