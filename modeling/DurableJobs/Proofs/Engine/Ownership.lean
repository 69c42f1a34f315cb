import DurableJobs.Proofs.Engine.Ticks

/-!
Running records and those who own them.

A tick hands each claimed record out to one execution, which owns it until it settles it. While it
does, whatever else happens to the table leaves the row of the record as the claim made it.
-/

set_option autoImplicit false

namespace DurableJobs.Store.Table

/-- The record is running, and stands in the table as it was handed out. -/
def IsRunning (table : Table) (record : Record) : Prop :=
  ∃ row, table.find? record.id = some row ∧ row.state = .running ∧ row.record = .ok record

structure Owned (table : Table) (owned : List Record) : Prop where
  consistent : table.Consistent
  distinct : (owned.map Record.id).Nodup
  running : ∀ record ∈ owned, table.IsRunning record

/-- What can happen to a table some of whose records are owned: jobs are enqueued, records canceled,
requeued or, as long as none is owned, recovered; a tick hands out more; and an owner, who may
enqueue jobs first, settles its record. An owner may also be lost, and have enqueued jobs before. -/
inductive Deal : Table → List Record → Table → List Record → Prop where
  | enqueued {table after : Table} {owned : List Record} (enqueues : Enqueues table after) :
      Deal table owned after owned
  | canceled {table : Table} {owned : List Record} (id : Int) :
      Deal table owned (table.cancel id).2 owned
  | requeued {table : Table} {owned : List Record} (id : Int) (now : Instant) :
      Deal table owned (table.requeue id now).2 owned
  | recovered {table : Table} (recovery : Recovery) (policy : RetryPolicy) (draw : Nat)
      (now : Instant) : Deal table [] (table.recover recovery policy draw now).2 []
  | ticked {table after : Table} {owned : List Record} {registry : Registry} {lanes : Lanes}
      {batch : Nat} {now : Instant} {tick : Tick}
      (answer : table.tick registry lanes batch now = (.ok tick, after)) :
      Deal table owned after (owned ++ tick.claimed)
  | settled {table middle after : Table} {left right : List Record} {record : Record}
      {result : Except JobError Outcome} {policy : RetryPolicy} {draw : Nat} {now : Instant}
      {settlement : Settlement} (enqueues : Enqueues table middle)
      (answer : middle.settle record result policy draw now = (.ok settlement, after)) :
      Deal table (left ++ record :: right) after (left ++ right)
  | lost {table after : Table} {owned fewer : List Record} (enqueues : Enqueues table after)
      (sublist : fewer.Sublist owned) : Deal table owned after fewer

theorem IsRunning.spared {table after : Table} {record : Record}
    (running : table.IsRunning record) (spared : SparesRunning table after) :
    after.IsRunning record := by
  obtain ⟨row, found, isRunning, isRecord⟩ := running
  exact ⟨row, spared _ row found isRunning, isRunning, isRecord⟩

theorem IsRunning.find?_eq {table after : Table} {record : Record}
    (running : table.IsRunning record) (spared : SparesRunning table after) :
    after.find? record.id = table.find? record.id := by
  obtain ⟨row, found, isRunning, _⟩ := running
  rw [found]
  exact spared _ row found isRunning

theorem Owned.spared {table after : Table} {owned : List Record} (isOwned : table.Owned owned)
    (consistent : after.Consistent) (spared : SparesRunning table after) : after.Owned owned :=
  ⟨consistent, isOwned.distinct, fun record member => (isOwned.running record member).spared spared⟩

theorem Owned.id_ne_of_settled {table : Table} {left right : List Record} {record other : Record}
    (isOwned : table.Owned (left ++ record :: right)) (member : other ∈ left ++ right) :
    other.id ≠ record.id := by
  have distinct := isOwned.distinct
  rw [List.map_append, List.map_cons, List.nodup_middle, List.nodup_cons, ← List.map_append]
    at distinct
  exact fun same => distinct.1 (same ▸ List.mem_map_of_mem member)

/-- Whatever happens, the row of a record that stays with its owner does not change. -/
theorem Deal.find?_eq {table after : Table} {owned next : List Record}
    (deal : Deal table owned after next) (isOwned : table.Owned owned) {record : Record}
    (before : record ∈ owned) (still : record ∈ next) :
    after.find? record.id = table.find? record.id := by
  have running := isOwned.running record before
  cases deal with
  | enqueued enqueues =>
      exact running.find?_eq (isOwned.consistent.enqueues_spares enqueues).2
  | canceled id => exact running.find?_eq (isOwned.consistent.cancel_spares id)
  | requeued id now => exact running.find?_eq (isOwned.consistent.requeue_spares id now)
  | recovered => cases before
  | ticked answer => exact running.find?_eq (isOwned.consistent.tick_spec answer).spared
  | @settled _ middle left right settledRecord result policy draw now settlement enqueues answer =>
      obtain ⟨consistent, spared⟩ := isOwned.consistent.enqueues_spares enqueues
      have kept := consistent.find?_settle_of_ne settledRecord result policy draw now
        (isOwned.id_ne_of_settled still)
      rw [answer] at kept
      exact kept.trans (running.find?_eq spared)
  | lost enqueues sublist =>
      exact running.find?_eq (isOwned.consistent.enqueues_spares enqueues).2

/-- A running record that nobody owns comes to no owner. -/
theorem Deal.unowned {table after : Table} {owned next : List Record} {record : Record}
    (deal : Deal table owned after next) (consistent : table.Consistent)
    (running : table.IsRunning record) (unowned : ∀ other ∈ owned, other.id ≠ record.id) :
    ∀ other ∈ next, other.id ≠ record.id := by
  cases deal with
  | enqueued | canceled | requeued | recovered => exact unowned
  | ticked answer =>
      intro other member same
      rcases List.mem_append.mp member with before | claimed
      · exact unowned other before same
      · obtain ⟨old, oldFound, pending, _⟩ := ((consistent.tick_spec answer).claimed other claimed).row
        obtain ⟨row, found, isRunning, _⟩ := running
        rw [same, found] at oldFound
        rw [Option.some.inj oldFound, pending] at isRunning
        cases isRunning
  | @settled _ middle left right settledRecord =>
      intro other member
      refine unowned other ?_
      rcases List.mem_append.mp member with isLeft | isRight
      · exact List.mem_append_left _ isLeft
      · exact List.mem_append_right _ (List.mem_cons_of_mem _ isRight)
  | lost _ sublist => exact fun other member => unowned other (sublist.mem member)

theorem Deal.owned {table after : Table} {owned next : List Record}
    (deal : Deal table owned after next) (isOwned : table.Owned owned) : after.Owned next := by
  have consistent := isOwned.consistent
  cases deal with
  | enqueued enqueues =>
      obtain ⟨kept, spared⟩ := consistent.enqueues_spares enqueues
      exact isOwned.spared kept spared
  | canceled id =>
      exact isOwned.spared ((consistent.perform_reaches (.cancel id)).consistent consistent)
        (consistent.cancel_spares id)
  | requeued id now =>
      exact isOwned.spared ((consistent.perform_reaches (.requeue id now)).consistent consistent)
        (consistent.requeue_spares id now)
  | recovered recovery policy draw now =>
      exact ⟨(consistent.perform_reaches (.recover recovery policy draw now)).consistent consistent,
        .nil, by simp⟩
  | @ticked _ _ registry lanes batch now tick answer =>
      have ticked := consistent.tick_spec answer
      have claimedRunning : ∀ record ∈ tick.claimed, after.IsRunning record := by
        intro record member
        obtain ⟨old, _, _, found, isRecord⟩ := (ticked.claimed record member).row
        exact ⟨old.claim now, found, rfl, isRecord⟩
      refine ⟨ticked.reaches.consistent consistent, ?_, ?_⟩
      · -- What is owned is running and what is claimed was pending, so no id is in both.
        rw [List.map_append]
        refine List.Nodup.append isOwned.distinct ticked.distinct ?_
        intro id isOwnedId isClaimedId
        obtain ⟨record, member, rfl⟩ := List.mem_map.mp isOwnedId
        obtain ⟨other, otherMember, same⟩ := List.mem_map.mp isClaimedId
        obtain ⟨row, found, running, _⟩ := isOwned.running record member
        obtain ⟨old, oldFound, pending, _⟩ := (ticked.claimed other otherMember).row
        rw [same, found] at oldFound
        obtain rfl := Option.some.inj oldFound
        rw [pending] at running
        cases running
      · intro record member
        rcases List.mem_append.mp member with before | new
        · exact (isOwned.running record before).spared ticked.spared
        · exact claimedRunning record new
  | @settled _ middle left right record result policy draw now settlement enqueues answer =>
      obtain ⟨kept, spared⟩ := consistent.enqueues_spares enqueues
      have settledConsistent :=
        (kept.settle_reaches record result policy draw now).consistent kept
      rw [answer] at settledConsistent
      have distinct := isOwned.distinct
      rw [List.map_append, List.map_cons, List.nodup_middle, List.nodup_cons, ← List.map_append]
        at distinct
      refine ⟨settledConsistent, distinct.2, ?_⟩
      intro other member
      have wasOwned : other ∈ left ++ record :: right := by
        rcases List.mem_append.mp member with isLeft | isRight
        · exact List.mem_append_left _ isLeft
        · exact List.mem_append_right _ (List.mem_cons_of_mem _ isRight)
      obtain ⟨row, found, running, isRecord⟩ :=
        (isOwned.running other wasOwned).spared spared
      have same := kept.find?_settle_of_ne record result policy draw now
        (isOwned.id_ne_of_settled member)
      rw [answer] at same
      exact ⟨row, same.trans found, running, isRecord⟩
  | lost enqueues sublist =>
      obtain ⟨kept, spared⟩ := consistent.enqueues_spares enqueues
      have fewer : table.Owned next := ⟨consistent, isOwned.distinct.sublist (sublist.map Record.id),
        fun record member => isOwned.running record (sublist.mem member)⟩
      exact fewer.spared kept spared

end DurableJobs.Store.Table
