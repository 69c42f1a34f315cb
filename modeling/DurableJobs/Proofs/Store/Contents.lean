import DurableJobs.Proofs.Store.Changes

/-!
What rows hold of the jobs that were placed in them.

Some columns are written when a job is placed in a row, by its insertion or by an enqueued job that
takes its place, and nothing else that is done to a row touches them: its payload is one. Such a column
is that of the job last placed in the row.
-/

set_option autoImplicit false

namespace DurableJobs.Store

/-- A job, and the id of the row that it was placed in. -/
structure Placement where
  id : Int
  job : Job

/-- The job that was last placed in a row, if one was. -/
def lastJob? (id : Int) (placements : List Placement) : Option Job :=
  (placements.filter fun placement => placement.id == id).getLast?.map Placement.job

theorem lastJob?_append (id : Int) (first second : List Placement) :
    lastJob? id (first ++ second) = (lastJob? id second).or (lastJob? id first) := by
  simp only [lastJob?, List.filter_append, List.getLast?_append]
  cases (second.filter fun placement => placement.id == id).getLast? <;> rfl

theorem lastJob?_of_spared {id : Int} {placements : List Placement}
    (spared : ∀ placement ∈ placements, placement.id ≠ id) : lastJob? id placements = none := by
  have none : placements.filter (fun placement => placement.id == id) = [] := by
    simpa [List.filter_eq_nil_iff] using spared
  rw [lastJob?, none]
  rfl

theorem lastJob?_split {earlier later : List Placement} (placement : Placement)
    (spared : ∀ other ∈ later, other.id ≠ placement.id) :
    lastJob? placement.id (earlier ++ placement :: later) = some placement.job := by
  rw [List.append_cons, lastJob?_append, lastJob?_of_spared spared, lastJob?_append]
  simp [lastJob?]

/-- The column is written when a job is placed in a row, and at no other time. -/
structure OnlyPlaced (column : Row → Cell) (cell : Job → Cell) : Prop where
  inserted : ∀ id job now, column (.ofJob id job now) = cell job
  coalesced : ∀ (row : Row) job now, column (row.coalesce job now) = cell job
  kept : ∀ {operation row edited}, RowChange operation row edited → column edited = column row

/-- Only the columns for the turn, the key and the counts change. -/
theorem RowChange.kept {operation : Operation} {row edited : Row}
    (change : RowChange operation row edited) :
    edited.jobType = row.jobType ∧ edited.payload = row.payload ∧ edited.sagaId = row.sagaId ∧
      edited.correlationId = row.correlationId := by
  have comeBack : ∀ notBefore (failure : Option Failure) now,
      (row.comeBack notBefore failure now).jobType = row.jobType ∧
        (row.comeBack notBefore failure now).payload = row.payload ∧
        (row.comeBack notBefore failure now).sagaId = row.sagaId ∧
        (row.comeBack notBefore failure now).correlationId = row.correlationId := by
    rintro _ (_ | _) _ <;> exact ⟨rfl, rfl, rfl, rfl⟩
  cases change with
  | rescheduled | cameBack | recovered => exact comeBack _ _ _
  | _ => exact ⟨rfl, rfl, rfl, rfl⟩

theorem onlyPlaced_jobType : OnlyPlaced Row.jobType fun job => .text job.jobType :=
  ⟨fun _ _ _ => rfl, fun _ _ _ => rfl, fun change => change.kept.1⟩

theorem onlyPlaced_payload : OnlyPlaced Row.payload fun job => .blob job.payload :=
  ⟨fun _ _ _ => rfl, fun _ _ _ => rfl, fun change => change.kept.2.1⟩

theorem onlyPlaced_sagaId : OnlyPlaced Row.sagaId fun job => .ofText? (job.sagaId.map Uuid.text) :=
  ⟨fun _ _ _ => rfl, fun _ _ _ => rfl, fun change => change.kept.2.2.1⟩

theorem onlyPlaced_correlationId :
    OnlyPlaced Row.correlationId fun job => .text job.correlationId.text :=
  ⟨fun _ _ _ => rfl, fun _ _ _ => rfl, fun change => change.kept.2.2.2⟩

namespace Table

/-- Of every row that is left, the column is that of the job last placed in it, or else as it was. -/
def Retains (column : Row → Cell) (cell : Job → Cell) (before : Table)
    (placements : List Placement) (after : Table) : Prop :=
  ∀ id row, after.find? id = some row →
    match lastJob? id placements with
    | some job => column row = cell job
    | none => ∃ old, before.find? id = some old ∧ column row = column old

variable {before middle after table : Table} {first second : List Placement}

section Retains

variable {column : Row → Cell} {cell : Job → Cell}

theorem retains_of_find? (kept : ∀ id row, after.find? id = some row →
    ∃ old, before.find? id = some old ∧ column row = column old) :
    Retains column cell before [] after :=
  kept

theorem Retains.refl (table : Table) : Retains column cell table [] table :=
  fun _ row found => ⟨row, found, rfl⟩

theorem Retains.trans (earlier : Retains column cell before first middle)
    (later : Retains column cell middle second after) :
    Retains column cell before (first ++ second) after := by
  intro id row found
  have kept := later id row found
  rw [lastJob?_append]
  cases placed : lastJob? id second with
  | some job =>
      rw [placed] at kept
      exact kept
  | none =>
      rw [placed] at kept
      obtain ⟨old, oldFound, same⟩ := kept
      have held := earlier id old oldFound
      rw [Option.none_or]
      rwa [← same] at held

section Consistent

variable (consistent : table.Consistent) (onlyPlaced : OnlyPlaced column cell)

include consistent onlyPlaced

theorem Consistent.enqueue_retains {job : Job} {now : Instant} {receipt : Receipt}
    (answer : table.enqueue job now = (.ok receipt, after)) :
    Retains column cell table [⟨receipt.id, job⟩] after := by
  have renewed : ∀ row : Row, column row = cell job → after.find? receipt.id = some row →
      (∀ id, id ≠ receipt.id → after.find? id = table.find? id) →
      Retains column cell table [⟨receipt.id, job⟩] after := by
    intro row holds placed others id other found
    by_cases here : id = receipt.id
    · subst here
      rw [placed] at found
      obtain rfl := Option.some.inj found
      simpa [lastJob?] using holds
    · rw [others id here] at found
      simpa [lastJob?, Ne.symm here] using ⟨other, found, rfl⟩
  rcases consistent.enqueue_cases job now with
    ⟨row, held, coalesced⟩ | ⟨id, free, next, inserted⟩ | ⟨_, _, full⟩
  · cases coalesced.symm.trans answer
    obtain ⟨_, _, member, _, _⟩ := of_bind_pendingWithKey? held
    have found := consistent.find?_of_mem member
    refine renewed (row.coalesce job now) (onlyPlaced.coalesced row job now) ?_
      fun id different => ?_
    · simp [find?_put, found]
    · rw [find?_put, Row.id_coalesce, if_neg different]
  · cases inserted.symm.trans answer
    have fresh : table.find? (Row.ofJob id job now).id = none := consistent.find?_nextId next
    refine renewed (Row.ofJob id job now) (onlyPlaced.inserted id job now) ?_
      fun other different => ?_
    · simp [find?_append _ fresh]
    · rw [find?_append _ fresh, Row.id_ofJob, if_neg different]
  · cases (Prod.mk.inj (answer.symm.trans full)).1

/-- No operation but one that enqueues changes the column of a row. -/
theorem Consistent.perform_retains (operation : Operation)
    (silent : operation.isEnqueuing = false) :
    Retains column cell table [] (table.perform operation).2 := by
  refine retains_of_find? fun id row found => ?_
  obtain ⟨old, isOld, rfl | change⟩ := consistent.perform_changes silent id row found
  · exact ⟨row, isOld, rfl⟩
  · exact ⟨old, isOld, onlyPlaced.kept change⟩

end Consistent

/-- Jobs are enqueued one after the other and placed in these rows. -/
inductive Places : Table → List Placement → Table → Prop where
  | nil {table : Table} : Places table [] table
  | cons {table middle after : Table} {job : Job} {now : Instant} {receipt : Receipt}
      {placements : List Placement} (first : table.enqueue job now = (.ok receipt, middle))
      (rest : Places middle placements after) :
      Places table (⟨receipt.id, job⟩ :: placements) after

theorem Places.consistent {placements : List Placement} (places : Places table placements after)
    (consistent : table.Consistent) : after.Consistent := by
  induction places with
  | nil => exact consistent
  | @cons _ _ _ job now _ _ first _ ih =>
      have reaches := consistent.enqueue_reaches job now
      rw [first] at reaches
      exact ih (reaches.consistent consistent)

theorem Places.retains {placements : List Placement} (places : Places table placements after)
    (consistent : table.Consistent) (onlyPlaced : OnlyPlaced column cell) :
    Retains column cell table placements after := by
  induction places with
  | nil => exact .refl _
  | @cons _ _ _ job now _ _ first _ ih =>
      have reaches := consistent.enqueue_reaches job now
      rw [first] at reaches
      exact (consistent.enqueue_retains onlyPlaced first).trans (ih (reaches.consistent consistent))

end Retains

end Table

end DurableJobs.Store
