import DurableJobs.Proofs.Engine.Deeds
import DurableJobs.Proofs.Engine.Fates

/-!
The life of a record.

A record leaves the store when its execution succeeds, when it is canceled, or when it gives way to a
pending one with its key; a failed one stays as it is until it is requeued; and none runs that was not
pending. Ids are handed out once, so what is gone does not come back.
-/

set_option autoImplicit false

namespace DurableJobs.Engine

variable {Business : Type}

/-- Why a row that was there before a move is gone after it. -/
inductive Departure (engine : Engine Business) (move : Move Business) (after : Store.Table)
    (row : Store.Row) : Prop where
  | completed {record : Record}
      (settles : engine.settlement? move = some (record, .ok .success)) (here : record.id = row.id)
      (running : row.state = .running)
  | canceled (isMove : move = .cancel row.id) (pending : row.state = .pending)
  | superseded {survivor : Store.Row} {key : String}
      (leaves : row.state = .running ∨ row.state = .failed ∧ ∃ now, move = .requeue row.id now)
      (isKey : row.debounceKey = .text key) (member : survivor ∈ after.rows)
      (pending : survivor.state = .pending) (sameKey : survivor.debounceKey = .text key)

/-- There was a record with the id at some point of the course that the deeds are. -/
def WasStored (first : Engine Business) (past : List (Deed Business)) (id : Int) : Prop :=
  ∃ before earlier, before <+: past ∧ first.course? before = some earlier ∧
    ∃ row ∈ earlier.database.jobs.rows, row.id = id

/-- What a move can do to records, in an engine to which some deeds have led. -/
structure Lifecycle (first : Engine Business) (past : List (Deed Business))
    (engine : Engine Business) (move : Move Business) (after : Engine Business) : Prop where
  -- Nothing is lost.
  departs : ∀ row ∈ engine.database.jobs.rows, after.database.jobs.find? row.id = none →
    Departure engine move after.database.jobs row
  -- A failed record stays, in all of its columns, unless it is this one that is requeued.
  failed : ∀ row ∈ engine.database.jobs.rows, row.state = .failed →
    (∀ now, move ≠ .requeue row.id now) → row ∈ after.database.jobs.rows
  -- What runs after the move ran before it as it does, or was pending.
  running : ∀ row ∈ after.database.jobs.rows, row.state = .running →
    row ∈ engine.database.jobs.rows ∨
      ∃ old ∈ engine.database.jobs.rows, old.id = row.id ∧ old.state = .pending
  -- What is new was enqueued, and waits for its first execution.
  entered : ∀ row ∈ after.database.jobs.rows, engine.database.jobs.find? row.id = none →
    row.id ∈ Store.newIds ((engine.entered move).map Enqueued.receipt) ∧ row.IsUntried
  -- New ids ascend, past those of all records that there ever were, and nothing comes back. Only the
  -- ids that a lapse has taken back are handed out once more, to what is enqueued after it.
  ascending : ∃ undone rest, engine.handedOut move = undone ++ rest ∧
    (undone = [] ∨ rest = engine.strays move) ∧
    (Store.newIds (undone.map Enqueued.receipt)).Pairwise (fun left right => left < right) ∧
    (Store.newIds (rest.map Enqueued.receipt)).Pairwise fun left right => left < right
  fresh : ∀ old, WasStored first past old →
    ∀ id ∈ Store.newIds ((engine.handedOut move).map Enqueued.receipt), old < id
  gone : ∀ old, WasStored first past old → engine.database.jobs.find? old = none →
    after.database.jobs.find? old = none

section Lifecycle

variable {first engine after : Engine Business} {move : Move Business}

theorem Orderly.mark_le_perform {deed : Deed Business} (orderly : Orderly engine)
    (leavesJobs : deed.LeavesJobs) (done : engine.perform? deed = some after) :
    engine.database.jobs.mark ≤ after.database.jobs.mark := by
  cases deed with
  | move move =>
      have kept := orderly.kept
      have consistent := kept.owned.consistent
      exact ((kept.work leavesJobs done).reaches consistent).mark_le consistent
  | reopen registry config =>
      obtain ⟨_, _, _, database⟩ := reopen?_cases done
      exact Int.le_of_eq (by rw [database])

theorem Orderly.mark_le {deeds : List (Deed Business)} (orderly : Orderly engine)
    (leaveJobs : ∀ deed ∈ deeds, deed.LeavesJobs) (came : engine.course? deeds = some after) :
    engine.database.jobs.mark ≤ after.database.jobs.mark := by
  induction deeds generalizing engine with
  | nil =>
      obtain rfl := Option.some.inj came
      exact Int.le_refl _
  | cons deed rest ih =>
      obtain ⟨middle, done, isRest⟩ := Option.bind_eq_some_iff.mp came
      have leavesJobs := leaveJobs deed List.mem_cons_self
      exact Int.le_trans (orderly.mark_le_perform leavesJobs done)
        (ih (orderly.perform leavesJobs done)
          (fun other member => leaveJobs other (List.mem_cons_of_mem _ member)) isRest)

theorem Fate.departure {jobs : Store.Table} {row : Store.Row} {reckoning : Reckoning}
    (fate : Fate engine move jobs row.id (some row) none reckoning) :
    Departure engine move jobs row := by
  cases fate with
  | canceled isMove pending => exact .canceled isMove pending
  | completed settles here running => exact .completed settles here running
  | superseded leaves isKey held pending sameKey =>
      exact .superseded leaves isKey (Store.Table.mem_of_find? held) pending sameKey

theorem Fate.stays_failed {jobs : Store.Table} {row : Store.Row} {later? : Option Store.Row}
    {reckoning : Reckoning} {id : Int} (fate : Fate engine move jobs id (some row) later? reckoning)
    (failed : row.state = .failed) (other : ∀ now, move ≠ .requeue id now) : later? = some row := by
  cases fate with
  | untouched => rfl
  | enqueued _ resting _ => cases failed.symm.trans (resting row rfl)
  | claimed pending _ => cases failed.symm.trans pending
  | gaveUp pending _ _ => cases failed.symm.trans pending
  | canceled _ pending => cases failed.symm.trans pending
  | completed _ _ running => cases failed.symm.trans running
  | superseded leaves _ _ _ _ _ =>
      cases leaves with
      | inl running => cases failed.symm.trans running
      | inr requeued =>
          obtain ⟨_, now, isMove⟩ := requeued
          exact absurd isMove (other now)
  | cameBack running => cases failed.symm.trans running
  | failed _ running _ _ => cases failed.symm.trans running
  | deadLettered _ running _ _ => cases failed.symm.trans running
  | @requeued row now isMove _ => exact absurd isMove (other now)

theorem Fate.of_running {jobs : Store.Table} {row : Store.Row} {row? : Option Store.Row}
    {reckoning : Reckoning} {id : Int} (fate : Fate engine move jobs id row? (some row) reckoning)
    (running : row.state = .running) :
    row? = some row ∨ ∃ old, row? = some old ∧ old.state = .pending := by
  cases fate with
  | untouched => exact .inl rfl
  | enqueued _ _ untried => cases running.symm.trans untried.pending
  | claimed pending _ => exact .inr ⟨_, rfl, pending⟩
  | gaveUp _ _ _ => cases running
  | cameBack _ => simp at running
  | failed _ _ _ _ => simp at running
  | deadLettered _ _ _ _ => cases running
  | requeued _ _ => cases running

theorem Fate.of_new {jobs : Store.Table} {row : Store.Row} {reckoning : Reckoning} {id : Int}
    (fate : Fate engine move jobs id none (some row) reckoning) :
    id ∈ Store.newIds ((engine.entered move).map Enqueued.receipt) ∧ row.IsUntried := by
  cases fate with
  | enqueued inserted _ untried => exact ⟨inserted rfl, untried⟩

/-- Ids that there were are at most the mark. -/
theorem WasStored.le_mark {past : List (Deed Business)} {id : Int}
    (stored : WasStored first past id) (orderly : Orderly first)
    (leaveJobs : ∀ deed ∈ past, deed.LeavesJobs) (came : first.course? past = some engine) :
    id ≤ engine.database.jobs.mark := by
  obtain ⟨before, earlier, ⟨rest, rfl⟩, reached, row, member, rfl⟩ := stored
  rw [course?_append, reached, Option.bind_some] at came
  have middle := orderly.course (fun deed listed => leaveJobs deed (List.mem_append_left _ listed))
    reached
  have grows := middle.mark_le
    (fun deed listed => leaveJobs deed (List.mem_append_right _ listed)) came
  exact Int.le_trans (middle.kept.owned.consistent.marked row member) grows

/-- Whatever deeds have led to an engine, restarts among them, its next move loses no record, brings
none back, and touches no failed one that it does not requeue. -/
theorem record_lifecycle (fresh : first.Fresh) (consistent : first.database.jobs.Consistent)
    {past : List (Deed Business)} (leaveJobs : ∀ deed ∈ past, deed.LeavesJobs)
    (came : first.course? past = some engine) (leavesJobs : move.LeavesJobs)
    (taken : engine.step move = some after) : Lifecycle first past engine move after := by
  have orderly := Orderly.fresh fresh consistent
  have kept := (orderly.course leaveJobs came).kept
  have before := kept.owned.consistent
  have later := (kept.step leavesJobs taken).owned.consistent
  have fate := kept.fate leavesJobs taken
  obtain ⟨undone, rest, handedOut, strays, ⟨_, undoneRenewed⟩, ⟨_, restRenewed⟩⟩ :=
    kept.handedOut_renewed leavesJobs
  obtain ⟨_, renewed, _⟩ := (kept.work leavesJobs taken).entered_renewed before
  have entered : ∀ row ∈ after.database.jobs.rows, engine.database.jobs.find? row.id = none →
      row.id ∈ Store.newIds ((engine.entered move).map Enqueued.receipt) ∧ row.IsUntried := by
    intro row member absent
    have isNew := fate row.id
    rw [absent, later.find?_of_mem member] at isNew
    exact isNew.of_new
  refine
    { departs := ?_
      failed := ?_
      running := ?_
      entered
      ascending := ⟨undone, rest, handedOut, strays, undoneRenewed.ascending, restRenewed.ascending⟩
      fresh := ?_
      gone := ?_ }
  · intro row member gone
    have departs := fate row.id
    rw [before.find?_of_mem member, gone] at departs
    exact departs.departure
  · intro row member failed other
    have stays := fate row.id
    rw [before.find?_of_mem member] at stays
    exact Store.Table.mem_of_find? (stays.stays_failed failed other)
  · intro row member running
    have ran := fate row.id
    rw [later.find?_of_mem member] at ran
    rcases ran.of_running running with same | ⟨old, found, pending⟩
    · exact .inl (Store.Table.mem_of_find? same)
    · exact .inr
        ⟨old, Store.Table.mem_of_find? found, Store.Table.id_of_find? found, pending⟩
  · intro old stored id member
    have below := stored.le_mark orderly leaveJobs came
    rw [handedOut, List.map_append, Store.newIds_append, List.mem_append] at member
    rcases member with isUndone | isRest
    · exact Int.lt_of_le_of_lt below (undoneRenewed.above id isUndone).1
    · exact Int.lt_of_le_of_lt below (restRenewed.above id isRest).1
  · intro old stored absent
    cases found : after.database.jobs.find? old with
    | none => rfl
    | some row =>
        obtain rfl := Store.Table.id_of_find? found
        have isNew := (entered row (Store.Table.mem_of_find? found) absent).1
        have below := stored.le_mark orderly leaveJobs came
        exact absurd (renewed.above row.id isNew).1 (Int.not_lt.mpr below)

/-- A record is claimed, found running after a restart, claimed again, and done; its execution has
enqueued the next one. -/
theorem record_lifecycle_sample :
    ∃ (past : List (Deed Unit)) (engine after : Engine Unit) (move : Move Unit),
      sample.course? past = some engine ∧ engine.step move = some after ∧
      Lifecycle sample past engine move after ∧
      engine.database.jobs.rows.map Store.Row.id = [1] ∧
      after.database.jobs.rows.map Store.Row.id = [2] := by
  let claims : List (Deed Unit) := (firstMoves ++ [Move.decide Instant.epoch]).map Deed.move
  let past := claims ++ [.reopen sample.registry sample.config] ++ claims ++
    [.move (.launch Instant.epoch)]
  let move : Move Unit := .runQueued
    (fun _ => .enqueue (Job.new "reindex" [119] Uuid.zero) fun _ =>
      .done ⟨.success, AfterCommit.none⟩) 0 Instant.epoch
  have ids : (sample.course? past).bind (fun engine => (engine.step move).map fun after =>
      (engine.database.jobs.rows.map Store.Row.id, after.database.jobs.rows.map Store.Row.id)) =
        some ([1], [2]) := by decide +kernel
  obtain ⟨engine, came, stepped⟩ := Option.bind_eq_some_iff.mp ids
  obtain ⟨after, taken, areIds⟩ := Option.map_eq_some_iff.mp stepped
  obtain ⟨isBefore, isAfter⟩ := Prod.mk.inj areIds
  have leaveJobs : ∀ deed ∈ past, deed.LeavesJobs := by
    simp [past, claims, firstMoves, Deed.LeavesJobs, Move.LeavesJobs]
  have leavesJobs : move.LeavesJobs := fun _ _ => trivial
  exact ⟨past, engine, after, move, came, taken,
    record_lifecycle fresh_sample consistent_sample leaveJobs came leavesJobs taken, isBefore,
    isAfter⟩

end Lifecycle

end DurableJobs.Engine
