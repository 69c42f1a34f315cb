import DurableJobs.Proofs.Engine.Announcements
import DurableJobs.Proofs.Engine.Deeds
import DurableJobs.Proofs.Store.Removals

/-!
The counts as a ledger of the job table.

Each record that was ever inserted is in the table, was counted as it left, or was dropped: a record
that a requeue or a recovery would have made pending again can give way to another one, and of that no
notice is left. Nor is there one of what is done in a transaction that has lapsed: the records that
were inserted since then have strayed into the table, and the one that was settled is dropped. Once
everything committed is told, the counts differ from the table by those alone.
-/

set_option autoImplicit false

namespace DurableJobs

namespace Notice

/-- The ids of the records that were inserted, as the notice has it. -/
def entries (notice : Notice) : List Int :=
  Store.newIds (notice.jobs.map Enqueued.receipt)

/-- The ids of the records that were taken out, as the notice has it. -/
def exits : Notice → List Int
  | .settled record settlement => settlement.removed record
  | .canceled id _ => [id]
  | _ => []

theorem flatMap_entries (notices : List Notice) :
    notices.flatMap entries = Store.newIds ((notices.flatMap jobs).map Enqueued.receipt) := by
  induction notices with
  | nil => rfl
  | cons notice rest ih =>
      rw [List.flatMap_cons, List.flatMap_cons, List.map_append, Store.newIds_append, ih, entries]

end Notice

/-! ### What the counts say -/

/-- The counts tell of so many more records inserted, and of so many more taken out. -/
structure Telemetry.GrowsBy (before after : Telemetry) (inserted removed : Nat) : Prop where
  enqueued : after.metrics.global.enqueued = before.metrics.global.enqueued + inserted
  removed : after.metrics.global.removed = before.metrics.global.removed + removed

namespace Telemetry

theorem GrowsBy.refl (telemetry : Telemetry) : GrowsBy telemetry telemetry 0 0 := ⟨rfl, rfl⟩

theorem GrowsBy.trans {before middle after : Telemetry}
    {inserted removed inserted' removed' : Nat} (first : GrowsBy before middle inserted removed)
    (second : GrowsBy middle after inserted' removed') :
    GrowsBy before after (inserted + inserted') (removed + removed') where
  enqueued := by rw [second.enqueued, first.enqueued, Nat.add_assoc]
  removed := by rw [second.removed, first.removed, Nat.add_assoc]

theorem enqueued_growsBy (telemetry : Telemetry) (job : Enqueued) (now : Instant) :
    GrowsBy telemetry (telemetry.enqueued job now) (Store.newIds [job.receipt]).length 0 := by
  cases coalesced : job.receipt.isCoalesced <;>
    constructor <;>
    simp [enqueued, tell, Metrics.add, Counts.add, Counts.removed, coalesced, Store.newIds,
      Store.Receipt.newId?]

theorem settled_growsBy (telemetry : Telemetry) (record : Record) (settlement : Settlement)
    (now : Instant) :
    GrowsBy telemetry (telemetry.settled record settlement now) 0
      (settlement.removed record).length := by
  cases settlement with
  | retrying notBefore error => cases error <;> exact ⟨rfl, rfl⟩
  | deadLettered error => exact ⟨rfl, rfl⟩
  | missing => exact ⟨rfl, rfl⟩
  | _ =>
      constructor
      · rfl
      · simp only [settled, tell, Metrics.add, Counts.add, Counts.removed, Settlement.removed,
          List.length_singleton]
        omega

theorem notice_growsBy (telemetry : Telemetry) (notice : Notice) (now : Instant) :
    GrowsBy telemetry (telemetry.notice now notice) notice.entries.length notice.exits.length := by
  cases notice with
  | enqueued jobs =>
      show GrowsBy telemetry
        (jobs.foldl (fun telemetry job => telemetry.enqueued job now) telemetry)
        (Store.newIds (jobs.map Enqueued.receipt)).length 0
      induction jobs generalizing telemetry with
      | nil => exact .refl telemetry
      | cons job rest ih =>
          have first := telemetry.enqueued_growsBy job now
          have both := first.trans (ih (telemetry.enqueued job now))
          rw [← List.length_append, ← Store.newIds_append] at both
          exact both
  | effects effects => exact .refl telemetry
  | settled record settlement => exact telemetry.settled_growsBy record settlement now
  | canceled id jobType => exact ⟨rfl, rfl⟩
  | requeued => exact .refl telemetry

/-- The counts are of the notices among what was uttered. -/
theorem foldl_growsBy (telemetry : Telemetry) (utterances : List Utterance) :
    GrowsBy telemetry (utterances.foldl Utterance.apply telemetry)
      ((utterances.filterMap Utterance.notice?).flatMap Notice.entries).length
      ((utterances.filterMap Utterance.notice?).flatMap Notice.exits).length := by
  induction utterances generalizing telemetry with
  | nil => exact .refl telemetry
  | cons utterance rest ih =>
      have later := ih (utterance.apply telemetry)
      cases utterance with
      | told teller notice now =>
          have both := (telemetry.notice_growsBy notice now).trans later
          rw [← List.length_append, ← List.length_append] at both
          exact both
      | started record now => exact ⟨later.enqueued, later.removed⟩

end Telemetry

namespace Engine

variable {Business : Type}

/-- The ids of the records that a move takes out without leaving a notice of it. -/
def dropped (engine : Engine Business) (move : Move Business) : List Int :=
  Store.removedOf (engine.requeued move ++ engine.recovered move) ++
    (engine.hushed move).flatMap fun entry => entry.2.removed entry.1

/-- The ids of the records that were dropped in the course of some moves. -/
def drops (engine : Engine Business) (moves : List (Move Business)) : List Int :=
  engine.gather dropped moves

/-- The ids of the records that a move inserts without leaving a notice of it. -/
def strayed (engine : Engine Business) (move : Move Business) : List Int :=
  Store.newIds ((engine.strays move).map Enqueued.receipt)

/-- The ids of the records that strayed into the table in the course of some moves. -/
def strayings (engine : Engine Business) (moves : List (Move Business)) : List Int :=
  engine.gather strayed moves

section Runs

variable {first engine after last : Engine Business} {move : Move Business}

/-! ### One move -/

theorem dropped_eq_nil (requeued : engine.requeued move = []) (recovered : engine.recovered move = [])
    (hushed : engine.hushed move = []) : engine.dropped move = [] := by
  rw [dropped, requeued, recovered, hushed]
  rfl

theorem exits_of_first {told : List Notice}
    (first : told = [] ∨ ∃ jobs effects, told = [.enqueued jobs, .effects effects]) :
    told.flatMap Notice.exits = [] := by
  rcases first with rfl | ⟨jobs, effects, rfl⟩ <;> rfl

theorem exits_requeue (engine : Engine Business) (id : Int) (now : Instant) :
    (engine.notices (.requeue id now)).flatMap Notice.exits = [] := by
  simp only [notices]
  split <;> rfl

theorem exits_decide {now : Instant} {tick : Tick} {jobs : Store.Table}
    (isTick : engine.tick? now = some tick)
    (sifted : Store.Table.Sifted engine.database.jobs now tick.claimed tick.unknown jobs) :
    (engine.notices (.decide now)).flatMap Notice.exits = [] := by
  rw [List.flatMap_eq_nil_iff]
  intro notice member
  simp only [notices, isTick, Option.elim_some] at member
  obtain ⟨entry, isUnknown, rfl⟩ := List.mem_map.mp member
  rw [Notice.exits, (sifted.givenUp entry isUnknown).1]
  rfl

/-- What is in the table after a move, what it told to be taken out and what it dropped is what was in
the table before, what it told to be inserted and what strayed there. -/
def Balances (engine : Engine Business) (move : Move Business) (jobs : Store.Table) : Prop :=
  (jobs.ids : Multiset Int) + (engine.notices move).flatMap Notice.exits + engine.dropped move =
    engine.database.jobs.ids + (engine.notices move).flatMap Notice.entries + engine.strayed move

theorem Balances.of_eq {jobs : Store.Table} {inserted removed dropped : List Int}
    (entries : Store.newIds ((engine.entered move).map Enqueued.receipt) = inserted)
    (exits : (engine.notices move).flatMap Notice.exits = removed)
    (drops : engine.dropped move = dropped)
    (ids : (jobs.ids : Multiset Int) + removed + dropped = engine.database.jobs.ids + inserted) :
    Balances engine move jobs := by
  rw [entered, List.map_append, Store.newIds_append] at entries
  rw [Balances, Notice.flatMap_entries, exits, drops, ids, ← entries, strayed, ← Multiset.coe_add,
    add_assoc]

theorem cancel_balances (titled : engine.database.jobs.Titled)
    (consistent : engine.database.jobs.Consistent) (goesOn : engine.isWriterStopped = false)
    (id : Int) : Balances engine (.cancel id) (engine.database.jobs.cancel id).2 := by
  have entries : Store.newIds ((engine.entered (.cancel id)).map Enqueued.receipt) = [] := by
    rw [entered_cancel]
    rfl
  rcases consistent.cancel_answers titled id with answer | ⟨jobType, answer, erased⟩
  · have silent : (engine.notices (.cancel id)).flatMap Notice.exits = [] := by
      simp [notices, goesOn, answer]
    refine .of_eq entries silent (dropped_eq_nil rfl rfl rfl) ?_
    simp [answer]
  · have told : (engine.notices (.cancel id)).flatMap Notice.exits = [id] := by
      simp [notices, goesOn, answer, Notice.exits]
    refine .of_eq entries told (dropped_eq_nil rfl rfl rfl) ?_
    simp [answer, ← erased]

theorem requeue_balances (consistent : engine.database.jobs.Consistent)
    (goesOn : engine.isWriterStopped = false) (id : Int) (now : Instant) :
    Balances engine (.requeue id now) (engine.database.jobs.requeue id now).2 := by
  obtain ⟨reply, after, answer, ids⟩ := consistent.ids_requeue id now
  have entries : Store.newIds ((engine.entered (.requeue id now)).map Enqueued.receipt) = [] := by
    rw [entered_requeue]
    rfl
  have dropped : engine.dropped (.requeue id now) = reply.removed id := by
    simp [Engine.dropped, requeued, recovered, hushed, goesOn, answer, Store.removedOf]
  refine .of_eq entries (engine.exits_requeue id now) dropped ?_
  simp [answer, ← ids]

theorem recover_balances (consistent : engine.database.jobs.Consistent)
    (goesOn : engine.isWriterStopped = false) (draw : Nat) (now : Instant) :
    Balances engine (.recover draw now)
      (engine.database.jobs.recover engine.config.recovery engine.config.retry draw now).2 := by
  obtain ⟨replies, after, answer, _⟩ := consistent.recover_spec engine.config.recovery
    engine.config.retry draw now
  have ids := consistent.ids_rescheduleAll answer
  have dropped : engine.dropped (.recover draw now) = Store.removedOf replies := by
    simp [Engine.dropped, requeued, recovered, hushed, goesOn, answer]
  have silent : (engine.notices (.recover draw now)).flatMap Notice.exits = [] := rfl
  have entries : Store.newIds ((engine.entered (.recover draw now)).map Enqueued.receipt) = [] :=
    rfl
  refine .of_eq entries silent dropped ?_
  simp [answer, ← ids]

theorem Kept.balances (kept : engine.Kept) (titled : engine.database.jobs.Titled)
    (leavesJobs : move.LeavesJobs) (taken : engine.step move = some after) :
    Balances engine move after.database.jobs := by
  have consistent := kept.owned.consistent
  cases kept.work leavesJobs taken with
  | idle same notices strays _ requeued recovered hushed =>
      have entries : Store.newIds ((engine.entered move).map Enqueued.receipt) = [] := by
        rw [entered, notices, strays]
        rfl
      have silent : (engine.notices move).flatMap Notice.exits = [] := by
        rw [notices]
        rfl
      rw [same]
      exact .of_eq entries silent (dropped_eq_nil requeued recovered hushed) (add_zero _)
  | enqueued notices _ requeued recovered hushed renewed =>
      have silent : (engine.notices move).flatMap Notice.exits = [] := by
        rcases notices with none | ⟨jobs, one⟩
        · rw [none]
          rfl
        · rw [one]
          rfl
      refine .of_eq rfl silent (dropped_eq_nil requeued recovered hushed) ?_
      simp [renewed.ids_eq]
  | canceled isMove goesOn same =>
      rw [isMove, same]
      exact cancel_balances titled consistent goesOn _
  | requeued isMove goesOn same =>
      rw [isMove, same]
      exact requeue_balances consistent goesOn _ _
  | recovered isMove goesOn _ same =>
      rw [isMove, same]
      exact recover_balances consistent goesOn _ _
  | ticked tick isMove isTick answer =>
      rw [isMove]
      have sifted := consistent.tick_sifted answer
      refine .of_eq (by rw [entered_decide]) (exits_decide isTick sifted)
        (dropped_eq_nil rfl rfl rfl) ?_
      simp [sifted.ids_eq, Store.newIds]
  | @settled told record result settlement middle draw now notices first _ requeued recovered _ renewed
      answer =>
      have settled := (renewed.reaches.consistent consistent).ids_settle answer
      rw [renewed.ids_eq] at settled
      rcases notices with ⟨notices, hushed⟩ | ⟨notices, _, hushed⟩
      · have told : (engine.notices move).flatMap Notice.exits = settlement.removed record := by
          rw [notices, List.flatMap_append, exits_of_first first]
          simp [Notice.exits]
        refine .of_eq rfl told (dropped_eq_nil requeued recovered hushed) ?_
        rw [Multiset.coe_nil, add_zero, settled, Multiset.coe_add]
      · have silent : (engine.notices move).flatMap Notice.exits = [] := by
          rw [notices]
          rfl
        have dropped : engine.dropped move = settlement.removed record := by
          rw [Engine.dropped, requeued, recovered, hushed]
          exact List.flatMap_singleton _ _
        refine .of_eq rfl silent dropped ?_
        rw [Multiset.coe_nil, add_zero, settled, Multiset.coe_add]

theorem Kept.entries_step (kept : engine.Kept) (leavesJobs : move.LeavesJobs)
    (taken : engine.step move = some after) :
    ((engine.notices move).flatMap Notice.entries).Nodup ∧
      ∀ id ∈ (engine.notices move).flatMap Notice.entries,
        engine.database.jobs.mark < id ∧ id ≤ after.database.jobs.mark := by
  have consistent := kept.owned.consistent
  obtain ⟨left, renewed, reaches⟩ := (kept.work leavesJobs taken).entered_renewed consistent
  have inserted : Store.newIds ((engine.entered move).map Enqueued.receipt) =
      (engine.notices move).flatMap Notice.entries ++ engine.strayed move := by
    rw [Notice.flatMap_entries, entered, List.map_append, Store.newIds_append, strayed]
  have ascending := renewed.ascending
  rw [inserted] at ascending
  constructor
  · exact (List.pairwise_append.mp ascending).1.imp fun less => Int.ne_of_lt less
  · intro id member
    have above := renewed.above id (by rw [inserted]; exact List.mem_append_left _ member)
    have grows := reaches.mark_le (renewed.reaches.consistent consistent)
    exact ⟨above.1, Int.le_trans above.2 grows⟩

/-! ### Runs -/

/-- What is in the table after some moves, what they told to be taken out and what they dropped is
what was in the table before, what they told to be inserted and what strayed there. -/
theorem Kept.ids_run {moves : List (Move Business)} (kept : engine.Kept)
    (titled : engine.database.jobs.Titled) (leaveJobs : ∀ move ∈ moves, move.LeavesJobs)
    (ran : engine.run? moves = some last) :
    (last.database.jobs.ids : Multiset Int) + (engine.commits moves).flatMap Notice.exits +
        engine.drops moves =
      engine.database.jobs.ids + (engine.commits moves).flatMap Notice.entries +
        engine.strayings moves := by
  induction moves generalizing engine with
  | nil =>
      obtain rfl := Option.some.inj ran
      rfl
  | cons move rest ih =>
      obtain ⟨middle, taken, isRest⟩ := Option.bind_eq_some_iff.mp ran
      have leavesJobs := leaveJobs move List.mem_cons_self
      have consistent := kept.owned.consistent
      have step := kept.balances titled leavesJobs taken
      have reaches := (kept.work leavesJobs taken).reaches consistent
      have later := ih (kept.step leavesJobs taken) (reaches.titled titled)
        (fun other member => leaveJobs other (List.mem_cons_of_mem _ member)) isRest
      rw [commits_cons taken, drops, gather_cons dropped taken, strayings, gather_cons strayed taken,
        List.flatMap_append, List.flatMap_append]
      simp only [← Multiset.coe_add]
      calc
        (last.database.jobs.ids : Multiset Int) +
              ((engine.notices move).flatMap Notice.exits +
                (middle.commits rest).flatMap Notice.exits) +
              (engine.dropped move + middle.drops rest)
            = (last.database.jobs.ids + (middle.commits rest).flatMap Notice.exits +
                middle.drops rest) +
              ((engine.notices move).flatMap Notice.exits + engine.dropped move) := by abel
        _ = (middle.database.jobs.ids + (engine.notices move).flatMap Notice.exits +
                engine.dropped move) +
              ((middle.commits rest).flatMap Notice.entries + middle.strayings rest) := by
            rw [later]
            abel
        _ = engine.database.jobs.ids +
              ((engine.notices move).flatMap Notice.entries +
                (middle.commits rest).flatMap Notice.entries) +
              (engine.strayed move + middle.strayings rest) := by
            rw [step]
            abel

/-- No two records that some moves insert have one id. -/
theorem Kept.entries_run {moves : List (Move Business)} (kept : engine.Kept)
    (leaveJobs : ∀ move ∈ moves, move.LeavesJobs) (ran : engine.run? moves = some last) :
    ((engine.commits moves).flatMap Notice.entries).Nodup ∧
      ∀ id ∈ (engine.commits moves).flatMap Notice.entries, engine.database.jobs.mark < id := by
  induction moves generalizing engine with
  | nil => exact ⟨.nil, nofun⟩
  | cons move rest ih =>
      obtain ⟨middle, taken, isRest⟩ := Option.bind_eq_some_iff.mp ran
      have leavesJobs := leaveJobs move List.mem_cons_self
      obtain ⟨firstNodup, firstAbove⟩ := kept.entries_step leavesJobs taken
      obtain ⟨restNodup, restAbove⟩ := ih (kept.step leavesJobs taken)
        (fun other member => leaveJobs other (List.mem_cons_of_mem _ member)) isRest
      have grows := ((kept.work leavesJobs taken).reaches kept.owned.consistent).mark_le
        kept.owned.consistent
      rw [commits_cons taken, List.flatMap_append]
      constructor
      · refine firstNodup.append restNodup fun id isFirst isLater => ?_
        have below := (firstAbove id isFirst).2
        have above := restAbove id isLater
        omega
      · intro id member
        rcases List.mem_append.mp member with isFirst | isLater
        · exact (firstAbove id isFirst).1
        · exact Int.lt_of_le_of_lt grows (restAbove id isLater)

/-- The counts of an engine and its job table, after some moves from the start. -/
structure Account (first : Engine Business) (moves : List (Move Business)) (last : Engine Business) :
    Prop where
  -- Each record that was told to have been inserted, or has strayed into the table, is still there,
  -- was told to have been taken out, or was dropped.
  balanced : (last.database.jobs.ids : Multiset Int) + (first.told moves).flatMap Notice.exits +
    first.drops moves = (first.told moves).flatMap Notice.entries + first.strayings moves
  -- No record is counted twice.
  distinct : ((first.told moves).flatMap Notice.entries).Nodup
  -- The counts are of these records, which counters of 64 bits can tell as long as they are fewer
  -- than 2^64.
  enqueued : last.telemetry.metrics.global.enqueued =
    ((first.told moves).flatMap Notice.entries).length
  removed : last.telemetry.metrics.global.removed =
    ((first.told moves).flatMap Notice.exits).length

theorem Account.length_eq {moves : List (Move Business)} (account : Account first moves last) :
    last.database.jobs.rows.length + last.telemetry.metrics.global.removed +
        (first.drops moves).length =
      last.telemetry.metrics.global.enqueued + (first.strayings moves).length := by
  have sizes := congrArg Multiset.card account.balanced
  simp only [Multiset.card_add, Multiset.coe_card, Store.Table.ids, List.length_map] at sizes
  rw [account.enqueued, account.removed, sizes]

/-- Once all that was committed is told, the counts of an engine that was opened on an empty store
account for the rows of the job table if and only if as many records were dropped as have strayed into
it: none, if no transaction has lapsed. -/
theorem rows_accounted_iff {writerName : String} {registry : Registry} {config : EngineConfig}
    {business : Business} {refusal? : Business → Business → Option StoreError}
    (opened : start? writerName registry config business refusal? = .succeeded first)
    {moves : List (Move Business)} (leaveJobs : ∀ move ∈ moves, move.LeavesJobs)
    (ran : first.run? moves = some last) (quiet : last.unannounced = 0) :
    Account first moves last ∧
      (last.database.jobs.rows.length + last.telemetry.metrics.global.removed =
          last.telemetry.metrics.global.enqueued ↔
        (first.drops moves).length = (first.strayings moves).length) := by
  obtain ⟨_, _, isDatabase, isTelemetry⟩ := start?_eq opened
  have fresh : first.Fresh := fresh_of_start? opened first.database
  have kept := (orderly_of_start? opened).kept
  have titled : first.database.jobs.Titled := by
    rw [isDatabase]
    exact Store.Table.titled_empty
  -- All that was committed is told, in whatever order.
  have allTold := kept.sound.told_run ran
  rw [quiet, fresh.unannounced, add_zero, zero_add] at allTold
  have told := Multiset.coe_eq_coe.mp allTold
  have entries := told.flatMap_right Notice.entries
  have exits := told.flatMap_right Notice.exits
  have ids := kept.ids_run titled leaveJobs ran
  have counts := first.telemetry.foldl_growsBy (first.log moves)
  rw [← (run_told ran).telemetry, isTelemetry] at counts
  have account : Account first moves last := by
    refine ⟨?_, entries.nodup_iff.mpr (kept.entries_run leaveJobs ran).1, ?_, ?_⟩
    · rw [Multiset.coe_eq_coe.mpr entries, Multiset.coe_eq_coe.mpr exits, ids, isDatabase]
      exact congrArg (· + _) (zero_add _)
    · rw [counts.enqueued]
      exact Nat.zero_add _
    · rw [counts.removed]
      exact Nat.zero_add _
  refine ⟨account, ?_⟩
  have sizes := account.length_eq
  omega

end Runs

/-- A job fails for good, another one of its key is enqueued, and the failed one is requeued: it gives
way to the other. -/
def supersededRequeue : List (Move Unit) :=
  let job := (Job.new "reindex" [118] Uuid.zero).withDebounceKey "k"
  [.enqueue job Instant.epoch, .announce 0 Instant.epoch] ++ firstMoves ++
    [.decide Instant.epoch, .launch Instant.epoch, .giveBack 0 (.error (.failed "boom")),
      .settle 0 0 Instant.epoch, .report 0 Instant.epoch, .enqueue job Instant.epoch,
      .announce 1 Instant.epoch, .requeue 1 Instant.epoch]

def onceConfig : EngineConfig :=
  { EngineConfig.standard with retry := (RetryPolicy.fixed Duration.zero).withMaxFailures 1 }

theorem leavesJobs_supersededRequeue : ∀ move ∈ supersededRequeue, move.LeavesJobs := by
  simp [supersededRequeue, firstMoves, Move.LeavesJobs]

theorem run?_supersededRequeue : ∃ first last : Engine Unit,
    start? "jobs" ⟨[("reindex", .normal)]⟩ onceConfig () = .succeeded first ∧
      first.run? supersededRequeue = some last ∧ last.owned = [] ∧ last.unannounced = 0 ∧
      last.database.jobs.rows.length = 1 ∧ last.telemetry.metrics.global.removed = 0 ∧
      last.telemetry.metrics.global.enqueued = 2 := by
  have ran : ((start? "jobs" ⟨[("reindex", .normal)]⟩ onceConfig ()).value?.bind fun first =>
      (first.run? supersededRequeue).map fun last =>
        ((last.owned.isEmpty, last.owed.flatten.isEmpty, last.tickNotices.isEmpty,
          last.executionNotices.isEmpty), last.database.jobs.rows.length,
          last.telemetry.metrics.global.removed, last.telemetry.metrics.global.enqueued)) =
      some ((true, true, true, true), 1, 0, 2) := by
    decide +kernel
  obtain ⟨first, opened, isLast⟩ := Option.bind_eq_some_iff.mp ran
  obtain ⟨last, ran, counted⟩ := Option.map_eq_some_iff.mp isLast
  simp only [Prod.mk.injEq, List.isEmpty_iff] at counted
  obtain ⟨⟨settled, owed, ticked, executed⟩, rows, removed, enqueued⟩ := counted
  have quiet : last.unannounced = 0 := by simp [unannounced, owed, ticked, executed]
  exact ⟨first, last, Attempt.eq_succeeded opened, ran, settled, quiet, rows, removed, enqueued⟩

theorem rows_accounted_iff_supersededRequeue :
    ∃ first last : Engine Unit,
      start? "jobs" ⟨[("reindex", .normal)]⟩ onceConfig () = .succeeded first ∧
      Account first supersededRequeue last ∧
      (first.drops supersededRequeue).length ≠ (first.strayings supersededRequeue).length := by
  obtain ⟨first, last, opened, ran, _, quiet, rows, removed, enqueued⟩ := run?_supersededRequeue
  obtain ⟨account, accounted⟩ := rows_accounted_iff opened leavesJobs_supersededRequeue ran quiet
  refine ⟨first, last, opened, account, fun even => ?_⟩
  have all := accounted.mpr even
  omega

/-- A record is gone, all that was claimed is settled, everything is told, and no count says so. -/
theorem removal_without_count :
    ∃ (first last : Engine Unit) (moves : List (Move Unit)),
      start? "jobs" ⟨[("reindex", .normal)]⟩ onceConfig () = .succeeded first ∧
      (∀ move ∈ moves, move.LeavesJobs) ∧ first.run? moves = some last ∧
      last.owned = [] ∧ last.unannounced = 0 ∧
      last.database.jobs.rows.length ≠
        last.telemetry.metrics.global.enqueued - last.telemetry.metrics.global.removed := by
  obtain ⟨first, last, opened, ran, settled, quiet, rows, removed, enqueued⟩ :=
    run?_supersededRequeue
  refine ⟨first, last, supersededRequeue, opened, leavesJobs_supersededRequeue, ran, settled, quiet,
    ?_⟩
  omega

end Engine

end DurableJobs
