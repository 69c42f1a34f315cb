import DurableJobs.Proofs.Engine.Deeds
import DurableJobs.Proofs.Engine.Fates

/-!
How often a record may fail.

The failures of a record count from zero when it is enqueued and when it is requeued; what fails in
between is one execution after the other. A policy with a limit lets it fail so often and no more: the
last failure leaves the record failed, and a record that can still run has failed less often. Without
a limit no execution leaves its record failed.
-/

set_option autoImplicit false

namespace DurableJobs.Engine

variable {Business : Type}

def reckons (engine : Engine Business) : Deed Business → Int → Reckoning
  | .move move, id => engine.reckoning move id
  | .reopen _ _, _ => .kept

/-- How often the execution of a record has failed in the course of some deeds since its counts were
last reset, if it had failed so often before. -/
def failuresSince (engine : Engine Business) (id : Int) : List (Deed Business) → Nat → Nat
  | [], count => count
  | deed :: rest, count =>
      match engine.perform? deed with
      | none => count
      | some after => after.failuresSince id rest ((engine.reckons deed id).apply count)

/-- A restart keeps the limit of failures. -/
def Deed.KeepsLimit (maxFailures : Option Nat) : Deed Business → Prop
  | .move _ => True
  | .reopen _ config => config.retry.maxFailures = maxFailures

/-- A record that can still run has failed as often as it was counted, and less often than it may. -/
structure WithinLimit (limit : Nat) (row? : Option Store.Row) (count : Nat) : Prop where
  count_le : count ≤ limit
  alive : ∀ row, row? = some row → row.state ≠ .failed →
    row.failures = .integer count ∧ count < limit

section Limit

variable {engine after : Engine Business} {move : Move Business} {jobs : Store.Table} {id : Int}
  {row? later? : Option Store.Row} {reckoning : Reckoning} {limit count : Nat}

theorem WithinLimit.zero {row : Store.Row} (limited : 1 ≤ limit) (untried : row.IsUntried) :
    WithinLimit limit (some row) 0 := by
  refine ⟨Nat.zero_le _, fun other isRow _ => ?_⟩
  obtain rfl := Option.some.inj isRow
  exact ⟨untried.failures, limited⟩

theorem WithinLimit.gone (count_le : count ≤ limit) : WithinLimit limit none count :=
  ⟨count_le, fun _ isRow => by cases isRow⟩

theorem WithinLimit.of_failed {row : Store.Row} (count_le : count ≤ limit)
    (failed : row.state = .failed) : WithinLimit limit (some row) count := by
  refine ⟨count_le, fun other isRow alive => ?_⟩
  obtain rfl := Option.some.inj isRow
  exact absurd failed alive

/-- The failures that an execution goes by are one more than were counted. -/
theorem WithinLimit.nextFailures_eq {row : Store.Row} {record : Record}
    (within : WithinLimit limit (some row) count) (fits : limit ≤ Record.countLimit)
    (running : row.state = .running) (isRecord : row.record = .ok record) :
    record.nextFailures = count + 1 ∧ count + 1 ≤ limit := by
  obtain ⟨isCount, below⟩ := within.alive row rfl (by simp [running])
  have held := (Store.Row.holds_of_record isRecord).failures.1
  have same := Store.Cell.integer.inj (held.symm.trans isCount)
  rw [Record.nextFailures]
  omega

theorem lt_of_not_isExhausted {policy : RetryPolicy} {failures : Nat}
    (isLimit : policy.maxFailures = some limit) (spared : policy.isExhausted failures = false) :
    failures < limit := by
  simpa [RetryPolicy.isExhausted, isLimit] using spared

/-- Only a running record is superseded because its execution was settled. -/
theorem running_of_leaves {row : Store.Row} {settled : Record × Except JobError Outcome}
    (leaves : row.state = .running ∨ row.state = .failed ∧ ∃ now, move = .requeue id now)
    (settles : engine.settlement? move = some settled) : row.state = .running := by
  rcases leaves with running | ⟨_, now, rfl⟩
  · exact running
  · cases settles

theorem Fate.withinLimit (fate : Fate engine move jobs id row? later? reckoning)
    (isLimit : engine.config.retry.maxFailures = some limit) (limited : 1 ≤ limit)
    (fits : limit ≤ Record.countLimit) (within : WithinLimit limit row? count) :
    WithinLimit limit later? (reckoning.apply count) := by
  cases fate with
  | untouched => exact within
  | enqueued _ _ untried => exact .zero limited untried
  | @claimed row record now pending _ =>
      have alive := within.alive row rfl (by simp [pending])
      exact ⟨within.count_le, fun _ isRow _ => Option.some.inj isRow ▸ alive⟩
  | gaveUp _ _ _ => exact .of_failed within.count_le rfl
  | canceled _ _ => exact .gone within.count_le
  | completed _ _ _ => exact .gone within.count_le
  | superseded leaves _ _ _ _ reckons =>
      rcases reckons with rfl | ⟨rfl, reckons⟩
      · exact .gone within.count_le
      · obtain ⟨record, error, settles, isRecord, _⟩ := reckons
        exact .gone (within.nextFailures_eq fits (running_of_leaves leaves settles) isRecord).2
  | @cameBack row notBefore now running =>
      have alive := within.alive row rfl (by simp [running])
      exact ⟨within.count_le, fun _ isRow _ => Option.some.inj isRow ▸ alive⟩
  | failed _ running isRecord spared =>
      obtain ⟨isNext, _⟩ := within.nextFailures_eq fits running isRecord
      have below := lt_of_not_isExhausted isLimit spared
      rw [isNext] at below
      refine ⟨Nat.le_of_lt below, fun row isRow _ => ?_⟩
      obtain rfl := Option.some.inj isRow
      exact ⟨by rw [isNext]; rfl, below⟩
  | deadLettered _ running isRecord _ =>
      exact .of_failed (within.nextFailures_eq fits running isRecord).2 rfl
  | requeued _ _ => exact .zero limited (Store.Row.isUntried_requeue _ _)

/-- A failure leaves its record failed if it is the last that the record may have. -/
theorem Fate.failed_iff (fate : Fate engine move jobs id row? later? .raised)
    (isLimit : engine.config.retry.maxFailures = some limit) (fits : limit ≤ Record.countLimit)
    (within : WithinLimit limit row? count) :
    (∃ row, later? = some row ∧ row.state = .failed) ↔ count + 1 = limit := by
  cases fate with
  | superseded leaves _ _ _ _ reckons =>
      obtain ⟨_, record, error, settles, isRecord, spared⟩ := reckons.resolve_left nofun
      have next := (within.nextFailures_eq fits (running_of_leaves leaves settles) isRecord).1
      have below := lt_of_not_isExhausted isLimit spared
      constructor
      · rintro ⟨row, isRow, _⟩
        cases isRow
      · omega
  | failed _ running isRecord spared =>
      have next := (within.nextFailures_eq fits running isRecord).1
      have below := lt_of_not_isExhausted isLimit spared
      constructor
      · rintro ⟨row, isRow, failed⟩
        obtain rfl := Option.some.inj isRow
        simp at failed
      · omega
  | deadLettered _ running isRecord exhausted =>
      obtain ⟨next, fitting⟩ := within.nextFailures_eq fits running isRecord
      have reached : limit ≤ count + 1 := by
        simpa [RetryPolicy.isExhausted, isLimit, next] using exhausted
      constructor
      · intro _
        omega
      · intro _
        exact ⟨_, rfl, rfl⟩

/-- Without a limit, a record that was running has not failed afterwards. -/
theorem Fate.alive_of_running (fate : Fate engine move jobs id row? later? reckoning)
    (unlimited : engine.config.retry.maxFailures = none)
    (running : ∀ row, row? = some row → row.state = .running) {row : Store.Row}
    (left : later? = some row) : row.state ≠ .failed := by
  subst left
  cases fate with
  | untouched => simp [running row rfl]
  | enqueued _ _ untried => simp [untried.pending]
  | claimed _ _ => simp
  | gaveUp pending _ _ => cases pending.symm.trans (running _ rfl)
  | cameBack _ => simp
  | failed _ _ _ _ => simp
  | deadLettered _ _ _ exhausted => simp [RetryPolicy.isExhausted, unlimited] at exhausted
  | requeued _ failed => cases failed.symm.trans (running _ rfl)

end Limit

/-! ### Courses -/

section Courses

variable {first engine after : Engine Business} {limit : Nat}

theorem failuresSince_concat {past : List (Deed Business)} {deed : Deed Business}
    (came : first.course? past = some engine) (done : engine.perform? deed = some after) (id : Int)
    (count : Nat) :
    first.failuresSince id (past ++ [deed]) count =
      (engine.reckons deed id).apply (first.failuresSince id past count) := by
  induction past generalizing first count with
  | nil =>
      obtain rfl := Option.some.inj came
      simp [failuresSince, done]
  | cons earlier rest ih =>
      obtain ⟨middle, isMiddle, isRest⟩ := Option.bind_eq_some_iff.mp came
      simp only [List.cons_append, failuresSince, isMiddle]
      exact ih isRest _

theorem maxFailures_of_perform {deed : Deed Business} {maxFailures : Option Nat}
    (same : engine.config.retry.maxFailures = maxFailures) (keeps : deed.KeepsLimit maxFailures)
    (done : engine.perform? deed = some after) : after.config.retry.maxFailures = maxFailures := by
  cases deed with
  | move move =>
      have unchanged : after.config = engine.config := config_of_step done
      rw [unchanged, same]
  | reopen registry config =>
      obtain ⟨_, _, isConfig, _⟩ := reopen?_cases done
      rw [isConfig, keeps]

theorem Orderly.withinLimit_perform {deed : Deed Business} {count : Int → Nat}
    (orderly : Orderly engine) (isLimit : engine.config.retry.maxFailures = some limit)
    (limited : 1 ≤ limit) (fits : limit ≤ Record.countLimit) (leavesJobs : deed.LeavesJobs)
    (within : ∀ id, WithinLimit limit (engine.database.jobs.find? id) (count id))
    (done : engine.perform? deed = some after) (id : Int) :
    WithinLimit limit (after.database.jobs.find? id) ((engine.reckons deed id).apply (count id)) := by
  cases deed with
  | move move =>
      exact (orderly.kept.fate leavesJobs done id).withinLimit isLimit limited fits (within id)
  | reopen registry config =>
      obtain ⟨_, _, _, database⟩ := reopen?_cases done
      rw [database]
      exact within id

theorem Orderly.withinLimit_course {past : List (Deed Business)} {count : Int → Nat}
    (orderly : Orderly first) (isLimit : first.config.retry.maxFailures = some limit)
    (limited : 1 ≤ limit) (fits : limit ≤ Record.countLimit)
    (leaveJobs : ∀ deed ∈ past, deed.LeavesJobs)
    (keepLimit : ∀ deed ∈ past, deed.KeepsLimit (some limit))
    (within : ∀ id, WithinLimit limit (first.database.jobs.find? id) (count id))
    (came : first.course? past = some engine) (id : Int) :
    WithinLimit limit (engine.database.jobs.find? id) (first.failuresSince id past (count id)) := by
  induction past generalizing first count with
  | nil =>
      obtain rfl := Option.some.inj came
      exact within id
  | cons deed rest ih =>
      obtain ⟨middle, done, isRest⟩ := Option.bind_eq_some_iff.mp came
      have leavesJobs := leaveJobs deed List.mem_cons_self
      have step := orderly.withinLimit_perform isLimit limited fits leavesJobs within done
      have later := ih (orderly.perform leavesJobs done)
        (maxFailures_of_perform isLimit (keepLimit deed List.mem_cons_self) done)
        (fun other member => leaveJobs other (List.mem_cons_of_mem _ member))
        (fun other member => keepLimit other (List.mem_cons_of_mem _ member)) step isRest
      simpa only [failuresSince, done] using later

theorem maxFailures_of_course {past : List (Deed Business)} {maxFailures : Option Nat}
    (same : first.config.retry.maxFailures = maxFailures)
    (keepLimit : ∀ deed ∈ past, deed.KeepsLimit maxFailures)
    (came : first.course? past = some engine) : engine.config.retry.maxFailures = maxFailures := by
  induction past generalizing first with
  | nil => exact Option.some.inj came ▸ same
  | cons deed rest ih =>
      obtain ⟨middle, done, isRest⟩ := Option.bind_eq_some_iff.mp came
      exact ih (maxFailures_of_perform same (keepLimit deed List.mem_cons_self) done)
        (fun other member => keepLimit other (List.mem_cons_of_mem _ member)) isRest

/-- What a limit means for the records of an engine to which some deeds have led. -/
structure Limited (first : Engine Business) (past : List (Deed Business)) (engine : Engine Business)
    (limit : Nat) : Prop where
  -- What can still run has failed less often than it may, and shows how often.
  alive : ∀ row ∈ engine.database.jobs.rows, row.state ≠ .failed →
    row.failures = .integer (first.failuresSince row.id past 0) ∧
      first.failuresSince row.id past 0 < limit
  -- Between two resets of its counts, no record fails more often than it may.
  atMost : ∀ id, first.failuresSince id past 0 ≤ limit
  -- A failure leaves its record failed if it is the last that it may have, and only then.
  last : ∀ (move : Move Business) (after : Engine Business) (id : Int), move.LeavesJobs →
    engine.step move = some after → engine.reckoning move id = .raised →
    ((∃ row ∈ after.database.jobs.rows, row.id = id ∧ row.state = .failed) ↔
      first.failuresSince id (past ++ [.move move]) 0 = limit)

theorem settlement_alive {table later : Store.Table} (consistent : table.Consistent)
    {record : Record} {result : Except JobError Outcome} {policy : RetryPolicy} {draw : Nat}
    {now : Instant} {settlement : Settlement} (unlimited : policy.maxFailures = none)
    (answer : table.settle record result policy draw now = (.ok settlement, later))
    (error : String) : settlement ≠ .deadLettered error := by
  rintro rfl
  rcases consistent.settle_cases record result policy draw now with ⟨_, missing⟩ | ⟨row, _, ended⟩
  · cases answer.symm.trans missing
  · cases verdict : Store.Verdict.of record result policy draw now with
    | remove =>
        simp only [verdict] at ended
        cases answer.symm.trans ended
    | comeBack notBefore failure =>
        cases held : table.survivor? row with
        | none =>
            simp only [verdict, held] at ended
            cases answer.symm.trans ended
        | some survivor =>
            simp only [verdict, held] at ended
            cases answer.symm.trans ended
    | giveUp failure =>
        cases result with
        | ok outcome => cases outcome <;> cases verdict
        | error cause => simp [Store.Verdict.of, RetryPolicy.isExhausted, unlimited] at verdict

/-- Without a limit no settlement of an execution gives its record up. -/
theorem Kept.alive_of_settled {move : Move Business} (kept : engine.Kept)
    (unlimited : engine.config.retry.maxFailures = none) (leavesJobs : move.LeavesJobs)
    (taken : engine.step move = some after) {record : Record} {result : Except JobError Outcome}
    (settles : engine.settlement? move = some (record, result)) :
    (∀ row ∈ after.database.jobs.rows, row.id = record.id → row.state ≠ .failed) ∧
      ∀ other error, Notice.settled other (.deadLettered error) ∉ engine.notices move := by
  have consistent := kept.owned.consistent
  have later := (kept.step leavesJobs taken).owned.consistent
  cases kept.work leavesJobs taken with
  | idle _ _ _ none => cases none.symm.trans settles
  | enqueued _ none => cases none.symm.trans settles
  | canceled isMove => subst isMove; cases settles
  | requeued isMove => subst isMove; cases settles
  | recovered isMove => subst isMove; cases settles
  | ticked _ isMove => subst isMove; cases settles
  | @settled told owner ended settlement middle draw now notices first isSettled _ _ member renewed
      answer =>
      obtain ⟨rfl, rfl⟩ := Prod.mk.inj (Option.some.inj (settles.symm.trans isSettled))
      constructor
      · intro row rowMember here
        obtain ⟨old, found, running, _⟩ := kept.owned.running record member
        have fate := kept.fate leavesJobs taken record.id
        rw [found] at fate
        refine fate.alive_of_running unlimited ?_ (here ▸ later.find?_of_mem rowMember)
        rintro other ⟨rfl⟩
        exact running
      · intro other error listed
        rcases notices with ⟨notices, _⟩ | ⟨notices, _⟩
        · rw [notices, List.mem_append, List.mem_singleton] at listed
          cases listed with
          | inl isTold =>
              rcases first with rfl | ⟨jobs, effects, rfl⟩
              · cases isTold
              · simp at isTold
          | inr isLast =>
              obtain ⟨_, rfl⟩ := Notice.settled.inj isLast
              exact settlement_alive (renewed.reaches.consistent consistent) unlimited answer error
                rfl
        · rw [notices] at listed
          cases listed

/-- However an engine came about from an empty store, across restarts with one limit of failures:
with a limit a record fails at most so often between two resets of its counts; without one, no
execution ends with its record given up. -/
theorem dead_letter_bound {writerName : String} {registry : Registry} {config : EngineConfig}
    {business : Business} {refusal? : Business → Business → Option StoreError}
    (opened : start? writerName registry config business refusal? = .succeeded first)
    {past : List (Deed Business)} (leaveJobs : ∀ deed ∈ past, deed.LeavesJobs)
    (keepLimit : ∀ deed ∈ past, deed.KeepsLimit config.retry.maxFailures)
    (came : first.course? past = some engine) :
    (∀ limit, config.retry.maxFailures = some limit → 1 ≤ limit → limit ≤ Record.countLimit →
        Limited first past engine limit) ∧
      (config.retry.maxFailures = none →
        ∀ (move : Move Business) (after : Engine Business) (record : Record)
          (result : Except JobError Outcome), move.LeavesJobs → engine.step move = some after →
          engine.settlement? move = some (record, result) →
          (∀ row ∈ after.database.jobs.rows, row.id = record.id → row.state ≠ .failed) ∧
            ∀ other error, Notice.settled other (.deadLettered error) ∉ engine.notices move) := by
  have orderly := orderly_of_start? opened
  have kept := (orderly.course leaveJobs came).kept
  have consistent := kept.owned.consistent
  obtain ⟨_, isConfig, isDatabase, _⟩ := start?_eq opened
  have same := maxFailures_of_course (congrArg (fun config => config.retry.maxFailures) isConfig)
    keepLimit came
  constructor
  · intro limit isLimit limited fits
    rw [isLimit] at same keepLimit
    have empty : ∀ id, WithinLimit limit (first.database.jobs.find? id) 0 := by
      intro id
      rw [isDatabase]
      exact .gone (Nat.zero_le _)
    have within := orderly.withinLimit_course (by rw [isConfig, isLimit]) limited fits leaveJobs
      keepLimit empty came
    refine ⟨fun row member alive => ?_, fun id => (within id).count_le, ?_⟩
    · exact (within row.id).alive row (consistent.find?_of_mem member) alive
    · intro move after id leavesJobs taken raised
      have later := (kept.step leavesJobs taken).owned.consistent
      have fate := kept.fate leavesJobs taken id
      rw [raised] at fate
      have counted := failuresSince_concat came (show engine.perform? (.move move) = some after from
        taken) id 0
      have isRaised : engine.reckons (.move move) id = .raised := raised
      rw [counted, isRaised, Reckoning.apply, ← fate.failed_iff same fits (within id)]
      constructor
      · rintro ⟨row, member, rfl, failed⟩
        exact ⟨row, later.find?_of_mem member, failed⟩
      · rintro ⟨row, found, failed⟩
        exact ⟨row, Store.Table.mem_of_find? found, Store.Table.id_of_find? found, failed⟩
  · intro unlimited move after record result leavesJobs taken settles
    exact kept.alive_of_settled (same.trans unlimited) leavesJobs taken settles

end Courses

/-- A job fails for the first time: it may fail once more if the limit is two. -/
theorem dead_letter_bound_sample :
    ∃ (first engine : Engine Unit) (past : List (Deed Unit)) (row : Store.Row),
      first.course? past = some engine ∧ Limited first past engine 2 ∧
      row ∈ engine.database.jobs.rows ∧ row.state = .pending ∧
      first.failuresSince row.id past 0 = 1 := by
  let registry : Registry := ⟨[("reindex", .normal)]⟩
  let config : EngineConfig :=
    { EngineConfig.standard with retry := (RetryPolicy.fixed Duration.zero).withMaxFailures 2 }
  let moves : List (Move Unit) :=
    [.enqueue (Job.new "reindex" [118] Uuid.zero) Instant.epoch] ++ firstMoves ++
      [Move.decide Instant.epoch, .launch Instant.epoch, .giveBack 0 (.error (.failed "boom")),
        .settle 0 0 Instant.epoch]
  let past : List (Deed Unit) := moves.map Deed.move
  have ran : ((start? "jobs" registry config ()).value?.bind fun first =>
      (first.course? past).map fun engine => (engine.database.jobs.rows.map fun row =>
        (row.state, row.failures))) = some [(.pending, .integer 1)] := by decide +kernel
  obtain ⟨first, opened, isEngine⟩ := Option.bind_eq_some_iff.mp ran
  obtain ⟨engine, came, rows⟩ := Option.map_eq_some_iff.mp isEngine
  obtain ⟨row, isRow, counted⟩ := List.map_eq_singleton_iff.mp rows
  obtain ⟨pending, failures⟩ := Prod.mk.inj counted
  have leaveJobs : ∀ deed ∈ past, deed.LeavesJobs := by
    simp [past, moves, firstMoves, Deed.LeavesJobs, Move.LeavesJobs]
  have keepLimit : ∀ deed ∈ past, deed.KeepsLimit config.retry.maxFailures := by
    simp [past, moves, firstMoves, Deed.KeepsLimit]
  have limited := (dead_letter_bound (Attempt.eq_succeeded opened) leaveJobs keepLimit came).1 2 rfl
    (by decide) (by decide)
  have member : row ∈ engine.database.jobs.rows := by simp [isRow]
  have alive := (limited.alive row member (by simp [pending])).1
  have isOne := Store.Cell.integer.inj (alive.symm.trans failures)
  exact ⟨first, engine, past, row, came, limited, member, pending, by omega⟩

end DurableJobs.Engine
