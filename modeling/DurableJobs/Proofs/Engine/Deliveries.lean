import DurableJobs.Definition
import DurableJobs.Proofs.Engine.Deeds
import DurableJobs.Proofs.Engine.Works
import DurableJobs.Proofs.Json.Payloads
import DurableJobs.Proofs.Store.Contents

/-!
What executors are handed of the jobs that were enqueued.

A course of deeds places jobs in rows, by the calls that its programs commit. Whatever else happens,
across restarts, a row keeps the type and the payload of the job last placed in it, and so does every
record of it that is claimed. An executor of the type is therefore called with the very value that the
job was made of.
-/

set_option autoImplicit false

namespace DurableJobs

open Store (Placement OnlyPlaced lastJob?)

/-! ### Jobs made of values -/

section Makes

variable {Value : Type} [Payload Value] {definition : Definition Value} {value : Value} {job : Job}

/-- A job of a type that is made of a value, whatever else is then asked for it. -/
inductive Definition.Makes (definition : Definition Value) (value : Value) : Job → Prop where
  | json (correlation : Uuid) :
      Makes definition value (Job.json definition.jobType value correlation)
  | job (correlation : Uuid) : Makes definition value (definition.job value correlation)
  | withPriority {job : Job} (made : Makes definition value job) (priority : Priority) :
      Makes definition value (job.withPriority priority)
  | withDelay {job : Job} (made : Makes definition value job) (delay : Duration) :
      Makes definition value (job.withDelay delay)
  | withNotBefore {job : Job} (made : Makes definition value job) (instant : Instant) :
      Makes definition value (job.withNotBefore instant)
  | withDebounceKey {job : Job} (made : Makes definition value job) (key : String) :
      Makes definition value (job.withDebounceKey key)
  | inSaga {job : Job} (made : Makes definition value job) (saga : Uuid) :
      Makes definition value (job.inSaga saga)
  | withCorrelationId {job : Job} (made : Makes definition value job) (correlation : Uuid) :
      Makes definition value (job.withCorrelationId correlation)

theorem Definition.Makes.jobType (made : definition.Makes value job) :
    job.jobType = definition.jobType := by
  induction made with
  | json correlation => rfl
  | job correlation => rfl
  | withPriority _ _ ih => exact ih
  | withDelay _ _ ih => exact ih
  | withNotBefore _ _ ih => exact ih
  | withDebounceKey _ _ ih => exact ih
  | inSaga _ _ ih => exact ih
  | withCorrelationId _ _ ih => exact ih

theorem Definition.Makes.payload (made : definition.Makes value job) :
    job.payload = Payload.encode value := by
  induction made with
  | json correlation => rfl
  | job correlation => rfl
  | withPriority _ _ ih => exact ih
  | withDelay _ _ ih => exact ih
  | withNotBefore _ _ ih => exact ih
  | withDebounceKey _ _ ih => exact ih
  | inSaga _ _ ih => exact ih
  | withCorrelationId _ _ ih => exact ih

end Makes

/-! ### Jobs placed by programs -/

def Call.placement? (call : Call) : Option Placement :=
  call.answer.toOption.map fun id => ⟨id, call.job⟩

/-- The jobs that a program places, if it comes to be committed. Once its transaction has lapsed, they
are only those that it places from then on. -/
def Program.placed {Business Error Value : Type} (program : Program Business Error Value)
    (transaction : Transaction Business) : List Placement :=
  let calls :=
    match program.lapse? transaction with
    | none => program.calls transaction
    | some (rest, lapsed) => rest.calls lapsed
  calls.filterMap Call.placement?

theorem Entered.places {registry : Registry} {now : Instant} {table after : Store.Table}
    {calls : List Call} {entries : List Enqueued}
    (entered : Entered registry now table calls entries after) :
    Store.Table.Places table (calls.filterMap Call.placement?) after := by
  induction entered with
  | nil => exact .nil
  | accepted _ answer _ ih => exact .cons answer ih
  | unregistered _ _ ih => exact ih
  | refused _ _ _ ih => exact ih

/-- What a program does to the table, and is not taken back, places its jobs in rows. -/
theorem Program.LeavesJobs.places_lasting {Business Error Value : Type}
    {program : Program Business Error Value} (leavesJobs : program.LeavesJobs)
    (registry : Registry) (now : Instant) (database : Database Business) :
    Store.Table.Places database.jobs (program.placed (Transaction.begin registry now database))
      (database.replay now (program.lasting (Transaction.begin registry now database))).jobs := by
  have ofStays : ∀ {rest : Program Business Error Value} {transaction : Transaction Business},
      rest.LeavesJobs → rest.lapse? transaction = none →
      Store.Table.Places transaction.database.jobs
        ((rest.calls transaction).filterMap Call.placement?)
        (transaction.database.replay transaction.now (rest.writes transaction)).jobs := by
    intro rest transaction leaves stays
    obtain ⟨_, _, _, _, _, entered⟩ := leaves.makes stays
    rw [run_eq_replay stays] at entered
    exact entered.places
  unfold placed lasting
  cases lapses : program.lapse? (Transaction.begin registry now database) with
  | none => exact ofStays leavesJobs lapses
  | some left =>
      obtain ⟨rest, lapsed⟩ := left
      obtain ⟨_, lapse⟩ := run_of_lapse lapses
      have stays := lapse?_of_lapsed rest lapse.isOpen.2
      obtain ⟨saved, entries, isSaved, rfl⟩ := lapse
      obtain rfl : database = saved := Option.some.inj isSaved
      exact ofStays (leavesJobs.of_lapse lapses) stays

/-! ### Executors of a type -/

/-- The executors that are registered: what the transactional ones do with a record inside their
transaction, and the results that the others may return for one. -/
structure Executors (Business : Type) where
  transactional : Record → Program Business JobError Engine.TransactionalOutcome
  asynchronous : Record → Except JobError Outcome → Prop

/-- The executor of a type is called with the payload decoded. -/
structure Executors.Serves {Business Value : Type} [Payload Value] (executors : Executors Business)
    (definition : Definition Value)
    (execute : Value → Record → Program Business JobError Engine.TransactionalOutcome)
    (attempt : Value → Record → Except JobError Outcome → Prop) : Prop where
  transactional : ∀ record : Record, record.jobType = definition.jobType →
    executors.transactional record = definition.deliver .fail execute record
  asynchronous : ∀ record : Record, record.jobType = definition.jobType →
    executors.asynchronous record =
      definition.deliver (fun error result => result = .error error) attempt record

namespace Engine

variable {Business : Type}

/-- The jobs that a move commits to rows. -/
def placed (engine : Engine Business) : Move Business → List Placement
  | .transact program now => byCaller program now
  | .enqueue job now => byCaller (enqueuing job) now
  | .enqueueAll jobs correlation now => byCaller (enqueuingAll jobs correlation) now
  | .runQueued executor _ now =>
      match engine.nextQueued? with
      | none => []
      | some execution =>
          let program := executor execution.record
          let transaction := Transaction.begin engine.registry now engine.database
          match program.lapse? transaction, engine.settledBy program now with
          | none, some (.ok _) => program.placed transaction
          | some _, _ => program.placed transaction
          | _, _ => []
  | _ => []
where
  byCaller {Value : Type} (program : Program Business EngineError Value) (now : Instant) :
      List Placement :=
    let transaction := Transaction.begin engine.registry now engine.database
    if engine.isWriterStopped then []
    else
      match program.lapse? transaction, (engine.transact program now).1 with
      | none, .error _ => []
      | _, _ => program.placed transaction

def placedBy (engine : Engine Business) : Deed Business → List Placement
  | .move move => engine.placed move
  | .reopen _ _ => []

/-- The jobs that a course of deeds has placed, in order. -/
def placements (engine : Engine Business) : List (Deed Business) → List Placement
  | [] => []
  | deed :: rest =>
      engine.placedBy deed ++
        match engine.perform? deed with
        | some after => after.placements rest
        | none => []

section Deliveries

variable {engine after : Engine Business} {column : Store.Row → Store.Cell}
  {cell : Job → Store.Cell}

/-- A job that is enqueued is placed in the row whose id is answered. -/
theorem placed_enqueue {job : Job} {id : Int} {now : Instant}
    (answer : (engine.enqueue job now).1 = .ok id) :
    engine.placed (.enqueue job now) = [⟨id, job⟩] := by
  have answered : (engine.transact (enqueuing job) now).1 = .ok id := answer
  show placed.byCaller engine (enqueuing job) now = _
  unfold placed.byCaller
  rcases engine.transact_cases (enqueuing job) now with
    ⟨_, refused, _⟩ | ⟨running, ⟨value, ended, stays, _, done⟩ | ⟨_, _, lapsed⟩⟩
  · cases answered.symm.trans (congrArg Prod.fst refused)
  · obtain rfl := Except.ok.inj (answered.symm.trans (congrArg Prod.fst done))
    simp only [running, stays, answered, Program.placed, Bool.false_eq_true, if_false]
    simp only [enqueuing, Program.run, Program.calls] at ended ⊢
    cases entered : (Transaction.begin engine.registry now engine.database).enqueue job with
    | mk result transaction =>
        rw [entered] at ended
        cases result with
        | error error => cases ended
        | ok _ =>
            cases ended
            rfl
  · cases answered.symm.trans (congrArg Prod.fst lapsed)

theorem tick_retains (onlyPlaced : OnlyPlaced column cell) {table left : Store.Table}
    {registry : Registry} {lanes : Lanes} {batch : Nat} {now : Instant} {tick : Tick}
    (consistent : table.Consistent)
    (answer : table.tick registry lanes batch now = (.ok tick, left)) :
    Store.Table.Retains column cell table [] left := by
  have ticked := consistent.tick_spec answer
  have sifted := consistent.tick_sifted answer
  refine Store.Table.retains_of_find? fun id row found => ?_
  by_cases isClaimed : id ∈ tick.claimed.map Record.id
  · obtain ⟨record, member, rfl⟩ := List.mem_map.mp isClaimed
    obtain ⟨old, oldFound, _, claimed, _⟩ := (ticked.claimed record member).row
    cases claimed.symm.trans found
    exact ⟨old, oldFound, onlyPlaced.kept (.claimed record.id old now)⟩
  by_cases isUnknown : id ∈ tick.unknown.map fun entry => entry.1.id
  · obtain ⟨entry, member, rfl⟩ := List.mem_map.mp isUnknown
    obtain ⟨_, old, oldFound, _, _, givenUp⟩ := sifted.givenUp entry member
    cases givenUp.symm.trans found
    exact ⟨old, oldFound, onlyPlaced.kept (.markedFailed entry.1.id old _ _ now)⟩
  · exact ⟨row, sifted.unchanged id isClaimed isUnknown ▸ found, rfl⟩

theorem settle_retains (onlyPlaced : OnlyPlaced column cell) {table : Store.Table}
    (consistent : table.Consistent) (record : Record) (result : Except JobError Outcome)
    (policy : RetryPolicy) (draw : Nat) (now : Instant) :
    Store.Table.Retains column cell table [] (table.settle record result policy draw now).2 :=
  consistent.perform_retains onlyPlaced (.settle record result policy draw now) rfl

/-- Work that enqueues no job leaves the column of every row as it was. -/
theorem Work.retains (onlyPlaced : OnlyPlaced column cell) {move : Move Business}
    {jobs : Store.Table} (work : Work engine move jobs) (consistent : engine.database.jobs.Consistent)
    (silent : engine.entered move = []) :
    Store.Table.Retains column cell engine.database.jobs [] jobs := by
  have unchanged : ∀ {table : Store.Table},
      Store.Table.Renewed engine.database.jobs ((engine.entered move).map Enqueued.receipt) table →
      Store.Table.Retains column cell engine.database.jobs [] table := by
    intro table renewed
    rw [silent] at renewed
    exact Store.Table.retains_of_find? fun id row found =>
      ⟨row, renewed.unchanged id (by simp) ▸ found, rfl⟩
  cases work with
  | idle same => exact same ▸ .refl _
  | enqueued _ _ _ _ _ renewed => exact unchanged renewed
  | @canceled id _ _ same => exact same ▸ consistent.perform_retains onlyPlaced (.cancel id) rfl
  | @requeued id now _ _ same =>
      exact same ▸ consistent.perform_retains onlyPlaced (.requeue id now) rfl
  | @recovered draw now _ _ _ same =>
      exact same ▸ consistent.perform_retains onlyPlaced (.recover _ _ draw now) rfl
  | ticked tick _ _ answer => exact tick_retains onlyPlaced consistent answer
  | @settled told record result settlement middle draw now _ _ _ _ _ _ renewed answer =>
      have settled := settle_retains onlyPlaced (renewed.reaches.consistent consistent) record result
        engine.config.retry draw now
      rw [answer] at settled
      exact (unchanged renewed).trans settled

/-- What a program has done that was not taken back leaves every row with what was last placed in
it. -/
theorem Kept.retains_lasting {Error Value : Type} (onlyPlaced : OnlyPlaced column cell)
    (kept : engine.Kept) {program : Program Business Error Value} (leavesJobs : program.LeavesJobs)
    (now : Instant) :
    Store.Table.Retains column cell engine.database.jobs
      (program.placed (Transaction.begin engine.registry now engine.database))
      (engine.database.replay now (engine.lasting program now)).jobs :=
  (leavesJobs.places_lasting engine.registry now engine.database).retains kept.owned.consistent
    onlyPlaced

theorem Kept.transact_retains (onlyPlaced : OnlyPlaced column cell) {Value : Type}
    {program : Program Business EngineError Value} (kept : engine.Kept)
    (leavesJobs : program.LeavesJobs) (now : Instant) :
    Store.Table.Retains column cell engine.database.jobs (placed.byCaller engine program now)
      (engine.transact program now).2.database.jobs := by
  have retains := kept.retains_lasting onlyPlaced leavesJobs now
  unfold placed.byCaller
  rcases engine.transact_cases program now with
    ⟨_, same, stopped | ⟨stays, _⟩⟩ |
      ⟨running, ⟨_, _, stays, _, committed⟩ | ⟨lapses, _, lapsed⟩⟩
  · rw [if_pos stopped, same]
    exact .refl _
  · simp only [same, stays, ite_self]
    exact .refl _
  · simpa only [running, committed, stays, Bool.false_eq_true, if_false] using retains
  · obtain ⟨rest, isRest⟩ := Option.ne_none_iff_exists'.mp lapses
    simpa only [running, lapsed, isRest, Bool.false_eq_true, if_false] using retains

theorem Kept.runQueued_retains (onlyPlaced : OnlyPlaced column cell)
    {executor : Record → Program Business JobError TransactionalOutcome} {draw : Nat}
    {now : Instant} (kept : engine.Kept) (leavesJobs : ∀ record, (executor record).LeavesJobs)
    (taken : engine.runQueued executor draw now = some after) :
    Store.Table.Retains column cell engine.database.jobs
      (engine.placed (.runQueued executor draw now)) after.database.jobs := by
  obtain ⟨execution, notices?, database, next, ran, rfl⟩ := runQueued_cases taken
  have retains := kept.retains_lasting onlyPlaced (leavesJobs execution.record) now
  have consistent := kept.owned.consistent
  have later := (kept.renewed_lasting (leavesJobs execution.record) now).reaches.consistent consistent
  simp only [placed, next]
  obtain ⟨_, _, isRun, concluded⟩ := runTransactional_concluded engine.database engine.registry
    engine.config.retry execution.record (executor execution.record) draw now
  obtain ⟨rfl, rfl⟩ := Prod.mk.inj (ran.symm.trans isRun)
  show Store.Table.Retains column cell engine.database.jobs _ database.jobs
  have settled : ∀ (outcome : Outcome),
      Store.Table.Retains column cell engine.database.jobs
        ((executor execution.record).placed
          (Transaction.begin engine.registry now engine.database))
        ((engine.database.replay now
          (engine.lasting (executor execution.record) now)).jobs.settleOutcome execution.record
            outcome now).2 := by
    intro outcome
    have both := retains.trans
      (settle_retains onlyPlaced later execution.record (.ok outcome) engine.config.retry draw now)
    rw [List.append_nil] at both
    exact both
  cases concluded with
  | @done result settlement jobs ended stays answer accepted =>
      simp only [stays, settledBy_of_accepted ended stays accepted]
      have both := settled result.outcome
      rw [lasting, answer] at both
      exact both
  | @failed error settlement jobs ended stays answer =>
      rw [stays, settledBy_of_jobError ended, if_pos stays]
      have both := settle_retains onlyPlaced consistent execution.record (.error error)
        engine.config.retry draw now
      simp only [Store.Table.settle, answer] at both
      exact both
  | @outcomeRefused result refusal ended stays refused =>
      obtain ⟨settlement, answer⟩ := later.settle_succeeds execution.record (.ok result.outcome)
        engine.config.retry draw now
      cases refused.symm.trans answer
  | @commitRefused result settlement refusal ended stays _ refused =>
      simp only [stays, settledBy_of_refused ended stays refused]
      exact .refl _
  | failureRefused ended stays refused =>
      rw [stays, settledBy_of_jobError ended, if_pos stays]
      exact .refl _
  | @lapsedDone result answer jobs ended lapses answered =>
      obtain ⟨rest, isRest⟩ := Option.ne_none_iff_exists'.mp lapses
      simp only [isRest]
      have both := settled result.outcome
      rw [lasting, answered] at both
      exact both
  | lapsedFailed ended lapses =>
      obtain ⟨rest, isRest⟩ := Option.ne_none_iff_exists'.mp lapses
      simp only [isRest]
      exact retains

theorem entered_settle (engine : Engine Business) (ticket draw : Nat) (now : Instant) :
    engine.entered (.settle ticket draw now) = [] := by
  simp only [entered, notices, strays, List.append_nil]
  split
  · rfl
  · split <;> rfl

theorem Kept.retains (onlyPlaced : OnlyPlaced column cell) {move : Move Business}
    (kept : engine.Kept) (leavesJobs : move.LeavesJobs) (taken : engine.step move = some after) :
    Store.Table.Retains column cell engine.database.jobs (engine.placed move)
      after.database.jobs := by
  have silently : engine.entered move = [] →
      Store.Table.Retains column cell engine.database.jobs [] after.database.jobs :=
    (kept.work leavesJobs taken).retains onlyPlaced kept.owned.consistent
  cases move with
  | transact program now =>
      obtain rfl := Option.some.inj taken
      exact kept.transact_retains onlyPlaced leavesJobs now
  | enqueue job now =>
      obtain rfl := Option.some.inj taken
      exact kept.transact_retains onlyPlaced leavesJobs_enqueuing now
  | enqueueAll jobs correlation now =>
      obtain rfl := Option.some.inj taken
      exact kept.transact_retains onlyPlaced leavesJobs_enqueuingAll now
  | runQueued executor draw now => exact kept.runQueued_retains onlyPlaced leavesJobs taken
  | cancel id => exact silently (entered_cancel engine id)
  | requeue id now => exact silently (entered_requeue engine id now)
  | decide now => exact silently (entered_decide engine now)
  | settle ticket draw now => exact silently (entered_settle engine ticket draw now)
  | _ => exact silently rfl

theorem placements_cons {deed : Deed Business} (done : engine.perform? deed = some after)
    (rest : List (Deed Business)) :
    engine.placements (deed :: rest) = engine.placedBy deed ++ after.placements rest := by
  simp [placements, done]

/-- After any course, every row has the columns of the job last placed in it. -/
theorem Orderly.retains (onlyPlaced : OnlyPlaced column cell) {deeds : List (Deed Business)}
    (orderly : Orderly engine) (leaveJobs : ∀ deed ∈ deeds, deed.LeavesJobs)
    (came : engine.course? deeds = some after) :
    Store.Table.Retains column cell engine.database.jobs (engine.placements deeds)
      after.database.jobs := by
  induction deeds generalizing engine with
  | nil => exact Option.some.inj came ▸ .refl _
  | cons deed rest ih =>
      obtain ⟨middle, done, isRest⟩ := Option.bind_eq_some_iff.mp came
      have leavesJobs := leaveJobs deed List.mem_cons_self
      have later := ih (orderly.perform leavesJobs done)
        (fun other member => leaveJobs other (List.mem_cons_of_mem _ member)) isRest
      rw [placements_cons done]
      refine Store.Table.Retains.trans ?_ later
      cases deed with
      | move move => exact orderly.kept.retains onlyPlaced leavesJobs done
      | reopen registry config =>
          obtain ⟨_, _, _, database⟩ := reopen?_cases done
          exact database ▸ .refl _

/-- The executions of a record are what is executed here. -/
structure Executes (engine : Engine Business) (executors : Executors Business) (id : Int)
    (execute : Record → Program Business JobError TransactionalOutcome)
    (attempt : Record → Except JobError Outcome → Prop) : Prop where
  queued : ∀ execution, engine.nextQueued? = some execution → execution.record.id = id →
    ∀ draw now, engine.step (.runQueued executors.transactional draw now) =
      engine.step (.runQueued execute draw now)
  running : ∀ ticket execution, engine.execution? ticket = some execution →
    execution.stage = .running → execution.record.id = id →
    ∀ result, executors.asynchronous execution.record result ↔ attempt execution.record result

/-- The executor of the type of a job is called with the value that the job was made of: by every
execution of the row that it was placed in, until another job is placed there. -/
theorem Orderly.delivers {format : Payload.Format} {definition : Definition format.Value}
    {value : format.Value} {executors : Executors Business}
    {execute : format.Value → Record → Program Business JobError TransactionalOutcome}
    {attempt : format.Value → Record → Except JobError Outcome → Prop}
    {deeds : List (Deed Business)} {earlier later : List Placement} {placement : Placement}
    (orderly : Orderly engine) (leaveJobs : ∀ deed ∈ deeds, deed.LeavesJobs)
    (came : engine.course? deeds = some after)
    (serves : executors.Serves definition execute attempt)
    (made : definition.Makes value placement.job)
    (placed : engine.placements deeds = earlier ++ placement :: later)
    (spared : ∀ other ∈ later, other.id ≠ placement.id) :
    Payload.decode definition.jobType (Payload.encode value) = .ok value ∧
      (∀ row, after.database.jobs.find? placement.id = some row →
        row.payload = .blob (Payload.encode value)) ∧
      (∀ record ∈ after.owned, record.id = placement.id →
        executors.transactional record = execute value record ∧
          executors.asynchronous record = attempt value record) ∧
      after.Executes executors placement.id (execute value) (attempt value) := by
  have last : lastJob? placement.id (engine.placements deeds) = some placement.job := by
    rw [placed, Store.lastJob?_split placement spared]
  have payload : ∀ row, after.database.jobs.find? placement.id = some row →
      row.payload = .blob (Payload.encode value) := by
    intro row found
    have kept := orderly.retains Store.onlyPlaced_payload leaveJobs came placement.id row found
    rw [last] at kept
    exact kept.trans (congrArg Store.Cell.blob made.payload)
  have jobType : ∀ row, after.database.jobs.find? placement.id = some row →
      row.jobType = .text definition.jobType := by
    intro row found
    have kept := orderly.retains Store.onlyPlaced_jobType leaveJobs came placement.id row found
    rw [last] at kept
    exact kept.trans (congrArg Store.Cell.text made.jobType)
  have handed : ∀ record ∈ after.owned, record.id = placement.id →
      executors.transactional record = execute value record ∧
        executors.asynchronous record = attempt value record := by
    intro record member here
    obtain ⟨row, found, _, isRecord⟩ :=
      (orderly.course leaveJobs came).kept.owned.running record member
    rw [here] at found
    have held := Store.Row.holds_of_record isRecord
    have isPayload : record.payload = Payload.encode value :=
      Store.Cell.blob.inj (held.payload.symm.trans (payload row found))
    have isType : record.jobType = definition.jobType :=
      Store.Cell.text.inj (held.jobType.symm.trans (jobType row found))
    rw [serves.transactional record isType, serves.asynchronous record isType, Definition.deliver,
      Definition.deliver, isPayload, Payload.decode_encode]
    exact ⟨rfl, rfl⟩
  have owned : ∀ execution ∈ after.executions, execution.stage.isOwning = true →
      execution.record ∈ after.owned := fun execution member owning =>
    List.mem_append_left _ (List.mem_map_of_mem (List.mem_filter.mpr ⟨member, owning⟩))
  refine ⟨Payload.decode_encode _ value, payload, handed, ?_, ?_⟩
  · intro execution next here draw now
    obtain ⟨member, queued⟩ := mem_of_nextQueued? next
    have same := (handed execution.record (owned execution member (by rw [queued]; rfl)) here).1
    simp only [step, runQueued, next, same]
  · intro ticket execution found running here result
    obtain ⟨member, _⟩ := mem_of_execution? found
    have same := (handed execution.record (owned execution member (by rw [running]; rfl)) here).2
    rw [same]

end Deliveries

/-- An upload with the largest number, and with a note that holds a quote, a line break, a control and
a character beyond the first plane. Its execution fails, and it is queued again. -/
theorem delivers_sample :
    ∃ (definition : Definition Upload) (upload : Upload) (executors : Executors Unit)
      (execute : Upload → Record → Program Unit JobError TransactionalOutcome)
      (engine after : Engine Unit) (deeds : List (Deed Unit)) (execution : Execution),
      executors.Serves definition execute (fun _ _ _ => False) ∧
        engine.course? deeds = some after ∧ after.nextQueued? = some execution ∧
        execution.record.failures = 1 ∧
        ∀ draw now, after.step (.runQueued executors.transactional draw now) =
          after.step (.runQueued (execute upload) draw now) := by
  let definition : Definition Payload.Format.upload.Value :=
    { jobType := "upload", debounceKey := Upload.note }
  let upload : Payload.Format.upload.Value :=
    Upload.mk 0xffffffffffffffff [0, 255] (some "\"a\"\n\u0001😀")
  let execute (upload : Payload.Format.upload.Value) (_ : Record) :
      Program Unit JobError TransactionalOutcome :=
    .fail (.failed ((Upload.note upload).getD ""))
  let executors : Executors Unit :=
    { transactional := definition.deliver .fail execute
      asynchronous := definition.deliver (fun error result => result = .error error)
        fun _ _ _ => False }
  let registry : Registry := ⟨[("upload", .transactional)]⟩
  let config : EngineConfig :=
    { EngineConfig.standard with retry := RetryPolicy.fixed Duration.zero }
  let tick : List (Move Unit) :=
    [.count, .scan Instant.epoch Instant.epoch, .decide Instant.epoch, .launch Instant.epoch]
  let moves : List (Move Unit) :=
    [.enqueue (definition.job upload Uuid.zero) Instant.epoch, .start, .recover 0 Instant.epoch] ++
      tick ++
      [.runQueued executors.transactional 0 Instant.epoch, .report 0 Instant.epoch,
        .launch Instant.epoch, .rest Instant.epoch, .wake .time] ++
      tick
  let deeds : List (Deed Unit) := moves.map Deed.move
  have ran : ((start? "jobs" registry config ()).value?.bind fun first =>
      (first.course? deeds).bind fun engine =>
        engine.nextQueued?.map fun execution =>
          ((execution.record.id, execution.record.failures),
            (first.placements deeds).map fun placement => (placement.id, placement.job))) =
      some ((1, 1), [(1, definition.job upload Uuid.zero)]) := by decide +kernel
  obtain ⟨first, opened, isEngine⟩ := Option.bind_eq_some_iff.mp ran
  obtain ⟨engine, came, isExecution⟩ := Option.bind_eq_some_iff.mp isEngine
  obtain ⟨execution, next, seen⟩ := Option.map_eq_some_iff.mp isExecution
  obtain ⟨counted, placed⟩ := Prod.mk.inj seen
  obtain ⟨placement, isPlacement, isJob⟩ := List.map_eq_singleton_iff.mp placed
  obtain ⟨here, failures⟩ := Prod.mk.inj counted
  obtain ⟨there, job⟩ := Prod.mk.inj isJob
  have leavesJobs : ∀ record, (executors.transactional record).LeavesJobs := by
    intro record
    show (definition.deliver .fail execute record).LeavesJobs
    unfold Definition.deliver
    split <;> trivial
  have leaveJobs : ∀ deed ∈ deeds, deed.LeavesJobs := by
    simp [deeds, moves, tick, Deed.LeavesJobs, Move.LeavesJobs, leavesJobs]
  have serves : executors.Serves definition execute (fun _ _ _ => False) :=
    ⟨fun _ _ => rfl, fun _ _ => rfl⟩
  have made : definition.Makes upload placement.job := job ▸ .job Uuid.zero
  have placedLast : first.placements deeds = [] ++ placement :: [] := isPlacement
  obtain ⟨_, _, _, executes⟩ := Orderly.delivers
    (orderly_of_start? (Attempt.eq_succeeded opened)) leaveJobs came serves made placedLast (by simp)
  exact ⟨definition, upload, executors, execute, first, engine, deeds, execution, serves, came, next,
    failures, executes.queued execution next (here.trans there.symm)⟩

end Engine

end DurableJobs
