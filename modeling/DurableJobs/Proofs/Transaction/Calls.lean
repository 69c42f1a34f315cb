import DurableJobs.Proofs.Store.Ordering
import DurableJobs.Proofs.Transaction.Writes

/-!
The calls that enqueue jobs in a transaction.

A program may go on after a refused call, or after one for several jobs that was refused halfway. Each
call that was accepted has entered one job and is noted once; a refused one has left no trace. So what
is noted and what is in the table stay in step, whatever the program makes of the answers, unless the
transaction lapses: what was noted before that is in no table any more.
-/

set_option autoImplicit false

namespace DurableJobs

/-- A call to enqueue a job, and its answer. -/
structure Call where
  job : Job
  answer : Except EngineError Int

/-- Calls that are made one after the other on a table, with what is noted of them: each accepted call
enters its job, and a refused one changes nothing. -/
inductive Entered (registry : Registry) (now : Instant) :
    Store.Table → List Call → List Enqueued → Store.Table → Prop where
  | nil {table : Store.Table} : Entered registry now table [] [] table
  | accepted {table middle after : Store.Table} {job : Job} {receipt : Store.Receipt}
      {calls : List Call} {entries : List Enqueued}
      (registered : registry.isRegistered job.jobType = true)
      (answer : table.enqueue job now = (.ok receipt, middle))
      (rest : Entered registry now middle calls entries after) :
      Entered registry now table (⟨job, .ok receipt.id⟩ :: calls)
        (⟨receipt, job.jobType, job.correlationId⟩ :: entries) after
  | unregistered {table after : Store.Table} {job : Job} {calls : List Call}
      {entries : List Enqueued} (unknown : registry.isRegistered job.jobType = false)
      (rest : Entered registry now table calls entries after) :
      Entered registry now table (⟨job, .error (.notRegistered job.jobType)⟩ :: calls) entries after
  | refused {table after : Store.Table} {job : Job} {error : StoreError} {calls : List Call}
      {entries : List Enqueued} (registered : registry.isRegistered job.jobType = true)
      (answer : table.enqueue job now = (.error error, table))
      (rest : Entered registry now table calls entries after) :
      Entered registry now table (⟨job, .error (.store error)⟩ :: calls) entries after

namespace Store.Table

/-- Enqueuing leaves every row as it was or with the type of the job. -/
theorem row_of_enqueue {table after : Table} {job : Job} {now : Instant} {receipt : Receipt}
    (answer : table.enqueue job now = (.ok receipt, after)) {row : Row} (member : row ∈ after.rows) :
    row ∈ table.rows ∨ row.jobType = .text job.jobType := by
  unfold enqueue at answer
  split at answer
  · split at answer
    · cases (Prod.mk.inj answer).1
    · next changed isChanged =>
        obtain rfl := (Prod.mk.inj answer).2
        rcases mem_of_change isChanged member with old | ⟨old, _, rfl⟩
        · exact .inl old
        · exact .inr rfl
  · split at answer
    · cases (Prod.mk.inj answer).1
    · split at answer
      · cases (Prod.mk.inj answer).1
      · next inserted =>
          obtain rfl := (Prod.mk.inj answer).2
          rw [(rows_of_insert inserted).1] at member
          rcases mem_insertRow.mp member with rfl | old
          · exact .inr rfl
          · exact .inl old

end Store.Table

namespace Entered

variable {registry : Registry} {now : Instant} {table middle after : Store.Table}
  {calls others : List Call} {entries more : List Enqueued}

theorem append (first : Entered registry now table calls entries middle)
    (second : Entered registry now middle others more after) :
    Entered registry now table (calls ++ others) (entries ++ more) after := by
  induction first with
  | nil => exact second
  | accepted registered answer _ ih => exact .accepted registered answer (ih second)
  | unregistered unknown _ ih => exact .unregistered unknown (ih second)
  | refused registered answer _ ih => exact .refused registered answer (ih second)

theorem enqueuedAll (entered : Entered registry now table calls entries after) :
    Store.Table.EnqueuedAll table (entries.map Enqueued.receipt) after := by
  induction entered with
  | nil => exact .nil
  | accepted _ answer _ ih => exact .cons answer ih
  | unregistered _ _ ih => exact ih
  | refused _ _ _ ih => exact ih

/-- What is noted are the accepted calls, with the ids that they were answered. -/
theorem accepted_calls (entered : Entered registry now table calls entries after) :
    calls.filterMap (fun call => call.answer.toOption.map fun id =>
        (id, call.job.jobType, call.job.correlationId)) =
      entries.map fun entry => (entry.receipt.id, entry.jobType, entry.correlationId) := by
  induction entered with
  | nil => rfl
  | accepted _ _ _ ih => simpa [Except.toOption] using ih
  | unregistered _ _ ih => simpa [Except.toOption] using ih
  | refused _ _ _ ih => simpa [Except.toOption] using ih

/-- No job of a type that is not registered gets into the table. -/
theorem rows (entered : Entered registry now table calls entries after) :
    ∀ row ∈ after.rows, row ∈ table.rows ∨
      ∃ jobType, row.jobType = .text jobType ∧ registry.isRegistered jobType = true := by
  induction entered with
  | nil => exact fun row member => .inl member
  | accepted registered answer _ ih =>
      intro row member
      rcases ih row member with earlier | later
      · rcases Store.Table.row_of_enqueue answer earlier with old | new
        · exact .inl old
        · exact .inr ⟨_, new, registered⟩
      · exact .inr later
  | unregistered _ _ ih => exact ih
  | refused _ _ _ ih => exact ih

end Entered

variable {Business Error Value : Type}

namespace Transaction

/-- The calls for jobs one after the other, up to the first one that is refused. -/
def calls (transaction : Transaction Business) : List Job → List Call
  | [] => []
  | job :: rest =>
      ⟨job, (transaction.enqueue job).1⟩ ::
        match transaction.enqueue job with
        | (.error _, _) => []
        | (.ok _, after) => after.calls rest

/-- A transaction goes on by making these calls, and notes the accepted ones. -/
def Makes (before : Transaction Business) (calls : List Call) (after : Transaction Business) :
    Prop :=
  after.registry = before.registry ∧ after.now = before.now ∧ after.saved? = before.saved? ∧
    ∃ entries, after.enqueued = before.enqueued ++ entries ∧
      Entered before.registry before.now before.database.jobs calls entries after.database.jobs

theorem Makes.refl (transaction : Transaction Business) : transaction.Makes [] transaction :=
  ⟨rfl, rfl, rfl, [], by simp, .nil⟩

theorem Makes.trans {before middle after : Transaction Business} {calls others : List Call}
    (first : before.Makes calls middle) (second : middle.Makes others after) :
    before.Makes (calls ++ others) after := by
  obtain ⟨sameRegistry, sameNow, sameSaved, entries, areEntries, entered⟩ := first
  obtain ⟨registry, now, saved, more, areMore, othersEntered⟩ := second
  rw [sameRegistry, sameNow] at othersEntered
  exact ⟨registry.trans sameRegistry, now.trans sameNow, saved.trans sameSaved, entries ++ more,
    by rw [areMore, areEntries, List.append_assoc], entered.append othersEntered⟩

/-- A call is made, or it finds the store full and makes the transaction lapse. -/
theorem enqueue_makes (transaction : Transaction Business) (job : Job) :
    transaction.Makes [⟨job, (transaction.enqueue job).1⟩] (transaction.enqueue job).2 ∨
      transaction.isOpen = true ∧
        transaction.enqueue job = (.error (.store .full), transaction.lapse) := by
  by_cases registered : transaction.registry.isRegistered job.jobType = true
  · cases answer : transaction.database.jobs.enqueue job transaction.now with
    | mk result jobs =>
        cases result with
        | error error =>
            obtain rfl := Store.Table.enqueue_of_error answer
            by_cases lapses : error = .full ∧ transaction.isOpen = true
            · obtain ⟨rfl, isOpen⟩ := lapses
              exact .inr ⟨isOpen, by simp only [enqueue, registered, if_true, answer]⟩
            · have refused : transaction.enqueue job = (.error (.store error), transaction) := by
                rw [enqueue, if_pos registered, answer]
                cases error with
                | full => exact congrArg _ (lapse_of_lapsed (by simpa using lapses))
                | _ => rfl
              rw [refused]
              exact .inl
                ⟨rfl, rfl, rfl, [], (List.append_nil _).symm, .refused registered answer .nil⟩
        | ok receipt =>
            simp only [enqueue, registered, if_true, answer]
            exact .inl ⟨rfl, rfl, rfl, _, rfl, .accepted registered answer .nil⟩
  · rw [enqueue, if_neg registered]
    exact .inl ⟨rfl, rfl, rfl, [], (List.append_nil _).symm,
      .unregistered (Bool.eq_false_iff.mpr registered) .nil⟩

theorem Makes.isOpen {before after : Transaction Business} {calls : List Call}
    (makes : before.Makes calls after) : after.isOpen = before.isOpen :=
  congrArg Option.isSome makes.2.2.1

/-- The transaction makes some calls and then lapses. -/
def MakesUntilLapse (before after : Transaction Business) : Prop :=
  ∃ calls middle, before.Makes calls middle ∧ middle.isOpen = true ∧ after = middle.lapse

theorem Makes.trans_lapse {before middle after : Transaction Business} {calls : List Call}
    (first : before.Makes calls middle) (later : middle.MakesUntilLapse after) :
    before.MakesUntilLapse after := by
  obtain ⟨others, last, makes, isOpen, isAfter⟩ := later
  exact ⟨calls ++ others, last, first.trans makes, isOpen, isAfter⟩

theorem MakesUntilLapse.isOpen {before after : Transaction Business}
    (lapses : before.MakesUntilLapse after) : after.isOpen = false := by
  obtain ⟨_, middle, _, isOpen, rfl⟩ := lapses
  exact (lapses_of_isOpen isOpen).isOpen.2

theorem MakesUntilLapse.of_full {transaction : Transaction Business}
    (isOpen : transaction.isOpen = true) : transaction.MakesUntilLapse transaction.lapse :=
  ⟨[], transaction, .refl transaction, isOpen, rfl⟩

theorem enqueueAll_makes (transaction : Transaction Business) (jobs : List Job)
    (correlation : Uuid) :
    transaction.Makes
        (transaction.calls (jobs.map fun job => job.withCorrelationId correlation))
        (transaction.enqueueAll jobs correlation).2 ∨
      transaction.MakesUntilLapse (transaction.enqueueAll jobs correlation).2 := by
  induction jobs generalizing transaction with
  | nil => exact .inl (.refl transaction)
  | cons job rest ih =>
      rw [List.map_cons, calls, enqueueAll]
      rcases transaction.enqueue_makes (job.withCorrelationId correlation) with
        first | ⟨isOpen, full⟩
      · cases answer : transaction.enqueue (job.withCorrelationId correlation) with
        | mk result middle =>
            rw [answer] at first
            cases result with
            | error error => exact .inl first
            | ok id =>
                have others := ih middle
                cases isRest : middle.enqueueAll rest correlation with
                | mk ids final =>
                    rw [isRest] at others
                    rcases others with makes | lapses
                    · refine .inl ?_
                      have all := first.trans makes
                      cases ids <;> simpa [isRest] using all
                    · refine .inr ?_
                      have all := first.trans_lapse lapses
                      cases ids <;> simpa [isRest] using all
      · rw [full]
        exact .inr (.of_full isOpen)

/-- Jobs that were all accepted are of registered types. -/
theorem registered_of_enqueueAll {transaction : Transaction Business} {jobs : List Job}
    {correlation : Uuid} {ids : List Int}
    (answer : (transaction.enqueueAll jobs correlation).1 = .ok ids) :
    ∀ job ∈ jobs, transaction.registry.isRegistered job.jobType = true := by
  induction jobs generalizing transaction ids with
  | nil => exact fun _ member => by cases member
  | cons first rest ih =>
      rw [enqueueAll] at answer
      rcases transaction.enqueue_cases (first.withCorrelationId correlation) with
        ⟨receipt, entered, registered, _, isFirst⟩ | ⟨error, isFirst⟩ | ⟨_, isFirst⟩
      · rw [isFirst] at answer
        cases isRest : (transaction.replay
            [.enqueue (first.withCorrelationId correlation)]).enqueueAll rest correlation with
        | mk others final =>
            simp only [isRest] at answer
            cases others with
            | error error => cases answer
            | ok others =>
                have later := ih (congrArg Prod.fst isRest)
                exact List.forall_mem_cons.mpr ⟨registered, later⟩
      · rw [isFirst] at answer
        cases answer
      · rw [isFirst] at answer
        cases answer

end Transaction

namespace Program

/-- The calls that a program makes to enqueue jobs when it is run in a transaction, in order. -/
def calls : Program Business Error Value → Transaction Business → List Call
  | .done _, _ => []
  | .fail _, _ => []
  | .breakDown _, _ => []
  | .enqueue job next, transaction =>
      let (answer, after) := transaction.enqueue job
      ⟨job, answer⟩ :: calls (next answer) after
  | .enqueueAll jobs correlation next, transaction =>
      let (answer, after) := transaction.enqueueAll jobs correlation
      transaction.calls (jobs.map fun job => job.withCorrelationId correlation) ++
        calls (next answer) after
  | .write edit next, transaction =>
      let (answer, after) := transaction.perform (onBusiness edit)
      calls (next answer) after
  | .execute edit next, transaction =>
      let (answer, after) := transaction.perform edit
      calls (next answer) after
  | .rollBack next, transaction => calls next transaction.lapse
  | .look next, transaction => calls (next transaction.database) transaction

theorem jobs_onBusiness {edit : Business → Except StoreError Business}
    {database edited : Database Business} (isEdited : onBusiness edit database = .ok edited) :
    edited.jobs = database.jobs := by
  unfold onBusiness at isEdited
  cases result : edit database.business with
  | error error =>
      rw [result] at isEdited
      cases isEdited
  | ok business =>
      rw [result] at isEdited
      cases isEdited
      rfl

theorem makes_perform {transaction : Transaction Business}
    {statement : Database Business → Except StoreError (Database Business)}
    (leaves : ∀ database edited, statement database = .ok edited → edited.jobs = database.jobs) :
    transaction.Makes [] (transaction.perform statement).2 := by
  rcases transaction.perform_cases statement with ⟨database, isEdited, done⟩ | ⟨error, refused⟩
  · have same : (Write.execute statement).apply transaction.database transaction.now = database := by
      simp [Write.apply, isEdited]
    rw [done]
    refine ⟨rfl, rfl, rfl, [], rfl, ?_⟩
    simp only [Transaction.replay, Database.replay_cons, Database.replay_nil, same,
      leaves _ _ isEdited]
    exact .nil
  · rw [refused]
    exact .refl transaction

/-- After some calls a program makes its own, or it makes some of them and its transaction lapses. -/
theorem LeavesJobs.makes_or_lapses {program : Program Business Error Value}
    (leavesJobs : program.LeavesJobs) {start transaction : Transaction Business}
    {earlier : List Call} (first : start.Makes earlier transaction) :
    match program.lapse? transaction with
    | none => start.Makes (earlier ++ program.calls transaction) (program.run transaction).2
    | some (_, lapsed) => start.MakesUntilLapse lapsed := by
  induction program generalizing transaction earlier with
  | done value => simpa [lapse?, calls, run] using first
  | fail error => simpa [lapse?, calls, run] using first
  | breakDown breakdown => simpa [lapse?, calls, run] using first
  | enqueue job next ih =>
      rcases transaction.enqueue_makes job with makes | ⟨isOpen, full⟩
      · have others := ih (transaction.enqueue job).1 (leavesJobs _) (first.trans makes)
        simpa only [lapse?, makes.isOpen, if_true, calls, run, List.append_assoc,
          List.singleton_append] using others
      · have ends := (Transaction.lapses_of_isOpen isOpen).isOpen.2
        simp only [lapse?, full, ends, isOpen, Bool.false_eq_true, if_false]
        exact first.trans_lapse (.of_full isOpen)
  | enqueueAll jobs correlation next ih =>
      rcases transaction.enqueueAll_makes jobs correlation with makes | lapses
      · have others := ih (transaction.enqueueAll jobs correlation).1 (leavesJobs _)
          (first.trans makes)
        simpa only [lapse?, makes.isOpen, if_true, calls, run, List.append_assoc] using others
      · obtain ⟨_, middle, makes, isOpen, _⟩ := id lapses
        have before : transaction.isOpen = true := makes.isOpen.symm.trans isOpen
        simp only [lapse?, lapses.isOpen, before, Bool.false_eq_true, if_false]
        exact first.trans_lapse lapses
  | write edit next ih =>
      have makes : transaction.Makes [] (transaction.perform (onBusiness edit)).2 :=
        makes_perform fun _ _ => jobs_onBusiness
      have others := ih (transaction.perform (onBusiness edit)).1 (leavesJobs _)
        (first.trans makes)
      rw [List.append_nil] at others
      exact others
  | execute edit next ih =>
      have others := ih (transaction.perform edit).1 (leavesJobs.2 _)
        (first.trans (makes_perform leavesJobs.1))
      rw [List.append_nil] at others
      exact others
  | rollBack next ih =>
      by_cases isOpen : transaction.isOpen = true
      · simp only [lapse?, isOpen, if_true]
        exact first.trans_lapse (.of_full isOpen)
      · simp only [lapse?, calls, run, isOpen, Bool.false_eq_true, if_false,
          Transaction.lapse_of_lapsed (Bool.eq_false_iff.mpr isOpen)]
        exact ih leavesJobs first
  | look next ih => exact ih _ (leavesJobs _) first

/-- A program whose transaction does not lapse makes its calls. -/
theorem LeavesJobs.makes {program : Program Business Error Value}
    (leavesJobs : program.LeavesJobs) {transaction : Transaction Business}
    (stays : program.lapse? transaction = none) :
    transaction.Makes (program.calls transaction) (program.run transaction).2 := by
  have makes := leavesJobs.makes_or_lapses (.refl transaction)
  rw [stays] at makes
  exact makes

section

variable (registry : Registry) (now : Instant) (database : Database Business)

/-- What a program enqueues and is not taken back makes up what its transaction does to the table. -/
theorem LeavesJobs.enqueuedAll_lasting {program : Program Business Error Value}
    (leavesJobs : program.LeavesJobs) :
    Store.Table.EnqueuedAll database.jobs
      ((database.enqueued now
        (program.lasting (Transaction.begin registry now database))).map Enqueued.receipt)
      (database.replay now (program.lasting (Transaction.begin registry now database))).jobs := by
  have ofStays : ∀ {rest : Program Business Error Value} {transaction : Transaction Business},
      rest.LeavesJobs → rest.lapse? transaction = none →
      Store.Table.EnqueuedAll transaction.database.jobs
        ((transaction.database.enqueued transaction.now (rest.writes transaction)).map
          Enqueued.receipt)
        (transaction.database.replay transaction.now (rest.writes transaction)).jobs := by
    intro rest transaction leaves stays
    obtain ⟨_, _, _, entries, areEntries, entered⟩ := leaves.makes stays
    rw [run_eq_replay stays] at areEntries entered
    obtain rfl := List.append_cancel_left areEntries
    exact entered.enqueuedAll
  unfold lasting
  cases lapses : program.lapse? (Transaction.begin registry now database) with
  | none => exact ofStays leavesJobs lapses
  | some left =>
      obtain ⟨rest, lapsed⟩ := left
      obtain ⟨_, lapse⟩ := run_of_lapse lapses
      have stays := lapse?_of_lapsed rest lapse.isOpen.2
      obtain ⟨saved, entries, isSaved, rfl⟩ := lapse
      obtain rfl : database = saved := Option.some.inj isSaved
      exact ofStays (leavesJobs.of_lapse lapses) stays

/-- A program is told of what lasts, and before that of what a lapse took back. -/
theorem LeavesJobs.enqueued_run {program : Program Business Error Value}
    (leavesJobs : program.LeavesJobs) :
    ∃ undone, (program.run (Transaction.begin registry now database)).2.enqueued =
        undone ++
          database.enqueued now (program.lasting (Transaction.begin registry now database)) ∧
      (undone = [] ∨ program.lapse? (Transaction.begin registry now database) ≠ none) ∧
      ∃ jobs, Store.Table.EnqueuedAll database.jobs (undone.map Enqueued.receipt) jobs := by
  unfold lasting
  cases lapses : program.lapse? (Transaction.begin registry now database) with
  | none =>
      refine ⟨[], ?_, .inl rfl, _, .nil⟩
      rw [run_eq_replay lapses]
      rfl
  | some left =>
      obtain ⟨rest, lapsed⟩ := left
      have makes := leavesJobs.makes_or_lapses (.refl (Transaction.begin registry now database))
      rw [lapses] at makes
      obtain ⟨calls, middle, ⟨_, sameNow, sameSaved, undone, areUndone, entered⟩, _, rfl⟩ := makes
      obtain ⟨ran, lapse⟩ := run_of_lapse lapses
      have isMiddle : middle.lapse = { middle with saved? := none, database := database } := by
        rw [Transaction.lapse, sameSaved]
        rfl
      refine ⟨undone, ?_, .inr (by simp), _, entered.enqueuedAll⟩
      rw [ran, run_eq_replay (lapse?_of_lapsed rest lapse.isOpen.2), isMiddle]
      simp only [Transaction.replay, areUndone, sameNow]
      rfl

end

end Program

end DurableJobs
