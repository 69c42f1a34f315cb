import DurableJobs.Transaction
import DurableJobs.Proofs.Store.Receipts

/-!
What a program writes.

A program's writes are its requests that succeeded, in order: each job that was enqueued and each
edit that was accepted. They say all that the transaction does to its copy of the database; refused
requests leave no trace in it. If the transaction lapses, the writes before that are taken back, and
those after it are all that there is.
-/

set_option autoImplicit false

namespace DurableJobs

theorem Store.Table.enqueue_of_error {table after : Store.Table} {job : Job} {now : Instant}
    {error : StoreError} (refused : table.enqueue job now = (.error error, after)) :
    after = table := by
  unfold enqueue at refused
  split at refused
  · next row _ =>
      unfold change at refused
      cases found : table.find? row.id with
      | none => simp [found] at refused
      | some held =>
          cases replaced : table.replace row.id (held.coalesce job now) with
          | error error => simp_all
          | ok changed => simp [found, replaced] at refused
  · split at refused
    · exact (Prod.mk.inj refused).2.symm
    · split at refused
      · exact (Prod.mk.inj refused).2.symm
      · cases (Prod.mk.inj refused).1

/-- A request of a program that succeeded. -/
inductive Write (Business : Type) where
  | enqueue (job : Job)
  | execute (edit : Database Business → Except StoreError (Database Business))

variable {Business Error Value : Type}

namespace Write

def apply (database : Database Business) (now : Instant) : Write Business → Database Business
  | .enqueue job => { database with jobs := (database.jobs.enqueue job now).2 }
  | .execute edit =>
      match edit database with
      | .error _ => database
      | .ok edited => edited

def enqueued (database : Database Business) (now : Instant) : Write Business → List Enqueued
  | .enqueue job =>
      match (database.jobs.enqueue job now).1 with
      | .error _ => []
      | .ok receipt => [⟨receipt, job.jobType, job.correlationId⟩]
  | .execute _ => []

end Write

namespace Database

def replay (database : Database Business) (now : Instant) (writes : List (Write Business)) :
    Database Business :=
  writes.foldl (fun database write => write.apply database now) database

def enqueued (database : Database Business) (now : Instant) :
    List (Write Business) → List Enqueued
  | [] => []
  | write :: rest => write.enqueued database now ++ (write.apply database now).enqueued now rest

@[simp] theorem replay_nil (database : Database Business) (now : Instant) :
    database.replay now [] = database := rfl

@[simp] theorem replay_cons (database : Database Business) (now : Instant) (write : Write Business)
    (rest : List (Write Business)) :
    database.replay now (write :: rest) = (write.apply database now).replay now rest := rfl

theorem replay_append (database : Database Business) (now : Instant)
    (first second : List (Write Business)) :
    database.replay now (first ++ second) = (database.replay now first).replay now second := by
  simp [replay]

theorem enqueued_append (database : Database Business) (now : Instant)
    (first second : List (Write Business)) :
    database.enqueued now (first ++ second) =
      database.enqueued now first ++ (database.replay now first).enqueued now second := by
  induction first generalizing database with
  | nil => rfl
  | cons write rest ih => simp [enqueued, ih]

end Database

namespace Transaction

def replay (transaction : Transaction Business) (writes : List (Write Business)) :
    Transaction Business :=
  { transaction with
    database := transaction.database.replay transaction.now writes
    enqueued :=
      transaction.enqueued ++ transaction.database.enqueued transaction.now writes }

@[simp] theorem replay_nil (transaction : Transaction Business) :
    transaction.replay [] = transaction := by
  simp [replay, Database.enqueued]

theorem replay_append (transaction : Transaction Business) (first second : List (Write Business)) :
    transaction.replay (first ++ second) = (transaction.replay first).replay second := by
  simp [replay, Database.replay_append, Database.enqueued_append]

@[simp] theorem isOpen_replay (transaction : Transaction Business) (writes : List (Write Business)) :
    (transaction.replay writes).isOpen = transaction.isOpen := rfl

/-- The store has taken the transaction back between the two. -/
def Lapses (before after : Transaction Business) : Prop :=
  ∃ saved entries, before.saved? = some saved ∧
    after =
      { before with saved? := none, database := saved, enqueued := before.enqueued ++ entries }

theorem lapses_of_isOpen {transaction : Transaction Business} (isOpen : transaction.isOpen = true) :
    transaction.Lapses transaction.lapse := by
  obtain ⟨saved, isSaved⟩ := Option.isSome_iff_exists.mp isOpen
  exact ⟨saved, [], isSaved, by simp [lapse, isSaved]⟩

theorem lapse_of_lapsed {transaction : Transaction Business} (lapsed : transaction.isOpen = false) :
    transaction.lapse = transaction := by
  have none : transaction.saved? = none := Option.isNone_iff_eq_none.mp (by simpa [isOpen] using lapsed)
  simp [lapse, none]

theorem Lapses.isOpen {before after : Transaction Business} (lapses : before.Lapses after) :
    before.isOpen = true ∧ after.isOpen = false := by
  obtain ⟨saved, entries, isSaved, rfl⟩ := lapses
  exact ⟨by simp [Transaction.isOpen, isSaved], rfl⟩

theorem Lapses.of_replay {before after : Transaction Business} {writes : List (Write Business)}
    (lapses : (before.replay writes).Lapses after) : before.Lapses after := by
  obtain ⟨saved, entries, isSaved, rfl⟩ := lapses
  refine ⟨saved, before.database.enqueued before.now writes ++ entries, isSaved, ?_⟩
  simp [replay, List.append_assoc]

/-- A request leaves the transaction open or lapsed as it was, or it makes it lapse. -/
def Steps (before after : Transaction Business) : Prop :=
  (∃ writes, after = before.replay writes) ∨ before.Lapses after

theorem Steps.refl (transaction : Transaction Business) : transaction.Steps transaction :=
  .inl ⟨[], transaction.replay_nil.symm⟩

theorem Steps.lapses {before after : Transaction Business} (steps : before.Steps after)
    (ends : after.isOpen ≠ before.isOpen) : before.Lapses after := by
  rcases steps with ⟨writes, rfl⟩ | lapses
  · exact absurd rfl ends
  · exact lapses

theorem Steps.trans_lapses {before middle after : Transaction Business}
    (steps : before.Steps middle) (lapses : middle.Lapses after) : before.Lapses after := by
  rcases steps with ⟨writes, rfl⟩ | first
  · exact lapses.of_replay
  · cases first.isOpen.2.symm.trans lapses.isOpen.1

theorem Steps.isOpen {before after : Transaction Business} (steps : before.Steps after)
    (lapsed : before.isOpen = false) : after.isOpen = false := by
  rcases steps with ⟨writes, rfl⟩ | lapses
  · exact lapsed
  · exact lapses.isOpen.2

theorem lapse_steps (transaction : Transaction Business) : transaction.Steps transaction.lapse := by
  by_cases isOpen : transaction.isOpen = true
  · exact .inr (lapses_of_isOpen isOpen)
  · rw [lapse_of_lapsed (by simpa using isOpen)]
    exact .refl transaction

theorem perform_cases (transaction : Transaction Business)
    (statement : Database Business → Except StoreError (Database Business)) :
    (∃ database, statement transaction.database = .ok database ∧
        transaction.perform statement = (.ok (), transaction.replay [.execute statement])) ∨
      ∃ error, transaction.perform statement = (.error error, transaction) := by
  unfold perform
  cases result : statement transaction.database with
  | error error => exact .inr ⟨error, rfl⟩
  | ok database =>
      dsimp only
      split
      · exact .inr ⟨_, rfl⟩
      · refine .inl ⟨database, rfl, ?_⟩
        simp [replay, Database.enqueued, Write.enqueued, Write.apply, result]

theorem perform_steps (transaction : Transaction Business)
    (statement : Database Business → Except StoreError (Database Business)) :
    transaction.Steps (transaction.perform statement).2 := by
  rcases transaction.perform_cases statement with ⟨_, _, done⟩ | ⟨_, refused⟩
  · exact .inl ⟨_, by rw [done]⟩
  · rw [refused]
    exact .refl transaction

/-- A job is enqueued, or its call leaves no trace, or the store is full and takes the transaction
back. -/
theorem enqueue_cases (transaction : Transaction Business) (job : Job) :
    (∃ receipt jobs, transaction.registry.isRegistered job.jobType = true ∧
        transaction.database.jobs.enqueue job transaction.now = (.ok receipt, jobs) ∧
        transaction.enqueue job = (.ok receipt.id, transaction.replay [.enqueue job])) ∨
      (∃ error, transaction.enqueue job = (.error error, transaction)) ∨
      (transaction.Lapses transaction.lapse ∧
        transaction.enqueue job = (.error (.store .full), transaction.lapse)) := by
  by_cases registered : transaction.registry.isRegistered job.jobType = true
  · cases answer : transaction.database.jobs.enqueue job transaction.now with
    | mk result jobs =>
        cases result with
        | error error =>
            have same := Store.Table.enqueue_of_error answer
            subst same
            by_cases full : error = .full
            · have lapses : transaction.enqueue job = (.error (.store .full), transaction.lapse) := by
                simp [enqueue, registered, answer, full]
              by_cases isOpen : transaction.isOpen = true
              · exact .inr (.inr ⟨lapses_of_isOpen isOpen, lapses⟩)
              · rw [lapse_of_lapsed (by simpa using isOpen)] at lapses
                exact .inr (.inl ⟨_, lapses⟩)
            · refine .inr (.inl ⟨.store error, ?_⟩)
              rw [enqueue, if_pos registered, answer]
              cases error with
              | full => exact absurd rfl full
              | _ => rfl
        | ok receipt =>
            refine .inl ⟨receipt, jobs, registered, rfl, ?_⟩
            simp [enqueue, registered, answer, withJobs, replay, Database.enqueued, Write.enqueued,
              Write.apply]
  · exact .inr (.inl ⟨.notRegistered job.jobType, by simp [enqueue, registered]⟩)

/-- The jobs of a list that are enqueued before the first refusal. -/
def accepted (transaction : Transaction Business) : List Job → List Job
  | [] => []
  | job :: rest =>
      match transaction.enqueue job with
      | (.error _, _) => []
      | (.ok _, after) => job :: after.accepted rest

theorem enqueue_steps (transaction : Transaction Business) (job : Job) :
    transaction.Steps (transaction.enqueue job).2 := by
  rcases transaction.enqueue_cases job with
    ⟨_, _, _, _, answer⟩ | ⟨_, answer⟩ | ⟨lapses, answer⟩
  · exact .inl ⟨_, by rw [answer]⟩
  · rw [answer]
    exact .refl transaction
  · rw [answer]
    exact .inr lapses

theorem enqueueAll_cases (transaction : Transaction Business) (jobs : List Job)
    (correlation : Uuid) :
    (transaction.enqueueAll jobs correlation).2 =
        transaction.replay
          ((transaction.accepted (jobs.map fun job => job.withCorrelationId correlation)).map
            .enqueue) ∨
      transaction.Lapses (transaction.enqueueAll jobs correlation).2 := by
  induction jobs generalizing transaction with
  | nil => exact .inl (by simp [enqueueAll, accepted])
  | cons job rest ih =>
      rw [List.map_cons, enqueueAll, accepted]
      rcases transaction.enqueue_cases (job.withCorrelationId correlation) with
        ⟨receipt, jobs, _, _, answer⟩ | ⟨error, answer⟩ | ⟨lapses, answer⟩
      · have others := ih (transaction.replay [.enqueue (job.withCorrelationId correlation)])
        rw [← replay_append] at others
        cases result : (transaction.replay
            [.enqueue (job.withCorrelationId correlation)]).enqueueAll rest correlation with
        | mk ids final =>
            rw [result] at others
            rcases others with stays | lapses
            · refine .inl ?_
              cases ids <;> simpa [answer, result] using stays
            · refine .inr ?_
              cases ids <;> simpa [answer, result] using lapses.of_replay
      · exact .inl (by simp [answer])
      · exact .inr (by simpa [answer] using lapses)

theorem enqueueAll_steps (transaction : Transaction Business) (jobs : List Job)
    (correlation : Uuid) : transaction.Steps (transaction.enqueueAll jobs correlation).2 := by
  rcases transaction.enqueueAll_cases jobs correlation with stays | lapses
  · exact .inl ⟨_, stays⟩
  · exact .inr lapses

end Transaction

namespace Program

/-- The requests of a program that succeed when it is run in a transaction, in order. -/
def writes : Program Business Error Value → Transaction Business → List (Write Business)
  | .done _, _ => []
  | .fail _, _ => []
  | .breakDown _, _ => []
  | .enqueue job next, transaction =>
      match transaction.enqueue job with
      | (.error error, after) => writes (next (.error error)) after
      | (.ok id, after) => .enqueue job :: writes (next (.ok id)) after
  | .enqueueAll jobs correlation next, transaction =>
      (transaction.accepted (jobs.map fun job => job.withCorrelationId correlation)).map
          .enqueue ++
        writes (next (transaction.enqueueAll jobs correlation).1)
          (transaction.enqueueAll jobs correlation).2
  | .write edit next, transaction =>
      match transaction.perform (onBusiness edit) with
      | (.error error, after) => writes (next (.error error)) after
      | (.ok (), after) => .execute (onBusiness edit) :: writes (next (.ok ())) after
  | .execute edit next, transaction =>
      match transaction.perform edit with
      | (.error error, after) => writes (next (.error error)) after
      | (.ok (), after) => .execute edit :: writes (next (.ok ())) after
  | .rollBack next, transaction => writes next transaction.lapse
  | .look next, transaction => writes (next transaction.database) transaction

/-- What is left of a program when its transaction lapses, and the transaction then. -/
def lapse? : Program Business Error Value → Transaction Business →
    Option (Program Business Error Value × Transaction Business)
  | .done _, _ => none
  | .fail _, _ => none
  | .breakDown _, _ => none
  | .enqueue job next, transaction =>
      let (answer, after) := transaction.enqueue job
      if after.isOpen = transaction.isOpen then lapse? (next answer) after
      else some (next answer, after)
  | .enqueueAll jobs correlation next, transaction =>
      let (answer, after) := transaction.enqueueAll jobs correlation
      if after.isOpen = transaction.isOpen then lapse? (next answer) after
      else some (next answer, after)
  | .write edit next, transaction =>
      let (answer, after) := transaction.perform (onBusiness edit)
      lapse? (next answer) after
  | .execute edit next, transaction =>
      let (answer, after) := transaction.perform edit
      lapse? (next answer) after
  | .rollBack next, transaction =>
      if transaction.isOpen then some (next, transaction.lapse) else lapse? next transaction.lapse
  | .look next, transaction => lapse? (next transaction.database) transaction

theorem lapse?_of_lapsed (program : Program Business Error Value)
    {transaction : Transaction Business} (lapsed : transaction.isOpen = false) :
    program.lapse? transaction = none := by
  induction program generalizing transaction with
  | done value => rfl
  | fail error => rfl
  | breakDown breakdown => rfl
  | enqueue job next ih =>
      have still := (transaction.enqueue_steps job).isOpen lapsed
      simp only [lapse?, still, lapsed, if_true, ih _ still]
  | enqueueAll jobs correlation next ih =>
      have still := (transaction.enqueueAll_steps jobs correlation).isOpen lapsed
      simp only [lapse?, still, lapsed, if_true, ih _ still]
  | write edit next ih =>
      exact ih _ ((transaction.perform_steps (onBusiness edit)).isOpen lapsed)
  | execute edit next ih => exact ih _ ((transaction.perform_steps edit).isOpen lapsed)
  | rollBack next ih =>
      rw [lapse?, lapsed, if_neg Bool.false_ne_true]
      exact ih (transaction.lapse_steps.isOpen lapsed)
  | look next ih => exact ih _ lapsed

/-- After a lapse the rest of the program runs on the database as it was at first, and no other lapse
follows. -/
theorem run_of_lapse {program rest : Program Business Error Value}
    {transaction lapsed : Transaction Business}
    (lapses : program.lapse? transaction = some (rest, lapsed)) :
    program.run transaction = rest.run lapsed ∧ transaction.Lapses lapsed := by
  induction program generalizing transaction with
  | done value => cases lapses
  | fail error => cases lapses
  | breakDown breakdown => cases lapses
  | enqueue job next ih =>
      have steps := transaction.enqueue_steps job
      simp only [lapse?] at lapses
      split at lapses
      · obtain ⟨ran, later⟩ := ih _ lapses
        exact ⟨ran, steps.trans_lapses later⟩
      · next ends =>
          cases lapses
          exact ⟨rfl, steps.lapses ends⟩
  | enqueueAll jobs correlation next ih =>
      have steps := transaction.enqueueAll_steps jobs correlation
      simp only [lapse?] at lapses
      split at lapses
      · obtain ⟨ran, later⟩ := ih _ lapses
        exact ⟨ran, steps.trans_lapses later⟩
      · next ends =>
          cases lapses
          exact ⟨rfl, steps.lapses ends⟩
  | write edit next ih =>
      obtain ⟨ran, later⟩ := ih _ lapses
      exact ⟨ran, (transaction.perform_steps (onBusiness edit)).trans_lapses later⟩
  | execute edit next ih =>
      obtain ⟨ran, later⟩ := ih _ lapses
      exact ⟨ran, (transaction.perform_steps edit).trans_lapses later⟩
  | rollBack next ih =>
      rw [lapse?] at lapses
      split at lapses
      · next isOpen =>
          cases lapses
          exact ⟨rfl, Transaction.lapses_of_isOpen isOpen⟩
      · obtain ⟨ran, later⟩ := ih lapses
        exact ⟨ran, transaction.lapse_steps.trans_lapses later⟩
  | look next ih => exact ih _ lapses

/-- A transaction that does not lapse holds what its program wrote, and has noted each job that was
enqueued. -/
theorem run_eq_replay {program : Program Business Error Value} {transaction : Transaction Business}
    (stays : program.lapse? transaction = none) :
    (program.run transaction).2 = transaction.replay (program.writes transaction) := by
  induction program generalizing transaction with
  | done value => simp [run, writes]
  | fail error => simp [run, writes]
  | breakDown breakdown => simp [run, writes]
  | enqueue job next ih =>
      simp only [lapse?] at stays
      split at stays
      · next same =>
          rcases transaction.enqueue_cases job with
            ⟨receipt, jobs, _, _, answer⟩ | ⟨error, answer⟩ | ⟨lapses, answer⟩
          · have first := transaction.replay_append [.enqueue job]
            simp only [run, writes, answer] at stays ⊢
            rw [ih _ stays, ← first]
            rfl
          · simp only [run, writes, answer] at stays ⊢
            exact ih _ stays
          · rw [answer] at same
            cases lapses.isOpen.2.symm.trans (same.trans lapses.isOpen.1)
      · cases stays
  | enqueueAll jobs correlation next ih =>
      simp only [lapse?] at stays
      split at stays
      · next same =>
          rcases transaction.enqueueAll_cases jobs correlation with answer | lapses
          · simp only [run, writes, ih _ stays]
            rw [Transaction.replay_append, ← answer]
          · cases lapses.isOpen.2.symm.trans (same.trans lapses.isOpen.1)
      · cases stays
  | write edit next ih =>
      rcases transaction.perform_cases (onBusiness edit) with ⟨_, _, answer⟩ | ⟨error, answer⟩
      · have first := transaction.replay_append [.execute (onBusiness edit)]
        simp only [lapse?, run, writes, answer] at stays ⊢
        rw [ih _ stays, ← first]
        rfl
      · simp only [lapse?, run, writes, answer] at stays ⊢
        exact ih _ stays
  | execute edit next ih =>
      rcases transaction.perform_cases edit with ⟨_, _, answer⟩ | ⟨error, answer⟩
      · have first := transaction.replay_append [.execute edit]
        simp only [lapse?, run, writes, answer] at stays ⊢
        rw [ih _ stays, ← first]
        rfl
      · simp only [lapse?, run, writes, answer] at stays ⊢
        exact ih _ stays
  | rollBack next ih =>
      rw [lapse?] at stays
      split at stays
      · cases stays
      · next lapsed =>
          rw [Transaction.lapse_of_lapsed (by simpa using lapsed)] at stays
          rw [run, writes, Transaction.lapse_of_lapsed (by simpa using lapsed)]
          exact ih stays
  | look next ih => exact ih _ stays

/-- The requests of a program that succeed and are not taken back. -/
def lasting (program : Program Business Error Value) (transaction : Transaction Business) :
    List (Write Business) :=
  match program.lapse? transaction with
  | none => program.writes transaction
  | some (rest, lapsed) => rest.writes lapsed

/-- However it ends, a program leaves in its transaction what it wrote and was not taken back. -/
theorem database_run (program : Program Business Error Value) (registry : Registry) (now : Instant)
    (database : Database Business) :
    (program.run (Transaction.begin registry now database)).2.database =
      database.replay now (program.lasting (Transaction.begin registry now database)) := by
  unfold lasting
  cases lapses : program.lapse? (Transaction.begin registry now database) with
  | none => exact congrArg Transaction.database (run_eq_replay lapses)
  | some left =>
      obtain ⟨rest, lapsed⟩ := left
      obtain ⟨ran, saved, entries, isSaved, rfl⟩ := run_of_lapse lapses
      obtain rfl : database = saved := Option.some.inj isSaved
      rw [ran]
      exact congrArg Transaction.database (run_eq_replay (lapse?_of_lapsed rest rfl))

/-- The constraints that are checked at the end refuse what a program has written. -/
def IsRefused (program : Program Business Error Value) (registry : Registry) (now : Instant)
    (database : Database Business) : Prop :=
  ∃ left refusal,
    database.replay now (program.lasting (Transaction.begin registry now database)) = left ∧
    left.refusal? database.business left.business = some refusal

/-- Whether the transaction is still open when the program ends. -/
theorem isOpen_run (program : Program Business Error Value) (transaction : Transaction Business) :
    (program.run transaction).2.isOpen =
      (transaction.isOpen && (program.lapse? transaction).isNone) := by
  cases lapses : program.lapse? transaction with
  | none => simp [run_eq_replay lapses]
  | some left =>
      obtain ⟨rest, lapsed⟩ := left
      obtain ⟨ran, later⟩ := run_of_lapse lapses
      rw [ran, run_eq_replay (lapse?_of_lapsed rest later.isOpen.2)]
      simp [later.isOpen.2]

theorem now_run (program : Program Business Error Value) (transaction : Transaction Business) :
    (program.run transaction).2.now = transaction.now := by
  cases lapses : program.lapse? transaction with
  | none => rw [run_eq_replay lapses, Transaction.replay]
  | some left =>
      obtain ⟨rest, lapsed⟩ := left
      obtain ⟨ran, saved, entries, _, rfl⟩ := run_of_lapse lapses
      rw [ran, run_eq_replay (lapse?_of_lapsed rest rfl), Transaction.replay]

/-- The program touches the job table in no other way than by enqueuing jobs. -/
def LeavesJobs : Program Business Error Value → Prop
  | .done _ => True
  | .fail _ => True
  | .breakDown _ => True
  | .enqueue _ next => ∀ answer, (next answer).LeavesJobs
  | .enqueueAll _ _ next => ∀ answer, (next answer).LeavesJobs
  | .write _ next => ∀ answer, (next answer).LeavesJobs
  | .execute edit next =>
      (∀ database edited, edit database = .ok edited → edited.jobs = database.jobs) ∧
        ∀ answer, (next answer).LeavesJobs
  | .rollBack next => next.LeavesJobs
  | .look next => ∀ database, (next database).LeavesJobs

theorem LeavesJobs.of_lapse {program rest : Program Business Error Value}
    (leavesJobs : program.LeavesJobs) {transaction lapsed : Transaction Business}
    (lapses : program.lapse? transaction = some (rest, lapsed)) : rest.LeavesJobs := by
  induction program generalizing transaction with
  | done value => cases lapses
  | fail error => cases lapses
  | breakDown breakdown => cases lapses
  | enqueue job next ih =>
      simp only [lapse?] at lapses
      split at lapses
      · exact ih _ (leavesJobs _) lapses
      · cases lapses
        exact leavesJobs _
  | enqueueAll jobs correlation next ih =>
      simp only [lapse?] at lapses
      split at lapses
      · exact ih _ (leavesJobs _) lapses
      · cases lapses
        exact leavesJobs _
  | write edit next ih => exact ih _ (leavesJobs _) lapses
  | execute edit next ih => exact ih _ (leavesJobs.2 _) lapses
  | rollBack next ih =>
      rw [lapse?] at lapses
      split at lapses
      · cases lapses
        exact leavesJobs
      · exact ih leavesJobs lapses
  | look next ih => exact ih _ (leavesJobs _) lapses

end Program

end DurableJobs
