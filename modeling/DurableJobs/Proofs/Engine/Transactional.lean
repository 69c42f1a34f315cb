import DurableJobs.Engine.Basic
import DurableJobs.Proofs.Transaction.Writes

/-!
How the unit of a transactional execution ends.

What its program did is committed together with the settlement, or nothing of it stays. A transaction
that has lapsed is the exception: what its program did since then stays whatever becomes of the unit,
and nothing is told of it.
-/

set_option autoImplicit false

namespace DurableJobs

def Ending.jobError? {Value : Type} : Ending JobError Value → Option JobError
  | .done _ => none
  | .failed error => some error
  | .broken breakdown => some (.ofBreakdown breakdown)

namespace Engine

variable {Business : Type}

section

variable (database : Database Business) (registry : Registry) (policy : RetryPolicy)
  (record : Record) (program : Program Business JobError TransactionalOutcome) (draw : Nat)
  (now : Instant)

/-- What a unit tells, if it tells anything, and the database that it leaves. The writes are those of
its program that were not taken back. -/
inductive Concluded (writes : List (Write Business)) :
    Option (List Notice) → Database Business → Prop where
  -- The program is done: its writes are committed, and the outcome is settled on top of them.
  | done {result : TransactionalOutcome} {settlement : Settlement} {jobs : Store.Table}
      (ended : (program.run (Transaction.begin registry now database)).1 = .done result)
      (stays : program.lapse? (Transaction.begin registry now database) = none)
      (settled : (database.replay now writes).jobs.settleOutcome record result.outcome now =
        (.ok settlement, jobs))
      (accepted : (database.replay now writes).refusal? database.business
        (database.replay now writes).business = none) :
      Concluded writes
        (some
          [ .enqueued (database.enqueued now writes), .effects result.effects,
            .settled record settlement ])
        { database.replay now writes with jobs := jobs }
  -- The program failed or broke: nothing of it is left, and the failure is settled.
  | failed {error : JobError} {settlement : Settlement} {jobs : Store.Table}
      (ended : (program.run (Transaction.begin registry now database)).1.jobError? = some error)
      (stays : program.lapse? (Transaction.begin registry now database) = none)
      (settled : database.jobs.settleFailure record error policy draw now = (.ok settlement, jobs)) :
      Concluded writes (some [.settled record settlement]) { database with jobs := jobs }
  -- The store refuses to settle the outcome: nothing of the program is left.
  | outcomeRefused {result : TransactionalOutcome} {refusal : StoreError}
      (ended : (program.run (Transaction.begin registry now database)).1 = .done result)
      (stays : program.lapse? (Transaction.begin registry now database) = none)
      (refused : ((database.replay now writes).jobs.settleOutcome record result.outcome now).1 =
        .error refusal) :
      Concluded writes none database
  -- The commit is refused: nothing of the program is left.
  | commitRefused {result : TransactionalOutcome} {settlement : Settlement} {refusal : StoreError}
      (ended : (program.run (Transaction.begin registry now database)).1 = .done result)
      (stays : program.lapse? (Transaction.begin registry now database) = none)
      (settled : ((database.replay now writes).jobs.settleOutcome record result.outcome now).1 =
        .ok settlement)
      (refused : (database.replay now writes).refusal? database.business
        (database.replay now writes).business = some refusal) :
      Concluded writes none database
  -- The store refuses to settle the failure: nothing happens at all.
  | failureRefused {error : JobError} {refusal : StoreError}
      (ended : (program.run (Transaction.begin registry now database)).1.jobError? = some error)
      (stays : program.lapse? (Transaction.begin registry now database) = none)
      (refused : (database.jobs.settleFailure record error policy draw now).1 = .error refusal) :
      Concluded writes none database
  -- The transaction has lapsed, and the program is done: the outcome is settled, but nothing is told.
  | lapsedDone {result : TransactionalOutcome} {answer : Except StoreError Settlement}
      {jobs : Store.Table}
      (ended : (program.run (Transaction.begin registry now database)).1 = .done result)
      (lapses : program.lapse? (Transaction.begin registry now database) ≠ none)
      (settled : (database.replay now writes).jobs.settleOutcome record result.outcome now =
        (answer, jobs)) :
      Concluded writes none { database.replay now writes with jobs := jobs }
  -- The transaction has lapsed, and the program failed or broke: nothing is settled.
  | lapsedFailed {error : JobError}
      (ended : (program.run (Transaction.begin registry now database)).1.jobError? = some error)
      (lapses : program.lapse? (Transaction.begin registry now database) ≠ none) :
      Concluded writes none (database.replay now writes)

/-- The unit cannot be committed as a whole: its transaction lapses, or what the program has done is
refused. -/
def IsCutOff : Prop :=
  program.lapse? (Transaction.begin registry now database) ≠ none ∨
    (∃ result, (program.run (Transaction.begin registry now database)).1 = .done result) ∧
      program.IsRefused registry now database

theorem concludeFailure_of_stays {transaction : Transaction Business} (error : JobError)
    (saved : transaction.saved? = some database) (isNow : transaction.now = now) :
    (∃ settlement jobs,
        database.jobs.settleFailure record error policy draw now = (.ok settlement, jobs) ∧
        concludeFailure transaction policy record error draw =
          (some [.settled record settlement], { database with jobs := jobs })) ∨
      ∃ refusal, (database.jobs.settleFailure record error policy draw now).1 = .error refusal ∧
        concludeFailure transaction policy record error draw = (none, database) := by
  cases answer : database.jobs.settleFailure record error policy draw now with
  | mk settled jobs =>
      cases settled with
      | ok settlement =>
          refine .inl ⟨settlement, jobs, rfl, ?_⟩
          simp [concludeFailure, Transaction.rollBack, saved, isNow, answer]
      | error refusal =>
          refine .inr ⟨refusal, rfl, ?_⟩
          simp [concludeFailure, Transaction.rollBack, saved, isNow, answer]

theorem concludeFailure_of_lapsed {transaction : Transaction Business} (error : JobError)
    (lapsed : transaction.saved? = none) :
    concludeFailure transaction policy record error draw = (none, transaction.database) := by
  simp [concludeFailure, Transaction.rollBack, lapsed]

theorem concludeDone_of_lapsed {transaction : Transaction Business} (result : TransactionalOutcome)
    (lapsed : transaction.saved? = none) :
    concludeDone transaction record result =
      ( none,
        { transaction.database with
          jobs :=
            (transaction.database.jobs.settleOutcome record result.outcome transaction.now).2 } ) := by
  unfold concludeDone
  split <;> simp [Transaction.commit, Transaction.rollBack, Transaction.withJobs, *]

theorem concludeDone_of_stays {transaction : Transaction Business} (result : TransactionalOutcome)
    (saved : transaction.saved? = some database) :
    (∃ settlement jobs,
        transaction.database.jobs.settleOutcome record result.outcome transaction.now =
          (.ok settlement, jobs) ∧
        transaction.database.refusal? database.business transaction.database.business = none ∧
        concludeDone transaction record result =
          ( some
              [ .enqueued transaction.enqueued, .effects result.effects,
                .settled record settlement ],
            { transaction.database with jobs := jobs } )) ∨
      (∃ refusal,
        (transaction.database.jobs.settleOutcome record result.outcome transaction.now).1 =
          .error refusal ∧
        concludeDone transaction record result = (none, database)) ∨
      ∃ settlement refusal,
        (transaction.database.jobs.settleOutcome record result.outcome transaction.now).1 =
          .ok settlement ∧
        transaction.database.refusal? database.business transaction.database.business =
          some refusal ∧
        concludeDone transaction record result = (none, database) := by
  cases answer :
      transaction.database.jobs.settleOutcome record result.outcome transaction.now with
  | mk settled jobs =>
      cases settled with
      | error refusal =>
          refine .inr (.inl ⟨refusal, rfl, ?_⟩)
          simp [concludeDone, Transaction.rollBack, Transaction.withJobs, answer, saved]
      | ok settlement =>
          cases refused : transaction.database.refusal? database.business
              transaction.database.business with
          | none =>
              refine .inl ⟨settlement, jobs, rfl, rfl, ?_⟩
              simp [concludeDone, Transaction.commit, Transaction.withJobs, answer, saved, refused]
          | some refusal =>
              refine .inr (.inr ⟨settlement, refusal, rfl, rfl, ?_⟩)
              simp [concludeDone, Transaction.commit, Transaction.withJobs, answer, saved, refused]

theorem runTransactional_eq_of_jobError {error : JobError}
    (ended : (program.run (Transaction.begin registry now database)).1.jobError? = some error) :
    runTransactional database registry policy record program draw now =
      concludeFailure (program.run (Transaction.begin registry now database)).2 policy record error
        draw := by
  cases ran : program.run (Transaction.begin registry now database) with
  | mk ending transaction =>
      rw [ran] at ended
      cases ending with
      | done result => cases ended
      | failed cause =>
          cases ended
          simp only [runTransactional, ran]
      | broken breakdown =>
          cases ended
          simp only [runTransactional, ran]

theorem runTransactional_concluded :
    ∃ notices? after,
      runTransactional database registry policy record program draw now = (notices?, after) ∧
      Concluded database registry policy record program draw now
        (program.lasting (Transaction.begin registry now database)) notices? after := by
  have isNow := program.now_run (Transaction.begin registry now database)
  have left := program.database_run registry now database
  have isOpen := program.isOpen_run (Transaction.begin registry now database)
  cases isError : (program.run (Transaction.begin registry now database)).1.jobError? with
  | some error =>
      rw [runTransactional_eq_of_jobError database registry policy record program draw now isError]
      cases lapses : program.lapse? (Transaction.begin registry now database) with
      | none =>
          have saved : (program.run (Transaction.begin registry now database)).2.saved? =
              some database := by
            rw [Program.run_eq_replay lapses]
            rfl
          rcases concludeFailure_of_stays database policy record draw now error saved isNow with
            ⟨settlement, jobs, answer, done⟩ | ⟨refusal, answer, done⟩
          · exact ⟨_, _, done, .failed isError lapses answer⟩
          · exact ⟨_, _, done, .failureRefused isError lapses answer⟩
      | some rest =>
          have lapsed : (program.run (Transaction.begin registry now database)).2.saved? = none := by
            simpa [lapses, Transaction.isOpen] using isOpen
          refine ⟨_, _, concludeFailure_of_lapsed policy record draw error lapsed, ?_⟩
          rw [left]
          exact .lapsedFailed isError (by simp [lapses])
  | none =>
      cases ran : program.run (Transaction.begin registry now database) with
      | mk ending transaction =>
          rw [ran] at isError isNow left isOpen
          obtain ⟨result, rfl⟩ : ∃ result, ending = .done result := by
            cases ending with
            | done result => exact ⟨result, rfl⟩
            | failed error => cases isError
            | broken breakdown => cases isError
          have ended := congrArg Prod.fst ran
          have concludes :
              runTransactional database registry policy record program draw now =
                concludeDone transaction record result := by
            simp only [runTransactional, ran]
          rw [concludes]
          cases lapses : program.lapse? (Transaction.begin registry now database) with
          | some rest =>
              have lapsed : transaction.saved? = none := by
                simpa [lapses, Transaction.isOpen] using isOpen
              refine ⟨_, _, concludeDone_of_lapsed record result lapsed, ?_⟩
              rw [left, isNow]
              exact .lapsedDone ended (by simp [lapses]) rfl
          | none =>
              have replayed := Program.run_eq_replay lapses
              rw [ran] at replayed
              subst replayed
              have same : program.lasting (Transaction.begin registry now database) =
                  program.writes (Transaction.begin registry now database) := by
                simp [Program.lasting, lapses]
              rw [same]
              have saved : ((Transaction.begin registry now database).replay
                  (program.writes (Transaction.begin registry now database))).saved? =
                  some database := rfl
              rcases concludeDone_of_stays database record result saved with
                ⟨settlement, jobs, answer, accepted, done⟩ | ⟨refusal, answer, done⟩ |
                  ⟨settlement, refusal, answer, refused, done⟩
              · exact ⟨_, _, done, .done ended lapses answer accepted⟩
              · exact ⟨_, _, done, .outcomeRefused ended lapses answer⟩
              · exact ⟨_, _, done, .commitRefused ended lapses answer refused⟩

end

end Engine

end DurableJobs
