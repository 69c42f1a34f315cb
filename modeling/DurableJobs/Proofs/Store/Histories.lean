import DurableJobs.Proofs.Store.Operations

/-!
Histories of the job table: any operations, in any order, from the empty table on.

Every table of a history keeps the rules, so no operation in it is ever refused for an id or a key
that is taken.
-/

set_option autoImplicit false

namespace DurableJobs.Store

inductive Operation where
  | enqueue (job : Job) (now : Instant)
  | enqueueAll (jobs : List Job) (correlation : Uuid) (now : Instant)
  | claim (id : Int) (now : Instant)
  | complete (id : Int)
  | reschedule (id : Int) (notBefore : Instant) (failure : Option Failure) (now : Instant)
  | markFailed (id : Int) (failures : Nat) (error : String) (now : Instant)
  | cancel (id : Int)
  | requeue (id : Int) (now : Instant)
  | settle (record : Record) (result : Except JobError Outcome) (policy : RetryPolicy) (draw : Nat)
      (now : Instant)
  | recover (recovery : Recovery) (policy : RetryPolicy) (draw : Nat) (now : Instant)

/-- The operations that place jobs in rows. -/
def Operation.isEnqueuing : Operation → Bool
  | .enqueue _ _ => true
  | .enqueueAll _ _ _ => true
  | _ => false

inductive Reply where
  | enqueued (receipts : List Receipt)
  | claimed (record : Option Record)
  | found (isFound : Bool)
  | canceled (jobType : Option String)
  | rescheduled (records : List (Int × Rescheduled))
  | settled (id : Int) (settlement : Settlement)

/-- The records that a call was to make pending again, and what it says became of them. -/
def Reply.rescheduledRecords : Reply → List (Int × Rescheduled)
  | .rescheduled records => records
  | .settled id (.retrying notBefore _) => [(id, .pending notBefore)]
  | .settled id (.superseded survivor) => [(id, .superseded survivor)]
  | _ => []

def Answer.map {Value Result : Type} (convert : Value → Result) (answer : Answer Value) :
    Answer Result :=
  (answer.1.map convert, answer.2)

inductive Verdict where
  | remove
  | comeBack (notBefore : Instant) (failure : Option Failure)
  | giveUp (failure : Failure)

/-- The verdict on an execution of a record, which rests on nothing but the record as it was when it
was claimed. -/
def Verdict.of (record : Record) (result : Except JobError Outcome) (policy : RetryPolicy)
    (draw : Nat) (now : Instant) : Verdict :=
  match result with
  | .ok .success => .remove
  | .ok (.retryAfter delay) => .comeBack (now.after delay) none
  | .error error =>
      let failure : Failure := ⟨record.nextFailures, error.message⟩
      if policy.isExhausted record.nextFailures then .giveUp failure
      else .comeBack (now.after (policy.backoff.delayFor record.nextFailures draw)) (some failure)

namespace Table

def perform (table : Table) : Operation → Answer Reply
  | .enqueue job now => (table.enqueue job now).map fun receipt => .enqueued [receipt]
  | .enqueueAll jobs correlation now => (table.enqueueAll jobs correlation now).map .enqueued
  | .claim id now => (table.claim id now).map .claimed
  | .complete id => (table.complete id).map .found
  | .reschedule id notBefore failure now =>
      (table.reschedule id notBefore failure now).map fun answer => .rescheduled [(id, answer)]
  | .markFailed id failures error now => (table.markFailed id failures error now).map .found
  | .cancel id => (table.cancel id).map .canceled
  | .requeue id now => (table.requeue id now).map fun answer => .rescheduled [(id, answer)]
  | .settle record result policy draw now =>
      (table.settle record result policy draw now).map (.settled record.id)
  | .recover recovery policy draw now => (table.recover recovery policy draw now).map .rescheduled

inductive Reachable : Table → Prop where
  | empty : Reachable Table.empty
  | perform {table : Table} (reachable : Reachable table) (operation : Operation) :
      Reachable (table.perform operation).2

abbrev Reaches : Table → Table → Prop := Relation.ReflTransGen Transition

theorem Reaches.consistent {before after : Table} (reaches : Reaches before after)
    (consistent : before.Consistent) : after.Consistent := by
  induction reaches with
  | refl => exact consistent
  | tail _ transition ih => exact transition.consistent ih

namespace Consistent

variable {table : Table} (consistent : table.Consistent)

include consistent

theorem settle_cases (record : Record) (result : Except JobError Outcome) (policy : RetryPolicy)
    (draw : Nat) (now : Instant) :
    (table.find? record.id = none ∧
        table.settle record result policy draw now = (.ok .missing, table)) ∨
      ∃ row, table.find? record.id = some row ∧
        match Verdict.of record result policy draw now with
        | .remove =>
            table.settle record result policy draw now = (.ok .completed, table.erase record.id)
        | .giveUp failure =>
            table.settle record result policy draw now =
              ( .ok (.deadLettered failure.error),
                table.put (row.fail failure.failures failure.error now) )
        | .comeBack notBefore failure =>
            match table.survivor? row with
            | some survivor =>
                table.settle record result policy draw now =
                  (.ok (.superseded survivor.id), table.erase record.id)
            | none =>
                table.settle record result policy draw now =
                  ( .ok (.retrying notBefore (failure.map Failure.error)),
                    table.put (row.comeBack notBefore failure now) ) := by
  rcases result with error | outcome
  · by_cases exhausted : policy.isExhausted record.nextFailures = true
    · rcases consistent.markFailed_cases record.id record.nextFailures error.message now with
        ⟨missing, answer⟩ | ⟨row, found, answer⟩
      · exact .inl ⟨missing, by simp [settle, settleFailure, exhausted, answer]⟩
      · exact .inr ⟨row, found, by simp [Verdict.of, settle, settleFailure, exhausted, answer]⟩
    · rcases consistent.reschedule_cases record.id
          (now.after (policy.backoff.delayFor record.nextFailures draw))
          (some ⟨record.nextFailures, error.message⟩) now with
        ⟨missing, answer⟩ | ⟨row, survivor, found, held, answer⟩ | ⟨row, found, free, answer⟩
      · exact .inl ⟨missing, by
          simp [settle, settleFailure, exhausted, answer, Settlement.ofRescheduled]⟩
      · exact .inr ⟨row, found, by
          simp [Verdict.of, settle, settleFailure, exhausted, answer, Settlement.ofRescheduled,
            held]⟩
      · exact .inr ⟨row, found, by
          simp [Verdict.of, settle, settleFailure, exhausted, answer, Settlement.ofRescheduled,
            free]⟩
  · cases outcome with
    | success =>
        rcases consistent.complete_cases record.id with ⟨missing, answer⟩ | ⟨row, found, answer⟩
        · exact .inl ⟨missing, by simp [settle, settleOutcome, answer]⟩
        · exact .inr ⟨row, found, by simp [Verdict.of, settle, settleOutcome, answer]⟩
    | retryAfter delay =>
        rcases consistent.reschedule_cases record.id (now.after delay) none now with
          ⟨missing, answer⟩ | ⟨row, survivor, found, held, answer⟩ | ⟨row, found, free, answer⟩
        · exact .inl ⟨missing, by simp [settle, settleOutcome, answer, Settlement.ofRescheduled]⟩
        · exact .inr ⟨row, found, by
            simp [Verdict.of, settle, settleOutcome, answer, Settlement.ofRescheduled, held]⟩
        · exact .inr ⟨row, found, by
            simp [Verdict.of, settle, settleOutcome, answer, Settlement.ofRescheduled, free]⟩

end Consistent

/-! ### Rescheduling many records -/

/-- The records of a list, none of them pending, are rescheduled in order: each comes back or gives
way to a row that is still pending in the end, and no other row changes. -/
structure RescheduledAll (table : Table) (ids : List Int) (notBefore now : Instant)
    (replies : List (Int × Rescheduled)) (after : Table) : Prop where
  ids_eq : replies.map Prod.fst = ids
  reaches : Reaches table after
  unchanged : ∀ id, id ∉ ids → after.find? id = table.find? id
  pending : ∀ id time, (id, .pending time) ∈ replies →
    time = notBefore ∧ ∃ row, table.find? id = some row ∧
      after.find? id = some (row.reschedule notBefore now)
  superseded : ∀ id survivor, (id, .superseded survivor) ∈ replies →
    after.find? id = none ∧ ∃ row holder key, table.find? id = some row ∧
      row.debounceKey = .text key ∧ after.find? survivor = some holder ∧
      holder.state = .pending ∧ holder.debounceKey = .text key
  missing : ∀ id, (id, .missing) ∈ replies → table.find? id = none

theorem RescheduledAll.cons {table middle after : Table} {id : Int} {ids : List Int}
    {notBefore now : Instant} {replies : List (Int × Rescheduled)} {reply : Rescheduled}
    (rest : RescheduledAll middle ids notBefore now replies after) (fresh : id ∉ ids)
    (reaches : Reaches table middle) (same : ∀ other, other ≠ id → middle.find? other = table.find? other)
    (pending : ∀ time, reply = .pending time → time = notBefore ∧ ∃ row,
      table.find? id = some row ∧ middle.find? id = some (row.reschedule notBefore now))
    (superseded : ∀ survivor, reply = .superseded survivor → middle.find? id = none ∧
      ∃ row holder key, table.find? id = some row ∧ row.debounceKey = .text key ∧
        survivor ∉ ids ∧ middle.find? survivor = some holder ∧ holder.state = .pending ∧
        holder.debounceKey = .text key)
    (missing : reply = .missing → table.find? id = none) :
    RescheduledAll table (id :: ids) notBefore now ((id, reply) :: replies) after where
  ids_eq := by rw [List.map_cons, rest.ids_eq]
  reaches := reaches.trans rest.reaches
  unchanged := by
    intro other absent
    rw [rest.unchanged other fun member => absent (List.mem_cons_of_mem _ member),
      same other fun isFirst => absent (isFirst ▸ List.mem_cons_self)]
  pending := by
    intro other time member
    rcases List.mem_cons.mp member with first | later
    · obtain ⟨rfl, isReply⟩ := Prod.mk.inj first
      obtain ⟨isTime, row, found, moved⟩ := pending time isReply.symm
      exact ⟨isTime, row, found, (rest.unchanged _ fresh).trans moved⟩
    · have listed : other ∈ ids := rest.ids_eq ▸ List.mem_map_of_mem later
      obtain ⟨isTime, row, found, moved⟩ := rest.pending other time later
      exact ⟨isTime, row, same other (fun isFirst => fresh (isFirst ▸ listed)) ▸ found, moved⟩
  superseded := by
    intro other survivor member
    rcases List.mem_cons.mp member with first | later
    · obtain ⟨rfl, isReply⟩ := Prod.mk.inj first
      obtain ⟨gone, row, holder, key, found, isKey, unlisted, held, pendingHolder, sameKey⟩ :=
        superseded survivor isReply.symm
      exact ⟨(rest.unchanged _ fresh).trans gone, row, holder, key, found, isKey,
        (rest.unchanged _ unlisted).trans held, pendingHolder, sameKey⟩
    · have listed : other ∈ ids := rest.ids_eq ▸ List.mem_map_of_mem later
      obtain ⟨gone, row, holder, key, found, others⟩ := rest.superseded other survivor later
      exact ⟨gone, row, holder, key,
        same other (fun isFirst => fresh (isFirst ▸ listed)) ▸ found, others⟩
  missing := by
    intro other member
    rcases List.mem_cons.mp member with first | later
    · obtain ⟨rfl, isReply⟩ := Prod.mk.inj first
      exact missing isReply.symm
    · have listed : other ∈ ids := rest.ids_eq ▸ List.mem_map_of_mem later
      exact same other (fun isFirst => fresh (isFirst ▸ listed)) ▸ rest.missing other later

theorem Consistent.rescheduleAll_spec {table : Table} (consistent : table.Consistent)
    (ids : List Int) (notBefore now : Instant) (nodup : ids.Nodup)
    (waiting : ∀ id ∈ ids, ∀ row, table.find? id = some row → row.state ≠ .pending) :
    ∃ replies after, table.rescheduleAll ids notBefore now = (.ok replies, after) ∧
      RescheduledAll table ids notBefore now replies after := by
  induction ids generalizing table with
  | nil =>
      exact ⟨[], table, rfl, rfl, .refl, fun _ _ => rfl, by simp, by simp, by simp⟩
  | cons id rest ih =>
      obtain ⟨fresh, restNodup⟩ := List.nodup_cons.mp nodup
      have restWaiting : ∀ {middle : Table},
          (∀ other, other ≠ id → middle.find? other = table.find? other) →
          ∀ other ∈ rest, ∀ row, middle.find? other = some row → row.state ≠ .pending := by
        intro middle same other member row found
        rw [same other fun isFirst => fresh (isFirst ▸ member)] at found
        exact waiting other (List.mem_cons_of_mem _ member) row found
      rcases consistent.reschedule_cases id notBefore none now with
        ⟨absent, answer⟩ | ⟨row, survivor, found, held, answer⟩ | ⟨row, found, free, answer⟩
      · obtain ⟨replies, after, walked, spec⟩ :=
          ih consistent restNodup (restWaiting fun _ _ => rfl)
        refine ⟨(id, .missing) :: replies, after, by simp [rescheduleAll, answer, walked], ?_⟩
        exact spec.cons fresh .refl (fun _ _ => rfl) (by simp) (by simp) fun _ => absent
      · have here := id_of_find? found
        have same : ∀ other, other ≠ id → (table.erase id).find? other = table.find? other := by
          intro other different
          simp [find?_erase, different]
        have step : Transition table (table.erase id) :=
          here ▸ .superseded (mem_of_find? found) held
        obtain ⟨key, isKey, member, pending, sameKey, different⟩ := of_survivor? held
        -- The survivor is pending, and nothing that is still to be rescheduled is.
        have unlisted : survivor.id ∉ rest := fun listed =>
          waiting survivor.id (List.mem_cons_of_mem _ listed) survivor
            (consistent.find?_of_mem member) pending
        obtain ⟨replies, after, walked, spec⟩ :=
          ih (step.consistent consistent) restNodup (restWaiting same)
        refine ⟨(id, .superseded survivor.id) :: replies, after,
          by simp [rescheduleAll, answer, walked], ?_⟩
        refine spec.cons fresh (.single step) same (by simp) ?_ (by simp)
        rintro _ ⟨rfl⟩
        refine ⟨by simp [find?_erase], row, survivor, key, found, isKey, unlisted, ?_, pending,
          sameKey⟩
        rw [same survivor.id (here ▸ different), consistent.find?_of_mem member]
      · have here := id_of_find? found
        have same : ∀ other, other ≠ id →
            (table.put (row.comeBack notBefore none now)).find? other = table.find? other := by
          intro other different
          simp [find?_put, here, different]
        have step : Transition table (table.put (row.comeBack notBefore none now)) :=
          .rescheduled notBefore none now (mem_of_find? found) free
        obtain ⟨replies, after, walked, spec⟩ :=
          ih (step.consistent consistent) restNodup (restWaiting same)
        refine ⟨(id, .pending notBefore) :: replies, after,
          by simp [rescheduleAll, answer, walked], ?_⟩
        refine spec.cons fresh (.single step) same ?_ (by simp) (by simp)
        rintro _ ⟨rfl⟩
        refine ⟨rfl, row, found, ?_⟩
        rw [find?_put, Row.id_comeBack, if_pos here.symm, found]
        rfl

theorem mem_runningIds {table : Table} {id : Int} :
    id ∈ table.runningIds ↔ ∃ row ∈ table.rows, row.state = .running ∧ row.id = id := by
  simp [runningIds, and_assoc]

def recoveryTime (recovery : Recovery) (policy : RetryPolicy) (draw : Nat) (now : Instant) :
    Instant :=
  match recovery with
  | .immediately => now
  | .withBackoff => now.after (policy.backoff.delayFor 1 draw)

theorem Consistent.recover_spec {table : Table} (consistent : table.Consistent)
    (recovery : Recovery) (policy : RetryPolicy) (draw : Nat) (now : Instant) :
    ∃ replies after, table.recover recovery policy draw now = (.ok replies, after) ∧
      RescheduledAll table table.runningIds (recoveryTime recovery policy draw now) now replies
        after := by
  have nodup : table.runningIds.Nodup :=
    List.pairwise_map.mpr ((consistent.sorted.filter _).imp fun less => Int.ne_of_lt less)
  have waiting : ∀ id ∈ table.runningIds, ∀ row, table.find? id = some row →
      row.state ≠ .pending := by
    intro id member row found
    obtain ⟨other, otherMember, running, same⟩ := mem_runningIds.mp member
    rw [consistent.eq_of_id_eq (mem_of_find? found) otherMember
      ((id_of_find? found).trans same.symm), running]
    simp
  exact consistent.rescheduleAll_spec table.runningIds _ now nodup waiting

/-! ### Histories -/

theorem Consistent.enqueue_reaches {table : Table} (consistent : table.Consistent) (job : Job)
    (now : Instant) : Reaches table (table.enqueue job now).2 := by
  rcases consistent.enqueue_cases job now with
    ⟨row, held, answer⟩ | ⟨id, free, next, answer⟩ | ⟨_, _, answer⟩
  · exact answer ▸ .single (.coalesced now held)
  · exact answer ▸ .single (.inserted now free next)
  · exact answer ▸ .refl

theorem Consistent.enqueueAll_reaches {table : Table} (consistent : table.Consistent)
    (jobs : List Job) (correlation : Uuid) (now : Instant) :
    Reaches table (table.enqueueAll jobs correlation now).2 := by
  induction jobs generalizing table with
  | nil => exact .refl
  | cons job rest ih =>
      have first := consistent.enqueue_reaches (job.withCorrelationId correlation) now
      rw [enqueueAll]
      cases answer : table.enqueue (job.withCorrelationId correlation) now with
      | mk result after =>
          rw [answer] at first
          cases result with
          | error error => exact first
          | ok receipt =>
              have both := first.trans (ih (first.consistent consistent))
              cases others : after.enqueueAll rest correlation now with
              | mk result final =>
                  rw [others] at both
                  cases result <;> simpa [others] using both

theorem Consistent.settle_reaches {table : Table} (consistent : table.Consistent)
    (record : Record) (result : Except JobError Outcome) (policy : RetryPolicy) (draw : Nat)
    (now : Instant) : Reaches table (table.settle record result policy draw now).2 := by
  rcases consistent.settle_cases record result policy draw now with
    ⟨_, answer⟩ | ⟨row, found, answer⟩
  · exact answer ▸ .refl
  · have member := mem_of_find? found
    have here := id_of_find? found
    cases verdict : Verdict.of record result policy draw now with
    | remove =>
        simp only [verdict] at answer
        exact answer ▸ here ▸ .single (.completed member)
    | giveUp failure =>
        simp only [verdict] at answer
        exact answer ▸ .single (.gaveUp _ _ _ member)
    | comeBack notBefore failure =>
        cases held : table.survivor? row with
        | some survivor =>
            simp only [verdict, held] at answer
            exact answer ▸ here ▸ .single (.superseded member held)
        | none =>
            simp only [verdict, held] at answer
            exact answer ▸ .single (.rescheduled _ _ _ member held)

theorem Consistent.settle_succeeds {table : Table} (consistent : table.Consistent)
    (record : Record) (result : Except JobError Outcome) (policy : RetryPolicy) (draw : Nat)
    (now : Instant) :
    ∃ settlement, (table.settle record result policy draw now).1 = .ok settlement := by
  rcases consistent.settle_cases record result policy draw now with
    ⟨_, answer⟩ | ⟨row, _, answer⟩
  · exact ⟨_, congrArg Prod.fst answer⟩
  · revert answer
    cases Verdict.of record result policy draw now with
    | remove => exact fun answer => ⟨_, congrArg Prod.fst answer⟩
    | giveUp failure => exact fun answer => ⟨_, congrArg Prod.fst answer⟩
    | comeBack notBefore failure =>
        cases held : table.survivor? row <;>
          exact fun answer => ⟨_, congrArg Prod.fst (by simpa only [held] using answer)⟩

theorem Consistent.perform_reaches {table : Table} (consistent : table.Consistent)
    (operation : Operation) : Reaches table (table.perform operation).2 := by
  cases operation with
  | enqueue job now => exact consistent.enqueue_reaches job now
  | enqueueAll jobs correlation now => exact consistent.enqueueAll_reaches jobs correlation now
  | claim id now =>
      show Reaches table (table.claim id now).2
      rcases consistent.claim_cases id now with ⟨_, answer⟩ | ⟨row, found, pending, answer⟩
      · exact answer ▸ .refl
      · exact answer ▸ .single (.claimed now (mem_of_find? found) pending)
  | complete id =>
      show Reaches table (table.complete id).2
      rcases consistent.complete_cases id with ⟨_, answer⟩ | ⟨row, found, answer⟩
      · exact answer ▸ .refl
      · exact answer ▸ id_of_find? found ▸ .single (.completed (mem_of_find? found))
  | reschedule id notBefore failure now =>
      show Reaches table (table.reschedule id notBefore failure now).2
      rcases consistent.reschedule_cases id notBefore failure now with
        ⟨_, answer⟩ | ⟨row, survivor, found, held, answer⟩ | ⟨row, found, free, answer⟩
      · exact answer ▸ .refl
      · exact answer ▸ id_of_find? found ▸ .single (.superseded (mem_of_find? found) held)
      · exact answer ▸ .single (.rescheduled notBefore failure now (mem_of_find? found) free)
  | markFailed id failures error now =>
      show Reaches table (table.markFailed id failures error now).2
      rcases consistent.markFailed_cases id failures error now with
        ⟨_, answer⟩ | ⟨row, found, answer⟩
      · exact answer ▸ .refl
      · exact answer ▸ .single (.gaveUp failures error now (mem_of_find? found))
  | cancel id =>
      show Reaches table (table.cancel id).2
      rcases consistent.cancel_cases id with ⟨_, answer⟩ | ⟨row, found, pending, answer⟩
      · exact answer ▸ .refl
      · exact answer ▸ id_of_find? found ▸ .single (.canceled (mem_of_find? found) pending)
  | requeue id now =>
      show Reaches table (table.requeue id now).2
      rcases consistent.requeue_cases id now with
        ⟨_, answer⟩ | ⟨row, survivor, found, failed, held, answer⟩ |
          ⟨row, found, failed, free, answer⟩
      · exact answer ▸ .refl
      · exact answer ▸ id_of_find? found ▸ .single (.superseded (mem_of_find? found) held)
      · exact answer ▸ .single (.requeued now (mem_of_find? found) failed free)
  | settle record result policy draw now =>
      exact consistent.settle_reaches record result policy draw now
  | recover recovery policy draw now =>
      show Reaches table (table.recover recovery policy draw now).2
      obtain ⟨replies, after, answer, spec⟩ := consistent.recover_spec recovery policy draw now
      exact answer ▸ spec.reaches

theorem Reachable.consistent {table : Table} (reachable : Reachable table) : table.Consistent := by
  induction reachable with
  | empty => exact consistent_empty
  | perform _ operation ih => exact (ih.perform_reaches operation).consistent ih

end Table

end DurableJobs.Store
