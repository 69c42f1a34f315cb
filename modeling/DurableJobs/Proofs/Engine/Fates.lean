import DurableJobs.Proofs.Engine.Works

/-!
What a move makes of a record.

For each id, whatever the move does: the row stays as it is, or one of a few things happens to it.
Along with it goes what the move means for the failures of the record: it adds one, or they count from
zero again.
-/

set_option autoImplicit false

namespace DurableJobs

namespace Store.Rescheduled

def isPending : Rescheduled → Bool
  | .pending _ => true
  | _ => false

end Store.Rescheduled

/-- What something means for how often the execution of a record has failed since its counts were
last reset. -/
inductive Reckoning where
  | kept
  | raised
  | cleared
deriving DecidableEq

def Reckoning.apply : Reckoning → Nat → Nat
  | .kept, count => count
  | .raised, count => count + 1
  | .cleared, _ => 0

namespace Engine

variable {Business : Type}

section Reckonings

variable (engine : Engine Business) (move : Move Business)

/-- The record whose execution failed, if the move settles one that did. -/
def failure? : Option Record :=
  match engine.settlement? move with
  | some (record, .error _) => some record
  | _ => none

/-- The ids of the records that wait for their first execution again, or for the first time. -/
def renewed : List Int :=
  (engine.entered move).map (fun job => job.receipt.id) ++
    ((engine.requeued move).filter fun entry => entry.2.isPending).map Prod.fst

def reckoning (id : Int) : Reckoning :=
  if (engine.failure? move).map Record.id = some id then .raised
  else if id ∈ engine.renewed move then .cleared
  else .kept

end Reckonings

/-- What a move makes of the row with an id, and what that means for its failures. -/
inductive Fate (engine : Engine Business) (move : Move Business) (after : Store.Table) (id : Int) :
    Option Store.Row → Option Store.Row → Reckoning → Prop where
  | untouched {row? : Option Store.Row} : Fate engine move after id row? row? .kept
  | enqueued {row? : Option Store.Row} {row : Store.Row}
      (inserted : row? = none →
        id ∈ Store.newIds ((engine.entered move).map Enqueued.receipt))
      (resting : ∀ old, row? = some old → old.state = .pending) (untried : row.IsUntried) :
      Fate engine move after id row? (some row) .cleared
  | claimed {row : Store.Row} {record : Record} {now : Instant} (pending : row.state = .pending)
      (isRecord : (row.claim now).record = .ok record) :
      Fate engine move after id (some row) (some (row.claim now)) .kept
  | gaveUp {row : Store.Row} {record : Record} {now : Instant} (pending : row.state = .pending)
      (isRecord : row.record = .ok record) (member : record ∈ engine.givenUp move) :
      Fate engine move after id (some row)
        (some (row.fail record.nextFailures (unknownTypeMessage record.jobType) now)) .kept
  | canceled {row : Store.Row} (isMove : move = .cancel id) (pending : row.state = .pending) :
      Fate engine move after id (some row) none .kept
  | completed {row : Store.Row} {record : Record}
      (settles : engine.settlement? move = some (record, .ok .success)) (here : record.id = id)
      (running : row.state = .running) : Fate engine move after id (some row) none .kept
  -- A record that was to be pending again gave way to a pending one with its key.
  | superseded {row survivor : Store.Row} {key : String} {reckoning : Reckoning}
      (leaves : row.state = .running ∨ row.state = .failed ∧ ∃ now, move = .requeue id now)
      (isKey : row.debounceKey = .text key) (held : after.find? survivor.id = some survivor)
      (pending : survivor.state = .pending) (sameKey : survivor.debounceKey = .text key)
      (reckons : reckoning = .kept ∨ reckoning = .raised ∧ ∃ record error,
        engine.settlement? move = some (record, .error error) ∧ row.record = .ok record ∧
          engine.config.retry.isExhausted record.nextFailures = false) :
      Fate engine move after id (some row) none reckoning
  | cameBack {row : Store.Row} {notBefore now : Instant} (running : row.state = .running) :
      Fate engine move after id (some row) (some (row.comeBack notBefore none now)) .kept
  | failed {row : Store.Row} {record : Record} {error : JobError} {notBefore now : Instant}
      (settles : engine.settlement? move = some (record, .error error))
      (running : row.state = .running) (isRecord : row.record = .ok record)
      (spared : engine.config.retry.isExhausted record.nextFailures = false) :
      Fate engine move after id (some row)
        (some (row.comeBack notBefore (some ⟨record.nextFailures, error.message⟩) now)) .raised
  | deadLettered {row : Store.Row} {record : Record} {error : JobError} {now : Instant}
      (settles : engine.settlement? move = some (record, .error error))
      (running : row.state = .running) (isRecord : row.record = .ok record)
      (exhausted : engine.config.retry.isExhausted record.nextFailures = true) :
      Fate engine move after id (some row)
        (some (row.fail record.nextFailures error.message now)) .raised
  | requeued {row : Store.Row} {now : Instant} (isMove : move = .requeue id now)
      (failed : row.state = .failed) :
      Fate engine move after id (some row) (some (row.requeue now)) .cleared

section Fates

variable {engine : Engine Business} {move : Move Business} {after : Store.Table} {id : Int}

theorem reckoning_of_ne (failure : ∀ record, engine.failure? move = some record → record.id ≠ id)
    (renewed : id ∉ engine.renewed move) : engine.reckoning move id = .kept := by
  unfold reckoning
  rw [if_neg, if_neg renewed]
  intro isId
  obtain ⟨record, isFailure, same⟩ := Option.map_eq_some_iff.mp isId
  exact failure record isFailure same

theorem reckoning_of_renewed
    (failure : ∀ record, engine.failure? move = some record → record.id ≠ id)
    (renewed : id ∈ engine.renewed move) : engine.reckoning move id = .cleared := by
  unfold reckoning
  rw [if_neg, if_pos renewed]
  intro isId
  obtain ⟨record, isFailure, same⟩ := Option.map_eq_some_iff.mp isId
  exact failure record isFailure same

theorem reckoning_of_failure {record : Record} {error : JobError}
    (settles : engine.settlement? move = some (record, .error error)) :
    engine.reckoning move record.id = .raised := by
  simp [reckoning, failure?, settles]

theorem renewed_of_entered (requeued : engine.requeued move = []) :
    engine.renewed move = (engine.entered move).map fun job => job.receipt.id := by
  simp [renewed, requeued]

theorem fate_of_renewed {middle : Store.Table}
    (isRenewed : Store.Table.Renewed engine.database.jobs
      ((engine.entered move).map Enqueued.receipt) middle)
    (requeued : engine.requeued move = [])
    (failure : ∀ record, engine.failure? move = some record → record.id ≠ id) :
    Fate engine move after id (engine.database.jobs.find? id) (middle.find? id)
      (engine.reckoning move id) := by
  have ids : engine.renewed move =
      ((engine.entered move).map Enqueued.receipt).map Store.Receipt.id := by
    rw [renewed_of_entered requeued, List.map_map]
    rfl
  by_cases member : id ∈ engine.renewed move
  · have listed := ids ▸ member
    obtain ⟨row, found, untried⟩ := isRenewed.untried id listed
    rw [found, reckoning_of_renewed failure member]
    exact .enqueued (isRenewed.inserted id listed) (isRenewed.resting id listed) untried
  · rw [isRenewed.unchanged id (ids ▸ member), reckoning_of_ne failure member]
    exact .untouched

/-- The settlement of a running record decides what becomes of its row. -/
theorem fate_of_settled {middle : Store.Table} (consistent : middle.Consistent) {record : Record}
    {result : Except JobError Outcome} {settlement : Settlement} {draw : Nat} {now : Instant}
    (settles : engine.settlement? move = some (record, result)) (running : middle.IsRunning record)
    (spared : record.id ∉ engine.renewed move)
    (answer : middle.settle record result engine.config.retry draw now = (.ok settlement, after)) :
    Fate engine move after record.id (middle.find? record.id) (after.find? record.id)
      (engine.reckoning move record.id) := by
  obtain ⟨row, found, isRunning, isRecord⟩ := running
  have here := Store.Table.id_of_find? found
  rcases consistent.settle_cases record result engine.config.retry draw now with
    ⟨missing, _⟩ | ⟨other, otherFound, ended⟩
  · cases found.symm.trans missing
  obtain rfl := Option.some.inj (found.symm.trans otherFound)
  have put : ∀ edited : Store.Row, edited.id = row.id → after = middle.put edited →
      after.find? record.id = some edited := by
    rintro edited sameId rfl
    rw [Store.Table.find?_put, sameId, if_pos here.symm, found]
    rfl
  -- A row that gave way is gone, and the one that it gave way to is still there.
  have gaveWay : ∀ survivor, middle.survivor? row = some survivor →
      after = middle.erase record.id →
      after.find? record.id = none ∧ ∃ key, row.debounceKey = .text key ∧
        after.find? survivor.id = some survivor ∧ survivor.state = .pending ∧
        survivor.debounceKey = .text key := by
    rintro survivor held rfl
    obtain ⟨key, isKey, member, pending, sameKey, different⟩ := Store.Table.of_survivor? held
    refine ⟨by simp [Store.Table.find?_erase], key, isKey, ?_, pending, sameKey⟩
    rw [Store.Table.find?_erase, if_neg (here ▸ different), consistent.find?_of_mem member]
  rw [found]
  cases result with
  | ok outcome =>
      have kept : engine.reckoning move record.id = .kept :=
        reckoning_of_ne (by simp [failure?, settles]) spared
      rw [kept]
      cases outcome with
      | success =>
          simp only [Store.Verdict.of] at ended
          obtain ⟨_, rfl⟩ := Prod.mk.inj (answer.symm.trans ended)
          rw [Store.Table.find?_erase, if_pos rfl]
          exact .completed settles rfl isRunning
      | retryAfter delay =>
          simp only [Store.Verdict.of] at ended
          cases held : middle.survivor? row with
          | some survivor =>
              simp only [held] at ended
              obtain ⟨gone, key, isKey, still, pending, sameKey⟩ :=
                gaveWay survivor held (Prod.mk.inj (answer.symm.trans ended)).2
              rw [gone]
              exact .superseded (.inl isRunning) isKey still pending sameKey (.inl rfl)
          | none =>
              simp only [held] at ended
              rw [put _ (Store.Row.id_comeBack _ _ _ _) (Prod.mk.inj (answer.symm.trans ended)).2]
              exact .cameBack isRunning
  | error error =>
      rw [reckoning_of_failure settles]
      by_cases exhausted : engine.config.retry.isExhausted record.nextFailures = true
      · simp only [Store.Verdict.of, exhausted, if_true] at ended
        rw [put _ (Store.Row.id_fail _ _ _ _) (Prod.mk.inj (answer.symm.trans ended)).2]
        exact .deadLettered settles isRunning isRecord exhausted
      · have goesOn := Bool.eq_false_iff.mpr exhausted
        simp only [Store.Verdict.of, exhausted, if_false, Bool.false_eq_true] at ended
        cases held : middle.survivor? row with
        | some survivor =>
            simp only [held] at ended
            obtain ⟨gone, key, isKey, still, pending, sameKey⟩ :=
              gaveWay survivor held (Prod.mk.inj (answer.symm.trans ended)).2
            rw [gone]
            exact .superseded (.inl isRunning) isKey still pending sameKey
              (.inr ⟨rfl, record, error, settles, isRecord, goesOn⟩)
        | none =>
            simp only [held] at ended
            rw [put _ (Store.Row.id_comeBack _ _ _ _) (Prod.mk.inj (answer.symm.trans ended)).2]
            exact .failed settles isRunning isRecord goesOn

theorem fate_of_decide {now : Instant} {lanes : Lanes} {tick : Tick}
    (consistent : engine.database.jobs.Consistent) (isTick : engine.tick? now = some tick)
    (answer : engine.database.jobs.tick engine.registry lanes engine.config.batchSize now =
      (.ok tick, after)) :
    Fate engine (.decide now) after id (engine.database.jobs.find? id) (after.find? id)
      (engine.reckoning (.decide now) id) := by
  have kept : engine.reckoning (.decide now) id = .kept :=
    reckoning_of_ne (by simp [failure?, settlement?])
      (by simp [renewed, entered_decide, requeued])
  rw [kept]
  have ticked := consistent.tick_spec answer
  have sifted := consistent.tick_sifted answer
  by_cases isClaimed : id ∈ tick.claimed.map Record.id
  · obtain ⟨record, member, rfl⟩ := List.mem_map.mp isClaimed
    obtain ⟨old, found, pending, left, isRecord⟩ := (ticked.claimed record member).row
    rw [found, left]
    exact .claimed pending isRecord
  by_cases isUnknown : id ∈ tick.unknown.map fun entry => entry.1.id
  · obtain ⟨entry, member, rfl⟩ := List.mem_map.mp isUnknown
    obtain ⟨_, old, found, pending, isRecord, left⟩ := sifted.givenUp entry member
    rw [found, left]
    refine .gaveUp pending isRecord ?_
    simpa [givenUp, isTick] using ⟨entry.2, member⟩
  · rw [sifted.unchanged id isClaimed isUnknown]
    exact .untouched

theorem fate_of_cancel (consistent : engine.database.jobs.Consistent) (other : Int) :
    Fate engine (.cancel other) after id (engine.database.jobs.find? id)
      ((engine.database.jobs.cancel other).2.find? id) (engine.reckoning (.cancel other) id) := by
  have kept : engine.reckoning (.cancel other) id = .kept :=
    reckoning_of_ne (by simp [failure?, settlement?])
      (by simp [renewed, entered_cancel, requeued])
  rw [kept]
  rcases consistent.cancel_cases other with ⟨_, answer⟩ | ⟨row, found, pending, answer⟩
  · rw [answer]
    exact .untouched
  · rw [answer, Store.Table.find?_erase]
    split
    · next here =>
        subst here
        rw [found]
        exact .canceled rfl pending
    · exact .untouched

theorem fate_of_requeue (consistent : engine.database.jobs.Consistent)
    (goesOn : engine.isWriterStopped = false) {other : Int} {now : Instant}
    (same : after = (engine.database.jobs.requeue other now).2) :
    Fate engine (.requeue other now) after id (engine.database.jobs.find? id) (after.find? id)
      (engine.reckoning (.requeue other now) id) := by
  have failure : ∀ record, engine.failure? (.requeue other now) = some record → record.id ≠ id := by
    simp [failure?, settlement?]
  rcases consistent.requeue_cases other now with
    ⟨_, answer⟩ | ⟨row, survivor, found, failed, held, answer⟩ | ⟨row, found, failed, free, answer⟩
  · have kept : engine.reckoning (.requeue other now) id = .kept :=
      reckoning_of_ne failure
        (by simp [renewed, entered_requeue, requeued, goesOn, answer, Store.Rescheduled.isPending])
    rw [kept, same, answer]
    exact .untouched
  · have kept : engine.reckoning (.requeue other now) id = .kept :=
      reckoning_of_ne failure
        (by simp [renewed, entered_requeue, requeued, goesOn, answer, Store.Rescheduled.isPending])
    rw [answer] at same
    rw [kept, same, Store.Table.find?_erase]
    split
    · next here =>
        subst here
        obtain ⟨key, isKey, member, pending, sameKey, different⟩ := Store.Table.of_survivor? held
        have still : (engine.database.jobs.erase id).find? survivor.id = some survivor := by
          rw [Store.Table.find?_erase, if_neg (Store.Table.id_of_find? found ▸ different),
            consistent.find?_of_mem member]
        rw [found]
        exact .superseded (.inr ⟨failed, now, rfl⟩) isKey still pending sameKey (.inl rfl)
    · exact .untouched
  · have renews : engine.renewed (.requeue other now) = [other] := by
      simp [renewed, entered_requeue, requeued, goesOn, answer, Store.Rescheduled.isPending]
    rw [answer] at same
    rw [same, Store.Table.find?_put, Store.Row.id_requeue, Store.Table.id_of_find? found]
    split
    · next here =>
        subst here
        rw [found, reckoning_of_renewed failure (by simp [renews])]
        exact .requeued rfl failed
    · next different =>
        rw [reckoning_of_ne failure (by simpa [renews] using different)]
        exact .untouched

theorem fate_of_recover (consistent : engine.database.jobs.Consistent) {draw : Nat} {now : Instant}
    (same : after =
      (engine.database.jobs.recover engine.config.recovery engine.config.retry draw now).2) :
    Fate engine (.recover draw now) after id (engine.database.jobs.find? id) (after.find? id)
      (engine.reckoning (.recover draw now) id) := by
  have kept : engine.reckoning (.recover draw now) id = .kept :=
    reckoning_of_ne (by simp [failure?, settlement?])
      (by simp [renewed, entered, notices, strays, requeued])
  obtain ⟨replies, final, answer, spec⟩ := consistent.recover_spec engine.config.recovery
    engine.config.retry draw now
  rw [answer] at same
  subst same
  rw [kept]
  by_cases listed : id ∈ engine.database.jobs.runningIds
  · obtain ⟨row, member, running, rfl⟩ := Store.Table.mem_runningIds.mp listed
    have found := consistent.find?_of_mem member
    obtain ⟨⟨other, reply⟩, isReply, here⟩ := List.mem_map.mp (spec.ids_eq ▸ listed)
    obtain rfl : other = row.id := here
    rw [found]
    cases reply with
    | pending time =>
        obtain ⟨_, old, oldFound, left⟩ := spec.pending _ _ isReply
        obtain rfl := Option.some.inj (found.symm.trans oldFound)
        rw [left]
        exact .cameBack running
    | superseded survivor =>
        obtain ⟨gone, old, holder, key, oldFound, isKey, held, pending, sameKey⟩ :=
          spec.superseded _ _ isReply
        obtain rfl := Option.some.inj (found.symm.trans oldFound)
        rw [gone]
        refine .superseded (.inl running) isKey ?_ pending sameKey (.inl rfl)
        rw [Store.Table.id_of_find? held, held]
    | missing =>
        rw [spec.missing _ isReply] at found
        cases found
  · rw [spec.unchanged id listed]
    exact .untouched

theorem Kept.fate (kept : engine.Kept) (leavesJobs : move.LeavesJobs)
    {later : Engine Business} (taken : engine.step move = some later) (id : Int) :
    Fate engine move later.database.jobs id (engine.database.jobs.find? id)
      (later.database.jobs.find? id) (engine.reckoning move id) := by
  have consistent := kept.owned.consistent
  cases kept.work leavesJobs taken with
  | idle same notices strays settles requeued =>
      have none : engine.reckoning move id = .kept :=
        reckoning_of_ne (by simp [failure?, settles])
          (by simp [renewed, entered, notices, strays, requeued])
      rw [same, none]
      exact .untouched
  | enqueued _ settles requeued _ _ isRenewed =>
      exact fate_of_renewed isRenewed requeued (by simp [failure?, settles])
  | canceled isMove _ same =>
      subst isMove
      rw [same]
      exact fate_of_cancel consistent _
  | requeued isMove goesOn same =>
      subst isMove
      exact fate_of_requeue consistent goesOn same
  | recovered isMove _ _ same =>
      subst isMove
      exact fate_of_recover consistent same
  | ticked tick isMove isTick answer =>
      subst isMove
      exact fate_of_decide consistent isTick answer
  | @settled told record result settlement middle draw now _ _ settles requeued _ member isRenewed
      answer =>
      have running := kept.owned.running record member
      by_cases here : id = record.id
      · -- The record is running, so no job was enqueued in its place.
        have spared : record.id ∉ engine.renewed move := by
          intro listed
          rw [renewed_of_entered requeued] at listed
          obtain ⟨row, found, isRunning, _⟩ := running
          have pending := isRenewed.resting record.id (by simpa using listed) row found
          rw [isRunning] at pending
          cases pending
        have unchanged : middle.find? record.id = engine.database.jobs.find? record.id := by
          refine isRenewed.unchanged record.id fun listed => spared ?_
          rw [renewed_of_entered requeued]
          simpa using listed
        obtain ⟨row, found, isRunning, isRecord⟩ := running
        have later := fate_of_settled (isRenewed.reaches.consistent consistent) settles
          ⟨row, unchanged.trans found, isRunning, isRecord⟩ spared answer
        rw [here, ← unchanged]
        exact later
      · have untouched := (isRenewed.reaches.consistent consistent).find?_settle_of_ne record result
          engine.config.retry draw now here
        rw [answer] at untouched
        rw [untouched]
        refine fate_of_renewed isRenewed requeued ?_
        intro other isFailure
        obtain rfl : record = other := by
          cases result with
          | error error => simpa [failure?, settles] using isFailure
          | ok outcome => simp [failure?, settles] at isFailure
        exact Ne.symm here

end Fates

end Engine

end DurableJobs
