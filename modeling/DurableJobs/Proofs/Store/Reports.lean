import DurableJobs.Proofs.Store.Legibility

/-!
What operations report, and what the store then holds.

A record that is reported to be pending again is found so, at the reported time: times are whole
milliseconds, and so are the delays that are added to them. Only a delay that does not fit ends
elsewhere, at the last instant there is, of which the store keeps no more than the milliseconds.
-/

set_option autoImplicit false

namespace DurableJobs

namespace Store

theorem Row.notBefore_comeBack (row : Row) (notBefore : Instant) (failure : Option Failure)
    (now : Instant) : (row.comeBack notBefore failure now).notBefore = .integer notBefore.millis := by
  cases failure <;> rfl

namespace Table

/-- The record is pending from a time on, of which the store keeps the milliseconds: `get` tells so,
unless the record was claimed too often. -/
def ComesBackAt (table : Table) (id : Int) (time : Instant) : Prop :=
  ∃ row, table.find? id = some row ∧ row.state = .pending ∧
    (row.IsWornOut ∨ ∃ record, table.get id = .ok (some record) ∧ record.id = id ∧
      record.state = .pending ∧ Instant.ofMillis? time.millis = some record.notBefore ∧
      (record.notBefore = time ∨ time = Instant.latest))

/-- The record is gone, and a pending one has its debounce key. -/
def GivesWay (before after : Table) (id survivor : Int) : Prop :=
  after.get id = .ok none ∧ ∃ row holder key, before.find? id = some row ∧
    row.debounceKey = .text key ∧ after.find? survivor = some holder ∧ holder.state = .pending ∧
    holder.debounceKey = .text key

/-- The record has failed for good: `get` tells with what error and after how many failures, unless
the record was claimed too often. -/
def LiesDead (table : Table) (id : Int) (error : String) (failures : Nat) : Prop :=
  ∃ row, table.find? id = some row ∧ row.state = .failed ∧
    (row.IsWornOut ∨ ∃ record, table.get id = .ok (some record) ∧ record.id = id ∧
      record.state = .failed ∧ record.lastError = some error ∧ record.failures = failures)

end Table

def Rescheduled.Holds (before after : Table) (id : Int) : Rescheduled → Prop
  | .pending time => after.ComesBackAt id time
  | .superseded survivor => Table.GivesWay before after id survivor
  | .missing => after = before

end Store

def Settlement.Holds (before after : Store.Table) (record : Record) : Settlement → Prop
  | .completed => after.get record.id = .ok none
  | .retrying time _ => after.ComesBackAt record.id time
  | .superseded survivor => Store.Table.GivesWay before after record.id survivor
  | .deadLettered error => after.LiesDead record.id error record.nextFailures
  | .missing => after = before

namespace Store.Table

/-- Whatever is reported of a record at a time holds in the table then. -/
structure ReportsHold (table : Table) (now : Instant) : Prop where
  reschedule : ∀ id delay failure answer after,
    (∀ noted ∈ failure, noted.failures ≤ Record.countLimit) →
    table.reschedule id (now.after delay) failure now = (.ok answer, after) →
    answer.Holds table after id
  requeue : ∀ id answer after, table.requeue id now = (.ok answer, after) →
    answer.Holds table after id
  settleOutcome : ∀ record outcome settlement after,
    table.settleOutcome record outcome now = (.ok settlement, after) →
    settlement.Holds table after record
  settleFailure : ∀ record error policy draw settlement after,
    table.settleFailure record error policy draw now = (.ok settlement, after) →
    settlement.Holds table after record
  recover : ∀ recovery policy draw replies after,
    table.recover recovery policy draw now = (.ok replies, after) →
    ∀ reply ∈ replies, reply.2.Holds table after reply.1

section Reports

variable {table after : Table} {id : Int} {row : Row}

theorem get_of_find? {record : Record} (found : table.find? id = some row) (holds : row.Holds record) :
    table.get id = .ok (some record) := by
  rw [get, found]
  simp only [Row.record_of_holds holds]
  rfl

theorem get_of_missing (missing : table.find? id = none) : table.get id = .ok none := by
  rw [get, missing]

theorem IsLegible.comesBackAt (legible : table.IsLegible) (found : table.find? id = some row)
    (pending : row.state = .pending) {time : Instant} (due : row.notBefore = .integer time.millis)
    (whole : time.IsWhole ∨ time = Instant.latest) : table.ComesBackAt id time := by
  refine ⟨row, found, pending, ?_⟩
  by_cases wornOut : row.IsWornOut
  · exact .inl wornOut
  · right
    obtain ⟨record, holds⟩ := (legible row (mem_of_find? found)).holds wornOut
    obtain ⟨millis, isMillis, isInstant⟩ := holds.notBefore
    obtain rfl := Cell.integer.inj (isMillis.symm.trans due)
    refine ⟨record, get_of_find? found holds, holds.id.symm.trans (id_of_find? found),
      holds.state.symm.trans pending, isInstant, whole.imp_left fun isWhole => ?_⟩
    exact Option.some.inj (isInstant.symm.trans isWhole.ofMillis?_millis)

theorem IsLegible.liesDead (legible : table.IsLegible) (found : table.find? id = some row)
    (failed : row.state = .failed) {error : String} {failures : Nat}
    (noted : row.lastError = .text error) (counted : row.failures = .integer failures) :
    table.LiesDead id error failures := by
  refine ⟨row, found, failed, ?_⟩
  by_cases wornOut : row.IsWornOut
  · exact .inl wornOut
  · right
    obtain ⟨record, holds⟩ := (legible row (mem_of_find? found)).holds wornOut
    refine ⟨record, get_of_find? found holds, holds.id.symm.trans (id_of_find? found),
      holds.state.symm.trans failed, ?_, ?_⟩
    · have same := holds.lastError.symm.trans noted
      cases isError : record.lastError with
      | none => rw [isError] at same; cases same
      | some other => rw [isError] at same; exact congrArg some (Cell.text.inj same)
    · exact Int.ofNat.inj (Cell.integer.inj (holds.failures.1.symm.trans counted))

theorem get_erase (table : Table) (id : Int) : (table.erase id).get id = .ok none :=
  get_of_missing (by simp [find?_erase])

/-- A record that gives way does so to a row that stays. -/
theorem Consistent.givesWay (consistent : table.Consistent) {survivor : Row}
    (found : table.find? id = some row) (held : table.survivor? row = some survivor) :
    GivesWay table (table.erase id) id survivor.id := by
  obtain ⟨key, isKey, member, pending, sameKey, different⟩ := of_survivor? held
  refine ⟨get_erase table id, row, survivor, key, found, isKey, ?_, pending, sameKey⟩
  rw [find?_erase, if_neg (id_of_find? found ▸ different), consistent.find?_of_mem member]

theorem IsLegible.comesBackAt_put {edited : Row} (legible : (table.put edited).IsLegible)
    (found : table.find? id = some row) (sameId : edited.id = row.id)
    (pending : edited.state = .pending) {time : Instant}
    (due : edited.notBefore = .integer time.millis)
    (whole : time.IsWhole ∨ time = Instant.latest) : (table.put edited).ComesBackAt id time := by
  have here : edited.id = id := sameId.trans (id_of_find? found)
  have isEdited : (table.put edited).find? id = some edited := by
    rw [find?_put, if_pos here.symm, found]
    rfl
  exact legible.comesBackAt isEdited pending due whole

end Reports

section Operations

variable {table : Table} {now : Instant}

theorem Written.reschedule_holds (written : table.Written) (whole : now.IsWhole) {id : Int}
    {delay : Duration} {failure : Option Failure} {answer : Rescheduled} {after : Table}
    (few : ∀ noted ∈ failure, noted.failures ≤ Record.countLimit)
    (answered : table.reschedule id (now.after delay) failure now = (.ok answer, after)) :
    answer.Holds table after id := by
  have consistent := written.reachable.consistent
  have storable : (Operation.reschedule id (now.after delay) failure now).IsStorable :=
    ⟨Instant.isStorable_after now delay, few, whole.isStorable⟩
  have legible : (table.reschedule id (now.after delay) failure now).2.IsLegible :=
    (written.perform storable).isLegible
  rcases consistent.reschedule_cases id (now.after delay) failure now with
    ⟨_, answer⟩ | ⟨row, survivor, found, held, answer⟩ | ⟨row, found, _, answer⟩
  · cases answer.symm.trans answered
    rfl
  · cases answer.symm.trans answered
    exact consistent.givesWay found held
  · rw [answer] at legible
    cases answer.symm.trans answered
    exact legible.comesBackAt_put found (by simp) (by simp) (Row.notBefore_comeBack _ _ _ _)
      (whole.after delay)

theorem Written.requeue_holds (written : table.Written) (whole : now.IsWhole) {id : Int}
    {answer : Rescheduled} {after : Table}
    (answered : table.requeue id now = (.ok answer, after)) : answer.Holds table after id := by
  have consistent := written.reachable.consistent
  have storable : (Operation.requeue id now).IsStorable := whole.isStorable
  have legible : (table.requeue id now).2.IsLegible := (written.perform storable).isLegible
  rcases consistent.requeue_cases id now with
    ⟨_, answer⟩ | ⟨row, survivor, found, _, held, answer⟩ | ⟨row, found, _, _, answer⟩
  · cases answer.symm.trans answered
    rfl
  · cases answer.symm.trans answered
    exact consistent.givesWay found held
  · rw [answer] at legible
    cases answer.symm.trans answered
    exact legible.comesBackAt_put found (by simp) (by simp) rfl (.inl whole)

/-- Both ways to settle an execution tell what becomes of its record. -/
theorem Written.settle_holds (written : table.Written) (whole : now.IsWhole) {record : Record}
    (result : Except JobError Outcome) (policy : RetryPolicy) (draw : Nat) {settlement : Settlement}
    {after : Table}
    (answered : table.settle record result policy draw now = (.ok settlement, after)) :
    settlement.Holds table after record := by
  have consistent := written.reachable.consistent
  have storable : (Operation.settle record result policy draw now).IsStorable := whole.isStorable
  have legible : (table.settle record result policy draw now).2.IsLegible :=
    (written.perform storable).isLegible
  rcases consistent.settle_cases record result policy draw now with
    ⟨_, answer⟩ | ⟨row, found, answer⟩
  · cases answer.symm.trans answered
    rfl
  · cases verdict : Verdict.of record result policy draw now with
    | remove =>
        simp only [verdict] at answer
        cases answer.symm.trans answered
        exact get_erase table record.id
    | giveUp failure =>
        simp only [verdict] at answer
        rw [answer] at legible
        cases answer.symm.trans answered
        obtain ⟨error, _, rfl⟩ := Verdict.of_eq_giveUp verdict
        have isDead : (table.put (row.fail record.nextFailures error.message now)).find? record.id =
            some (row.fail record.nextFailures error.message now) := by
          rw [find?_put, Row.id_fail, if_pos (id_of_find? found).symm, found]
          rfl
        exact legible.liesDead isDead rfl rfl rfl
    | comeBack notBefore failure =>
        obtain ⟨⟨delay, rfl⟩, _⟩ := Verdict.of_eq_comeBack verdict
        cases held : table.survivor? row with
        | some survivor =>
            simp only [verdict, held] at answer
            cases answer.symm.trans answered
            exact consistent.givesWay found held
        | none =>
            simp only [verdict, held] at answer
            rw [answer] at legible
            cases answer.symm.trans answered
            exact legible.comesBackAt_put found (by simp) (by simp) (Row.notBefore_comeBack _ _ _ _)
              (whole.after delay)

theorem Written.recover_holds (written : table.Written) (whole : now.IsWhole) {recovery : Recovery}
    {policy : RetryPolicy} {draw : Nat} {replies : List (Int × Rescheduled)} {after : Table}
    (answered : table.recover recovery policy draw now = (.ok replies, after)) :
    ∀ reply ∈ replies, reply.2.Holds table after reply.1 := by
  have consistent := written.reachable.consistent
  have storable : (Operation.recover recovery policy draw now).IsStorable := whole.isStorable
  have legible : (table.recover recovery policy draw now).2.IsLegible :=
    (written.perform storable).isLegible
  obtain ⟨others, last, answer, spec⟩ := consistent.recover_spec recovery policy draw now
  rw [answer] at legible
  obtain ⟨rfl, rfl⟩ : others = replies ∧ last = after := by
    simpa using answer.symm.trans answered
  have due : (recoveryTime recovery policy draw now).IsWhole ∨
      recoveryTime recovery policy draw now = Instant.latest := by
    cases recovery with
    | immediately => exact .inl whole
    | withBackoff => exact whole.after _
  rintro ⟨id, reply⟩ member
  cases reply with
  | pending time =>
      obtain ⟨rfl, row, found, moved⟩ := spec.pending id time member
      exact legible.comesBackAt moved rfl rfl due
  | superseded survivor =>
      obtain ⟨gone, others⟩ := spec.superseded id survivor member
      exact ⟨get_of_missing gone, others⟩
  | missing =>
      -- What is recovered was running, so it is not missing.
      have running : id ∈ table.runningIds :=
        spec.ids_eq ▸ List.mem_map_of_mem (f := Prod.fst) member
      obtain ⟨row, isRow, _, rfl⟩ := mem_runningIds.mp running
      cases (consistent.find?_of_mem isRow).symm.trans (spec.missing row.id member)

/-- At every time that a clock reads, each report on a record holds in the store. -/
theorem Written.reportsHold (written : table.Written) (whole : now.IsWhole) :
    table.ReportsHold now where
  reschedule := fun _ _ _ _ _ few answered => written.reschedule_holds whole few answered
  requeue := fun _ _ _ answered => written.requeue_holds whole answered
  settleOutcome := fun _ outcome _ _ answered =>
    written.settle_holds whole (.ok outcome) RetryPolicy.standard 0 answered
  settleFailure := fun _ error policy draw _ _ answered =>
    written.settle_holds whole (.error error) policy draw answered
  recover := fun _ _ _ _ _ answered => written.recover_holds whole answered

end Operations

/-- A record that was enqueued and claimed at the start of 1970, and the table that holds it. -/
def claimed : Record where
  id := 1
  jobType := "reindex"
  payload := [118]
  priority := .normal
  notBefore := Instant.epoch
  debounceKey := none
  sagaId := none
  correlationId := Uuid.zero
  state := .running
  attempts := 1
  failures := 0
  lastError := none
  createdAt := Instant.epoch
  updatedAt := Instant.epoch

def running : Table :=
  ((empty.perform (.enqueue (Job.new "reindex" [118] Uuid.zero) Instant.epoch)).2.perform
    (.claim 1 Instant.epoch)).2

theorem isWhole_epoch : Instant.epoch.IsWhole := ⟨0, rfl⟩

theorem written_running : running.Written := by
  have enqueues : (Operation.enqueue (Job.new "reindex" [118] Uuid.zero) Instant.epoch).IsStorable :=
    ⟨by simp [Job.IsStorable, Job.new], isWhole_epoch.isStorable⟩
  have claims : (Operation.claim 1 Instant.epoch).IsStorable := isWhole_epoch.isStorable
  exact (Written.empty.perform enqueues).perform claims

theorem get_running : running.get claimed.id = .ok (some claimed) :=
  ok_of_toOption (by decide +kernel)

/-- A record that asks to be run again is found at the time that it is told. -/
theorem reportsHold_running :
    ∃ (table after : Table) (now time : Instant) (record : Record), table.Written ∧ now.IsWhole ∧
      table.get record.id = .ok (some record) ∧
      table.settleOutcome record (.retryAfter (Duration.ofMillis 5)) now =
        (.ok (.retrying time none), after) ∧ after.ComesBackAt record.id time := by
  have answered : (running.settleOutcome claimed (.retryAfter (Duration.ofMillis 5))
      Instant.epoch).1 = .ok (.retrying (Instant.epoch.after (Duration.ofMillis 5)) none) :=
    ok_of_toOption (by decide +kernel)
  exact ⟨running, _, Instant.epoch, _, claimed, written_running, isWhole_epoch, get_running,
    Prod.ext answered rfl,
    (written_running.reportsHold isWhole_epoch).settleOutcome claimed _ _ _ (Prod.ext answered rfl)⟩

/-- The longest delay is reported to end later than the store says. -/
theorem reported_time_not_kept :
    ∃ (table after : Table) (time : Instant) (record stored : Record), table.Written ∧
      table.get record.id = .ok (some record) ∧
      table.settleOutcome record (.retryAfter Duration.longest) Instant.epoch =
        (.ok (.retrying time none), after) ∧
      after.get record.id = .ok (some stored) ∧ stored.state = .pending ∧
      stored.notBefore ≠ time := by
  let lastMillis : Instant :=
    ⟨8210266876799, 999000000, by decide, by decide, .inl (by decide)⟩
  have answered : (running.settleOutcome claimed (.retryAfter Duration.longest) Instant.epoch).1 =
      .ok (.retrying Instant.latest none) :=
    ok_of_toOption (by decide +kernel)
  have kept : (running.settleOutcome claimed (.retryAfter Duration.longest)
      Instant.epoch).2.get claimed.id =
        .ok (some { claimed with state := .pending, notBefore := lastMillis }) :=
    ok_of_toOption (by decide +kernel)
  exact ⟨running, _, _, claimed, _, written_running, get_running, Prod.ext answered rfl, kept, rfl,
    by decide⟩

end Store.Table

end DurableJobs
