import DurableJobs.Proofs.AfterCommit
import DurableJobs.Proofs.Engine.Callers

/-!
The counts as a tally of the events.

Whatever is told, each event is counted once, under the kind of its change and for the type of its
job, and nothing else is counted. So the counts of all jobs are those of the events, and the counts of
the types add up to them.
-/

set_option autoImplicit false

namespace DurableJobs

namespace Counts

/-- The count of a kind. -/
def of (counts : Counts) : Count → Nat
  | .enqueued => counts.enqueued
  | .coalesced => counts.coalesced
  | .started => counts.started
  | .completed => counts.completed
  | .retried => counts.retried
  | .failedAttempt => counts.failedAttempts
  | .deadLettered => counts.deadLettered
  | .superseded => counts.superseded
  | .canceled => counts.canceled

@[simp] theorem of_zero (kind : Count) : zero.of kind = 0 := by
  cases kind <;> rfl

theorem of_add (counts : Counts) (added kind : Count) :
    (counts.add added).of kind = counts.of kind + if added = kind then 1 else 0 := by
  cases added <;> cases kind <;> rfl

end Counts

/-- The kind under which a change is counted. -/
def Change.kind : Change → Count
  | .enqueued _ _ coalesced => if coalesced then .coalesced else .enqueued
  | .started _ _ => .started
  | .retrying _ _ error => if error.isSome then .failedAttempt else .retried
  | .completed _ => .completed
  | .superseded _ => .superseded
  | .failed _ _ => .deadLettered
  | .canceled => .canceled

namespace Metrics

variable {entries : List (String × Counts)} {jobType : String}

theorem sum_addFor (jobType : String) (added kind : Count) (entries : List (String × Counts)) :
    ((addFor jobType added entries).map fun entry => entry.2.of kind).sum =
      (entries.map fun entry => entry.2.of kind).sum + if added = kind then 1 else 0 := by
  induction entries with
  | nil => simp [addFor, Counts.of_add]
  | cons entry rest ih =>
      rw [addFor]
      split
      · simp only [List.map_cons, List.sum_cons, Counts.of_add]
        omega
      · simp only [List.map_cons, List.sum_cons, ih]
        omega

theorem mem_addFor (added : Count) {name : String} :
    name ∈ (addFor jobType added entries).map Prod.fst ↔
      name = jobType ∨ name ∈ entries.map Prod.fst := by
  induction entries with
  | nil => simp [addFor]
  | cons entry rest ih =>
      rw [addFor]
      split
      · next same => simp [same]
      · rw [List.map_cons, List.mem_cons, ih, List.map_cons, List.mem_cons]
        tauto

theorem nodup_addFor (added : Count) (distinct : (entries.map Prod.fst).Nodup) :
    ((addFor jobType added entries).map Prod.fst).Nodup := by
  induction entries with
  | nil => simp [addFor]
  | cons entry rest ih =>
      obtain ⟨other, others⟩ := List.nodup_cons.mp distinct
      rw [addFor]
      split
      · exact distinct
      · next different =>
          refine List.nodup_cons.mpr ⟨fun member => ?_, ih others⟩
          rcases (mem_addFor added).mp member with same | old
          · exact different same
          · exact other old

end Metrics

/-- The counts tell the same as the events. -/
structure Telemetry.Tallies (telemetry : Telemetry) : Prop where
  -- Each count is the number of events of its kind.
  events : ∀ kind, telemetry.metrics.global.of kind =
    telemetry.events.countP fun event => event.change.kind = kind
  -- It is also the sum of that count over the job types, each of which has one entry.
  types : ∀ kind, telemetry.metrics.global.of kind =
    (telemetry.metrics.byType.map fun entry => entry.2.of kind).sum
  distinct : (telemetry.metrics.byType.map Prod.fst).Nodup

namespace Telemetry

/-- No count is larger than the number of events. -/
theorem Tallies.of_le {telemetry : Telemetry} (tallies : telemetry.Tallies) (kind : Count) :
    telemetry.metrics.global.of kind ≤ telemetry.events.length := by
  rw [tallies.events kind]
  exact List.countP_le_length

theorem tallies_empty : empty.Tallies where
  events := fun kind => by simp [empty, Metrics.empty]
  types := fun kind => by simp [empty, Metrics.empty]
  distinct := List.nodup_nil

variable {telemetry : Telemetry}

/-- An event that is published and counted under its kind. -/
theorem Tallies.tell (tallies : telemetry.Tallies) (jobType : String) (id : Int) (change : Change)
    (now : Instant) : (telemetry.tell (some (jobType, change.kind)) id change now).Tallies where
  events := fun kind => by
    rw [Telemetry.tell, Metrics.add, Counts.of_add, tallies.events, List.countP_append]
    simp [List.countP_singleton]
  types := fun kind => by
    rw [Telemetry.tell, Metrics.add, Counts.of_add, Metrics.sum_addFor, tallies.types]
  distinct := Metrics.nodup_addFor _ tallies.distinct

theorem Tallies.enqueued (tallies : telemetry.Tallies) (job : Enqueued) (now : Instant) :
    (telemetry.enqueued job now).Tallies :=
  tallies.tell job.jobType job.receipt.id
    (.enqueued job.jobType job.correlationId job.receipt.isCoalesced) now

theorem Tallies.settled (tallies : telemetry.Tallies) (record : Record) (settlement : Settlement)
    (now : Instant) : (telemetry.settled record settlement now).Tallies := by
  cases settlement with
  | completed => exact tallies.tell record.jobType record.id (.completed record.jobType) now
  | retrying notBefore error =>
      exact tallies.tell record.jobType record.id (.retrying record.jobType notBefore error) now
  | superseded survivor => exact tallies.tell record.jobType record.id (.superseded survivor) now
  | deadLettered error =>
      exact tallies.tell record.jobType record.id (.failed record.jobType error) now
  | missing => exact tallies

theorem Tallies.notice (tallies : telemetry.Tallies) (notice : Notice) (now : Instant) :
    (telemetry.notice now notice).Tallies := by
  cases notice with
  | enqueued jobs =>
      rw [Telemetry.notice]
      induction jobs generalizing telemetry with
      | nil => exact tallies
      | cons job rest ih => exact ih (tallies.enqueued job now)
  | effects effects => exact tallies
  | settled record settlement => exact tallies.settled record settlement now
  | canceled id jobType => exact tallies.tell jobType id .canceled now
  | requeued => exact tallies

theorem Tallies.apply (tallies : telemetry.Tallies) (utterance : Utterance) :
    (utterance.apply telemetry).Tallies := by
  cases utterance with
  | told teller notice now => exact tallies.notice notice now
  | started record now =>
      exact tallies.tell record.jobType record.id (.started record.jobType record.attempts) now

theorem Tallies.foldl (tallies : telemetry.Tallies) (utterances : List Utterance) :
    (utterances.foldl Utterance.apply telemetry).Tallies := by
  induction utterances generalizing telemetry with
  | nil => exact tallies
  | cons utterance rest ih => exact ih (tallies.apply utterance)

end Telemetry

/-! ### The events of what is uttered -/

def Settlement.change? (record : Record) : Settlement → Option Change
  | .completed => some (.completed record.jobType)
  | .retrying notBefore error => some (.retrying record.jobType notBefore error)
  | .superseded survivor => some (.superseded survivor)
  | .deadLettered error => some (.failed record.jobType error)
  | .missing => none

def Notice.events (now : Instant) : Notice → List Event
  | .enqueued jobs => jobs.map fun job => job.event now
  | .settled record settlement =>
      ((settlement.change? record).map fun change => ⟨record.id, change, now⟩).toList
  | .canceled id _ => [⟨id, .canceled, now⟩]
  | .effects _ => []
  | .requeued => []

def Utterance.events : Utterance → List Event
  | .told _ notice now => notice.events now
  | .started record now => [⟨record.id, .started record.jobType record.attempts, now⟩]

theorem Telemetry.events_notice (telemetry : Telemetry) (notice : Notice) (now : Instant) :
    (telemetry.notice now notice).events = telemetry.events ++ notice.events now := by
  cases notice with
  | enqueued jobs =>
      rw [notice_enqueued]
      rfl
  | settled record settlement =>
      cases settlement with
      | missing => exact (List.append_nil _).symm
      | _ => rfl
  | canceled id jobType => rfl
  | effects effects => exact (List.append_nil _).symm
  | requeued => exact (List.append_nil _).symm

theorem Telemetry.events_foldl (telemetry : Telemetry) (utterances : List Utterance) :
    (utterances.foldl Utterance.apply telemetry).events =
      telemetry.events ++ utterances.flatMap Utterance.events := by
  induction utterances generalizing telemetry with
  | nil => exact (List.append_nil _).symm
  | cons utterance rest ih =>
      have first : (utterance.apply telemetry).events = telemetry.events ++ utterance.events := by
        cases utterance with
        | told teller notice now => exact telemetry.events_notice notice now
        | started record now => rfl
      rw [List.foldl_cons, ih, first, List.append_assoc, List.flatMap_cons]

/-! ### What an engine publishes -/

/-- So many events of a kind. -/
def Event.tally (events : List Event) (kind : Count) : Nat :=
  events.countP fun event => event.change.kind = kind

theorem Event.tally_append (first second : List Event) (kind : Count) :
    tally (first ++ second) kind = tally first kind + tally second kind :=
  List.countP_append

namespace Telemetry

theorem of_tell (telemetry : Telemetry) (jobType : String) (id : Int) (change : Change)
    (now : Instant) (kind : Count) :
    (telemetry.tell (some (jobType, change.kind)) id change now).metrics.global.of kind =
      telemetry.metrics.global.of kind + Event.tally [⟨id, change, now⟩] kind := by
  rw [tell, Metrics.add, Counts.of_add, Event.tally]
  simp [List.countP_singleton]

theorem of_notice (telemetry : Telemetry) (notice : Notice) (now : Instant) (kind : Count) :
    (telemetry.notice now notice).metrics.global.of kind =
      telemetry.metrics.global.of kind + Event.tally (notice.events now) kind := by
  cases notice with
  | enqueued jobs =>
      rw [Telemetry.notice, Notice.events]
      induction jobs generalizing telemetry with
      | nil => rfl
      | cons job rest ih =>
          have first := telemetry.of_tell job.jobType job.receipt.id
            (.enqueued job.jobType job.correlationId job.receipt.isCoalesced) now kind
          rw [List.foldl_cons, ih, List.map_cons, ← List.singleton_append, Event.tally_append,
            ← Nat.add_assoc]
          exact congrArg (· + _) first
  | effects effects => rfl
  | settled record settlement =>
      cases settlement with
      | completed => exact telemetry.of_tell _ _ (.completed _) now kind
      | retrying notBefore error => exact telemetry.of_tell _ _ (.retrying _ notBefore error) now kind
      | superseded survivor => exact telemetry.of_tell _ _ (.superseded survivor) now kind
      | deadLettered error => exact telemetry.of_tell _ _ (.failed _ error) now kind
      | missing => rfl
  | canceled id jobType => exact telemetry.of_tell jobType id .canceled now kind
  | requeued => rfl

theorem of_foldl (telemetry : Telemetry) (utterances : List Utterance) (kind : Count) :
    (utterances.foldl Utterance.apply telemetry).metrics.global.of kind =
      telemetry.metrics.global.of kind +
        Event.tally (utterances.flatMap Utterance.events) kind := by
  induction utterances generalizing telemetry with
  | nil => rfl
  | cons utterance rest ih =>
      have first : (utterance.apply telemetry).metrics.global.of kind =
          telemetry.metrics.global.of kind + Event.tally utterance.events kind := by
        cases utterance with
        | told teller notice now => exact telemetry.of_notice notice now kind
        | started record now =>
            exact telemetry.of_tell _ record.id (.started _ record.attempts) now kind
      rw [List.foldl_cons, ih, first, List.flatMap_cons, Event.tally_append, Nat.add_assoc]

end Telemetry

/-- What a notice begins after the commit: the keys go to the invalidator in one call, if there are
any, and then the actions run in order. -/
def Notice.begins : Notice → List Happening
  | .effects asked =>
      (if asked.keys = [] then [] else [.invalidated asked.keys]) ++ asked.actions.map .ran
  | _ => []

def Utterance.begins : Utterance → List Happening
  | .told _ notice _ => notice.begins
  | .started _ _ => []

theorem Utterance.begins_eq (utterance : Utterance) :
    utterance.begins = utterance.happenings := by
  cases utterance with
  | started record now => rfl
  | told teller notice now =>
      cases notice with
      | effects effects => exact (effects.begun_passage .idle).symm
      | _ => rfl

/-- Between the two the engine has published the events of what was uttered, has counted each of them
once, under its kind, and has begun the effects, all in order. -/
structure Engine.Published {Business : Type} (engine after : Engine Business)
    (utterances : List Utterance) : Prop where
  events : after.telemetry.events =
    engine.telemetry.events ++ utterances.flatMap Utterance.events
  counts : ∀ kind, after.telemetry.metrics.global.of kind =
    engine.telemetry.metrics.global.of kind +
      Event.tally (utterances.flatMap Utterance.events) kind
  begun : after.happenings = engine.happenings ++ utterances.flatMap Utterance.begins

theorem Engine.Told.published {Business : Type} {engine after : Engine Business}
    {utterances : List Utterance} (told : Told engine after utterances) :
    Published engine after utterances where
  events := by rw [told.telemetry, Telemetry.events_foldl]
  counts := fun kind => by rw [told.telemetry, Telemetry.of_foldl]
  begun := by
    rw [told.happenings]
    exact congrArg _ (List.flatMap_congr fun utterance _ => utterance.begins_eq.symm)

end DurableJobs
