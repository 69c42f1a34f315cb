import DurableJobs.Proofs.Writer.Journal
import DurableJobs.Proofs.Writer.Shutdown

/-!
What a call of `shutdown` has waited for when it returns.

A call waits for the worker whose handle it takes, and the handle can be taken only once. The first
call takes the handle of the active worker, so nothing is executed any more when it returns. A call
that finds it taken waits for nobody.
-/

set_option autoImplicit false

namespace DurableJobs.Writer

variable {World Result : Type}

def ShutdownStage.isReturned : ShutdownStage World Result → Bool
  | .returned => true
  | _ => false

/-- The handle that a call still waits for, if any. -/
def ShutdownStage.awaits? : ShutdownStage World Result → Option (Option Nat)
  | .announced handle => some handle
  | .signalled handle => some handle
  | _ => none

namespace Serializer

/-- The workers that only refuse the work that they took from the queue. -/
def refusing (writer : Serializer World Result) : List (Worker World Result) :=
  writer.workers.filter fun worker => !worker.stage.isActive

/-- There is nobody but the worker whose handle a call took and workers that were refusing work when
the call began; once the call waits no longer, that worker is gone. -/
structure Joins (call : Nat) (handle : Option Nat) (refusing : List Nat)
    (writer : Serializer World Result) : Prop where
  shut : writer.IsShut
  waits : ∃ stage, ⟨call, stage⟩ ∈ writer.shutdowns ∧
    (stage.awaits? = some handle ∨
      (stage.awaits? = none ∧ ∀ worker ∈ writer.workers, handle ≠ some worker.id))
  left : ∀ worker ∈ writer.workers,
    handle = some worker.id ∨ (worker.id ∈ refusing ∧ worker.stage.isActive = false)

section Joins

variable {writer after rest : Serializer World Result} {event : Event World Result}
  {call : Nat} {handle : Option Nat} {refusing : List Nat}

theorem mem_refusing_of_inactive {worker : Worker World Result} (member : worker ∈ writer.workers)
    (refuses : worker.stage.isActive = false) :
    worker.id ∈ writer.refusing.map Worker.id := by
  apply List.mem_map_of_mem
  exact List.mem_filter.mpr ⟨member, by simp [refuses]⟩

/-- The first call takes the handle of the active worker. -/
theorem Sound.joins (sound : writer.Sound) (first : writer.shutdowns = []) (call : Nat) :
    ∃ handle, (writer.beginShutdown call).Joins call handle (writer.refusing.map Worker.id) := by
  have inPlace : ∀ worker ∈ writer.workers, worker ∈ writer.active ∨
      worker.id ∈ writer.refusing.map Worker.id ∧ worker.stage.isActive = false := by
    intro worker member
    cases isActive : worker.stage.isActive with
    | true => exact .inl (List.mem_filter.mpr ⟨member, isActive⟩)
    | false => exact .inr ⟨mem_refusing_of_inactive member isActive, rfl⟩
  rcases beginShutdown_cases writer call with
    ⟨isStopped, _⟩ | ⟨isIdle, isAfter⟩ | ⟨notIdle, _, isAfter⟩
  · exact absurd first (sound.phase.of_stopped isStopped).2.1
  · rw [isAfter]
    refine ⟨none, .inr rfl, ⟨.announced none, by simp [first], .inl rfl⟩, ?_⟩
    intro worker member
    rcases inPlace worker member with isActive | refuses
    · rw [(sound.active_of_idle isIdle).1] at isActive
      cases isActive
    · exact .inr refuses
  · rw [isAfter]
    refine ⟨writer.joinable, .inl rfl, ⟨.announced writer.joinable, by simp [first], .inl rfl⟩, ?_⟩
    intro worker member
    rcases inPlace worker member with isActive | refuses
    · left
      rcases sound.phase.of_quiet first with
        ⟨isIdle, _⟩ | ⟨_, ⟨only, isOnly, joinable⟩ | ⟨nobody, _⟩⟩
      · exact absurd isIdle notIdle
      · rw [isOnly] at isActive
        obtain rfl := List.mem_singleton.mp isActive
        exact joinable
      · rw [nobody] at isActive
        cases isActive
    · exact .inr refuses

theorem Joins.turn (joins : writer.Joins call handle refusing) (distinct : writer.Distinct)
    {id : Nat} {stage : WorkerStage World Result} {next? : Option (WorkerStage World Result)}
    (found : writer.worker? id = some stage) (turn : Turn writer stage next? rest)
    (shut : (rest.place id next?).IsShut) : (rest.place id next?).Joins call handle refusing := by
  have cast := turn.sameCast.1
  have here := mem_of_worker? found
  refine ⟨shut, ?_, ?_⟩
  · obtain ⟨part, isPart, awaits⟩ := joins.waits
    refine ⟨part, cast.shutdowns.symm ▸ isPart, awaits.imp_right ?_⟩
    rintro ⟨isJoined, gone⟩
    refine ⟨isJoined, fun worker member => ?_⟩
    rcases cast.mem_place distinct found member with ⟨next, _, rfl⟩ | old
    · exact gone ⟨id, stage⟩ here
    · exact gone worker old
  · intro worker member
    rcases cast.mem_place distinct found member with ⟨next, isNext, rfl⟩ | old
    · refine (joins.left _ here).imp_right ?_
      rintro ⟨wasRefusing, refuses⟩
      exact ⟨wasRefusing, (turn.refusing refuses).1 next isNext⟩
    · exact joins.left worker old

theorem Joins.proceed (joins : writer.Joins call handle refusing) (distinct : writer.Distinct)
    {other : Nat} {stage next : ShutdownStage World Result}
    (found : writer.shutdown? other = some stage) (turn : CallTurn writer stage next rest)
    (shut : (rest.setShutdown other next).IsShut) :
    (rest.setShutdown other next).Joins call handle refusing := by
  have cast := turn.sameCast
  have sameWorkers : (rest.setShutdown other next).workers = writer.workers := cast.workers
  obtain ⟨part, isPart, awaits⟩ := joins.waits
  refine ⟨shut, ?_, sameWorkers ▸ joins.left⟩
  rw [sameWorkers]
  -- Another call changes nothing for this one, whatever it does to the queue.
  by_cases isOther : call = other
  · subst isOther
    obtain ⟨_, rfl⟩ := Shutdown.mk.inj (distinct.eq_of_call found isPart rfl)
    refine ⟨next, (cast.mem_setShutdown distinct found).mpr (.inl rfl), ?_⟩
    cases turn with
    | signal => exact awaits
    | join ended =>
        right
        refine ⟨rfl, fun worker member isHandle => ?_⟩
        rcases awaits with isAwaited | ⟨isJoined, _⟩
        · have gone := ended worker.id ((Option.some.inj isAwaited).trans isHandle)
          cases gone.symm.trans (distinct.worker?_of_mem member)
        · cases isJoined
    | empty => exact awaits
    | refuse => exact awaits
    | «return» => exact awaits
  · exact ⟨part, (cast.mem_setShutdown distinct found).mpr (.inr ⟨isPart, isOther⟩), awaits⟩

theorem Joins.step (joins : writer.Joins call handle refusing) (distinct : writer.Distinct)
    (taken : writer.step event = some after) (goesOn : writer.isLapse event = false) :
    after.Joins call handle refusing := by
  have shut := (staysShut_of_step joins.shut taken goesOn).shut
  cases step_cases taken with
  | submit work canStart =>
      rw [submit_of_isShut joins.shut]
      exact ⟨joins.shut, joins.waits, joins.left⟩
  | cancel token => exact ⟨joins.shut, joins.waits, joins.left⟩
  | turn _ found turn => exact joins.turn distinct found turn shut
  | shutdown =>
      obtain ⟨part, isPart, awaits⟩ := joins.waits
      rcases beginShutdown_cases writer _ with ⟨_, isAfter⟩ | ⟨_, isAfter⟩ | ⟨_, _, isAfter⟩
      all_goals
        rw [isAfter] at shut ⊢
        exact ⟨shut, ⟨part, List.mem_append_left _ isPart, awaits⟩, joins.left⟩
  | proceed found turn => exact joins.proceed distinct found turn shut

theorem Joins.run (joins : writer.Joins call handle refusing) (sound : writer.Sound)
    {events : List (Event World Result)} (ran : writer.run? events = some after)
    (goesOn : Throughout (fun before event _ => before.isLapse event = false) writer events) :
    after.Joins call handle refusing := by
  induction events generalizing writer with
  | nil =>
      obtain rfl := Option.some.inj ran
      exact joins
  | cons event rest ih =>
      obtain ⟨middle, taken, isRest⟩ := Option.bind_eq_some_iff.mp ran
      obtain ⟨noLapse, later⟩ := goesOn middle taken
      exact ih (joins.step sound.distinct taken noLapse) (sound.step taken) isRest later

/-- Only workers that were refusing work already are left when the call returns. -/
theorem Joins.left_of_returned (joins : writer.Joins call handle refusing)
    (distinct : writer.Distinct) (returned : writer.shutdown? call = some .returned) :
    ∀ worker ∈ writer.workers, worker.id ∈ refusing ∧ worker.stage.isActive = false := by
  obtain ⟨part, isPart, awaits⟩ := joins.waits
  obtain ⟨_, rfl⟩ := Shutdown.mk.inj (distinct.eq_of_call returned isPart rfl)
  intro worker member
  rcases awaits with isAwaited | ⟨_, gone⟩
  · cases isAwaited
  · exact (joins.left worker member).resolve_left (gone worker member)

end Joins

end Serializer

namespace Journal

open Serializer

section Returned

variable {journal later : Journal World Result}

theorem tally_self_pos {works : List (Work World Result)} {work : Work World Result}
    (member : work ∈ works) : 0 < tally works work.ticket :=
  List.count_pos_iff.mpr (List.mem_map_of_mem member)

/-- Once the queue is empty, all units are answered if and only if nobody has one. -/
theorem Accounted.answered_iff (accounted : journal.Accounted)
    (empty : journal.writer.queue = []) :
    (∀ ticket, answers journal.writer.replies ticket = tally journal.submitted ticket) ↔
      journal.writer.underway = [] ∧ journal.writer.inHand = [] := by
  have balance : ∀ ticket, tally journal.submitted ticket =
      answers journal.writer.replies ticket + tally journal.writer.underway ticket +
        tally journal.writer.inHand ticket := by
    intro ticket
    have submitted := accounted.submitted ticket
    have begun := accounted.begun ticket
    have replies := accounted.replies ticket
    rw [empty, tally_nil] at submitted
    omega
  constructor
  · intro answered
    refine ⟨List.eq_nil_iff_forall_not_mem.mpr fun work member => ?_,
      List.eq_nil_iff_forall_not_mem.mpr fun work member => ?_⟩
    · have some := tally_self_pos member
      have all := balance work.ticket
      have done := answered work.ticket
      omega
    · have some := tally_self_pos member
      have all := balance work.ticket
      have done := answered work.ticket
      omega
  · rintro ⟨noneRuns, noneHeld⟩ ticket
    have all := balance ticket
    rw [noneRuns, noneHeld, tally_nil] at all
    omega

/-- A writer with a call that has returned is stopped for good. -/
theorem Reachable.stopped_of_returned (reachable : journal.Reachable) {call : Nat}
    (returned : journal.writer.shutdown? call = some .returned) :
    journal.writer.state = .stopped ∧ journal.writer.queue = [] := by
  have sound := reachable.writer.sound
  have isStopped := sound.finished _ (mem_of_shutdown? returned) rfl
  exact ⟨isStopped, (sound.phase.of_stopped isStopped).1⟩

/-- The course of the first call leaves nobody but workers that were refusing work when it began. -/
theorem Reachable.joins_of_run (reachable : journal.Reachable) {call : Nat}
    {events : List (Event World Result)} (first : journal.writer.shutdowns = [])
    (ran : journal.run? (.shutdown call :: events) = some later)
    (goesOn : Throughout (fun before event _ => before.isLapse event = false) journal.writer
      (.shutdown call :: events)) :
    ∃ handle, later.writer.Joins call handle (journal.writer.refusing.map Worker.id) := by
  have sound := reachable.writer.sound
  have fresh : journal.writer.shutdown? call = none := by simp [shutdown?, first]
  have taken : journal.writer.step (.shutdown call) = some (journal.writer.beginShutdown call) := by
    simp [Serializer.step, fresh]
  have isRest : (journal.writer.beginShutdown call).run? events = some later.writer := by
    simpa only [Serializer.run?, taken, Option.bind_some] using run?_writer ran
  obtain ⟨handle, joins⟩ := sound.joins first call
  exact ⟨handle, joins.run (sound.step taken) isRest (goesOn _ taken).2⟩

/-- What holds once a call has returned: whatever is not answered is what somebody has. -/
structure Returned (journal : Journal World Result) : Prop where
  stopped : journal.writer.state = .stopped
  empty : journal.writer.queue = []
  answered_iff :
    (∀ ticket, answers journal.writer.replies ticket = tally journal.submitted ticket) ↔
      journal.writer.underway = [] ∧ journal.writer.inHand = []

/-- What the first call has waited for when it returns: at most workers that were refusing work when
it began are left. -/
structure Joined (before after : Journal World Result) : Prop where
  alone : after.writer.underway = []
  left : ∀ worker ∈ after.writer.workers, worker.id ∈ before.writer.refusing.map Worker.id
  answered : before.writer.refusing = [] → after.writer.workers = [] ∧
    ((∀ shutdown ∈ after.writer.shutdowns, shutdown.stage.inHand = []) →
      ∀ ticket, answers after.writer.replies ticket = tally after.submitted ticket)

/-- Whenever a call has returned, the writer is stopped for good. The first call, if no worker
lapses in its course, has waited for the unit in flight, whatever other calls do. -/
theorem returned_call (reachable : journal.Reachable) (call : Nat) :
    (journal.writer.shutdown? call = some .returned → journal.Returned) ∧
      ∀ events later, journal.writer.shutdowns = [] →
        journal.run? (.shutdown call :: events) = some later →
        Throughout (fun before event _ => before.isLapse event = false) journal.writer
          (.shutdown call :: events) →
        later.writer.shutdown? call = some .returned → journal.Joined later := by
  refine ⟨fun returned => ?_, ?_⟩
  · obtain ⟨isStopped, empty⟩ := reachable.stopped_of_returned returned
    exact ⟨isStopped, empty, reachable.accounted.answered_iff empty⟩
  · intro events later first ran goesOn returned
    have laterReachable := reachable.run ran
    obtain ⟨handle, joins⟩ := reachable.joins_of_run first ran goesOn
    have left := joins.left_of_returned laterReachable.writer.sound.distinct returned
    have noneRuns : later.writer.underway = [] := by
      refine List.flatMap_eq_nil_iff.mpr fun worker member => ?_
      have refuses := (left worker member).2
      generalize worker.stage = stage at refuses
      cases stage <;> first | rfl | cases refuses
    refine ⟨noneRuns, fun worker member => (left worker member).1, fun nobody => ?_⟩
    have noWorkers : later.writer.workers = [] := by
      refine List.eq_nil_iff_forall_not_mem.mpr fun worker member => ?_
      have wasRefusing := (left worker member).1
      rw [nobody] at wasRefusing
      cases wasRefusing
    refine ⟨noWorkers, fun noneHeld => ?_⟩
    have empty := (laterReachable.stopped_of_returned returned).2
    refine (laterReachable.accounted.answered_iff empty).mpr ⟨noneRuns, ?_⟩
    simpa [Serializer.inHand, noWorkers] using noneHeld

/-- One unit is executed and another is queued when the first call begins. -/
theorem returned_call_sample :
    ∃ journal : Journal Nat Nat,
      (Journal.new (WriterConfig.new "main" "w.db") (fun world => (.ok (), world))
          (fun world => (.ok (), world)) 0).run?
        [.submit ⟨0, none, false, true, fun world => (.done 1, world)⟩ true,
          .submit ⟨1, none, false, true, fun world => (.done 2, world)⟩ true,
          .work 0, .work 0, .work 0, .work 0] = some journal ∧
      journal.writer.underway.map Work.ticket = [0] ∧
      ∃ later, journal.run?
          [.shutdown 0, .proceed 0, .work 0, .work 0, .work 0, .work 0, .work 0, .proceed 0,
            .proceed 0, .proceed 0] = some later ∧
        later.writer.replies.map Reply.ticket = [0, 1] ∧ journal.Joined later := by
  refine exists_of_map_eq_some rfl fun journal ran _ => ?_
  have reachable := (Reachable.new _ _ _ _).run ran
  obtain rfl := Option.some.inj ran
  refine exists_of_map_eq_some rfl fun later course _ => ?_
  refine (returned_call reachable 0).2 _ later rfl course (by decide +kernel) ?_
  obtain rfl := Option.some.inj course
  rfl

/-- A second call finds the handle taken, waits for nobody, and returns while the unit that was
accepted before it is still executed and has no reply. -/
theorem shutdown_returns_early :
    (((Journal.new (WriterConfig.new "main" "w.db") (fun world => (.ok (), world))
          (fun world => (.ok (), world)) 0 : Journal Nat Nat).run?
        [.submit ⟨0, none, false, true, fun world => (.done 1, world)⟩ true, .work 0, .work 0,
          .work 0, .work 0, .shutdown 0, .shutdown 1, .proceed 1, .proceed 1, .proceed 1,
          .proceed 1]).map fun journal =>
      ((journal.writer.shutdown? 1).map ShutdownStage.isReturned,
        journal.writer.underway.map Work.ticket, answers journal.writer.replies 0)) =
      some (some true, [0], 0) := by
  decide +kernel

end Returned

end Journal

end DurableJobs.Writer
