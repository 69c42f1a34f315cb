import DurableJobs.Proofs.Engine.Executions

/-!
What an engine tells, and who tells it.

The counts, the events and the effects of an engine are what its moves have told, in order. What an
execution has committed is told by its own reports and by nothing else, each notice once and in
order.
-/

set_option autoImplicit false

namespace DurableJobs

/-- Something told: a notice, by the execution with a ticket or by no execution, or a start. -/
inductive Utterance where
  | told (teller : Option Nat) (notice : Notice) (now : Instant)
  | started (record : Record) (now : Instant)

namespace Utterance

def apply (telemetry : Telemetry) : Utterance → Telemetry
  | .told _ notice now => telemetry.notice now notice
  | .started record now => telemetry.started record now

def happenings : Utterance → List Happening
  | .told _ (.effects effects) _ => effects.run
  | _ => []

def toldBy? (ticket : Nat) : Utterance → Option Notice
  | .told teller notice _ => if teller = some ticket then some notice else none
  | .started _ _ => none

end Utterance

namespace Engine

variable {Business : Type}

def utterances (engine : Engine Business) : Move Business → List Utterance
  | .announce place now =>
      match engine.owed[place]? with
      | some (notice :: _) => [.told none notice now]
      | _ => []
  | .launch now =>
      match engine.dispatcher.map Dispatcher.phase with
      | some (.launching (notice :: _) _ _) => [.told none notice now]
      | some (.launching [] (record :: _) _) =>
          if engine.registry.isRegistered record.jobType then [.started record now] else []
      | _ => []
  | .report ticket now =>
      match (engine.execution? ticket).map Execution.stage with
      | some (.reporting (notice :: _)) => [.told (some ticket) notice now]
      | _ => []
  | _ => []

def log (engine : Engine Business) : List (Move Business) → List Utterance
  | [] => []
  | move :: rest =>
      engine.utterances move ++
        match engine.step move with
        | none => []
        | some after => after.log rest

theorem telemetry_tell (engine : Engine Business) (notice : Notice) (now : Instant) :
    (engine.tell notice now).telemetry = engine.telemetry.notice now notice := by
  cases notice with
  | enqueued jobs => by_cases none : jobs.isEmpty <;> simp [tell, none]
  | _ => rfl

theorem happenings_tell (engine : Engine Business) (teller : Option Nat) (notice : Notice)
    (now : Instant) :
    (engine.tell notice now).happenings =
      engine.happenings ++ (Utterance.told teller notice now).happenings := by
  cases notice with
  | enqueued jobs => by_cases none : jobs.isEmpty <;> simp [tell, none, Utterance.happenings]
  | effects effects => rfl
  | _ => simp [tell, Utterance.happenings]

structure Told (engine after : Engine Business) (utterances : List Utterance) : Prop where
  telemetry : after.telemetry = utterances.foldl Utterance.apply engine.telemetry
  happenings : after.happenings = engine.happenings ++ utterances.flatMap Utterance.happenings

section Told

variable {engine middle after : Engine Business}

theorem Told.silent (telemetry : after.telemetry = engine.telemetry)
    (happenings : after.happenings = engine.happenings) : Told engine after [] :=
  ⟨telemetry, by rw [happenings]; simp⟩

theorem Told.trans {first second : List Utterance} (before : Told engine middle first)
    (later : Told middle after second) : Told engine after (first ++ second) where
  telemetry := by rw [later.telemetry, before.telemetry, List.foldl_append]
  happenings := by rw [later.happenings, before.happenings, List.flatMap_append, List.append_assoc]

theorem told_tell (changed : Engine Business) (telemetry : changed.telemetry = engine.telemetry)
    (happenings : changed.happenings = engine.happenings) (teller : Option Nat) (notice : Notice)
    (now : Instant) : Told engine (changed.tell notice now) [.told teller notice now] where
  telemetry := by rw [telemetry_tell, telemetry]; rfl
  happenings := by rw [changed.happenings_tell teller, happenings]; simp

theorem Told.of_turned (turns : ∃ before later, Turned engine after before later) :
    Told engine after [] := by
  obtain ⟨before, later, turned⟩ := turns
  exact .silent turned.telemetry turned.happenings

theorem Told.of_called (called : Called engine after) : Told engine after [] :=
  .silent called.telemetry called.happenings

theorem Told.announce {place : Nat} {now : Instant}
    (taken : engine.announce place now = some after) :
    Told engine after (engine.utterances (.announce place now)) := by
  unfold Engine.announce at taken
  split at taken
  · cases taken
  · next silent =>
      cases taken
      simp only [utterances, silent]
      exact .silent rfl rfl
  · next notice rest speaking =>
      cases taken
      simp only [utterances, speaking]
      refine told_tell { engine with owed := engine.owed.set place rest } ?_ ?_ none notice now
      · rfl
      · rfl

theorem Told.launch {now : Instant} (taken : engine.launch now = some after) :
    Told engine after (engine.utterances (.launch now)) := by
  obtain ⟨dispatcher, found, told | dropped | launched | ended⟩ := launch_cases taken
  · obtain ⟨notice, notices, claimed, tick, isLaunching, rfl⟩ := told
    simp only [utterances, found, Option.map_some, isLaunching]
    refine told_tell (engine.enterPhase dispatcher (.launching notices claimed tick)) ?_ ?_ none
      notice now
    · rfl
    · rfl
  · obtain ⟨record, claimed, tick, isLaunching, unknown, rfl⟩ := dropped
    simp only [utterances, found, Option.map_some, isLaunching, unknown]
    exact .silent rfl rfl
  · obtain ⟨record, claimed, tick, kind, stage, free, isLaunching, known, _, _, rfl⟩ := launched
    simp only [utterances, found, Option.map_some, isLaunching, known, if_true]
    exact ⟨rfl, by simp [Utterance.happenings]⟩
  · obtain ⟨tick, isLaunching, rfl⟩ := ended
    simp only [utterances, found, Option.map_some, isLaunching]
    exact .silent rfl rfl

/-- A move tells what it is said to tell, and nothing else. -/
theorem step_told {move : Move Business} (taken : engine.step move = some after) :
    Told engine after (engine.utterances move) := by
  cases move with
  | transact program now => exact .of_called (called_of_step rfl taken)
  | enqueue job now => exact .of_called (called_of_step rfl taken)
  | enqueueAll jobs correlation now => exact .of_called (called_of_step rfl taken)
  | cancel id => exact .of_called (called_of_step rfl taken)
  | requeue id now => exact .of_called (called_of_step rfl taken)
  | announce place now => exact .announce taken
  | start =>
      obtain rfl := Option.some.inj taken
      rcases engine.start_cases with same | ⟨_, marked | ⟨free, started⟩⟩
      · exact .silent (by rw [same]) (by rw [same])
      · exact .silent (by rw [marked]) (by rw [marked])
      · exact .silent (by rw [started]) (by rw [started])
  | requestStop => exact .of_turned (requestStop_turned taken)
  | recover draw now =>
      obtain ⟨_, _, _, _, _, rfl⟩ := recover_cases taken
      exact .silent rfl rfl
  | count => exact .of_turned (count_turned taken)
  | scan now later => exact .of_turned (scan_turned taken)
  | decide now =>
      obtain ⟨_, _, _, _, turned | ⟨_, _, _, _, _, rfl⟩⟩ := decide_cases taken
      · exact .of_turned turned
      · exact .silent rfl rfl
  | launch now => exact .launch taken
  | rest now => exact .of_turned (rest_turned taken)
  | wake waking => exact .of_turned (wake_turned taken)
  | finish =>
      obtain ⟨_, _, _, _, rfl⟩ := finish_cases taken
      exact .silent rfl rfl
  | runQueued executor draw now =>
      obtain ⟨_, _, _, _, _, rfl⟩ := runQueued_cases taken
      exact .silent rfl rfl
  | acquire ticket =>
      obtain ⟨_, _, _, _, rfl⟩ := acquire_cases taken
      exact .silent rfl rfl
  | giveBack ticket result =>
      obtain ⟨_, _, _, rfl⟩ := return?_cases taken
      exact .silent rfl rfl
  | settle ticket draw now =>
      obtain ⟨_, _, _, _, ⟨_, rfl⟩ | ⟨_, _, rfl⟩ | ⟨_, _, _, _, rfl⟩⟩ := settle_cases taken
      · exact .silent rfl rfl
      · exact .silent rfl rfl
      · exact .silent rfl rfl
  | report ticket now =>
      obtain ⟨execution, found, ⟨silent, rfl⟩ | ⟨notice, rest, speaking, rfl⟩⟩ :=
        report_cases taken
      · simp only [utterances, found, Option.map_some, silent]
        exact .silent rfl rfl
      · simp only [utterances, found, Option.map_some, speaking]
        refine told_tell (engine.setStage ticket (.reporting rest)) ?_ ?_ (some ticket) notice now
        · rfl
        · rfl
  | stopWriter => exact Option.some.inj taken ▸ .silent rfl rfl

theorem run_told {moves : List (Move Business)} (ran : engine.run? moves = some after) :
    Told engine after (engine.log moves) := by
  induction moves generalizing engine with
  | nil => exact Option.some.inj ran ▸ .silent rfl rfl
  | cons move rest ih =>
      obtain ⟨middle, taken, isRest⟩ := Option.bind_eq_some_iff.mp ran
      simp only [log, taken]
      exact (step_told taken).trans (ih isRest)

end Told

/-! ### Reports -/

/-- The execution with the ticket has settled, and these notices are what it is still to tell; it
may be gone once there are none. -/
def Untold (engine : Engine Business) (ticket : Nat) (notices : List Notice) : Prop :=
  ticket < engine.nextTicket ∧
    ((∃ execution ∈ engine.executions, execution.ticket = ticket ∧
        execution.stage = .reporting notices) ∨
      (notices = [] ∧
        ∀ execution ∈ engine.executions, execution.ticket = ticket → execution.stage = .ended))

/-- What the execution with the ticket has told in the course of some moves. -/
def reports (engine : Engine Business) (moves : List (Move Business)) (ticket : Nat) :
    List Notice :=
  (engine.log moves).filterMap (Utterance.toldBy? ticket)

section Untold

variable {engine after : Engine Business} {ticket : Nat} {notices : List Notice}

theorem Sound.eq_of_ticket (sound : engine.Sound) {left right : Execution}
    (leftMember : left ∈ engine.executions) (rightMember : right ∈ engine.executions)
    (same : left.ticket = right.ticket) : left = right :=
  List.inj_on_of_nodup_map sound.distinct leftMember rightMember same

theorem Sound.execution?_of_mem (sound : engine.Sound) {execution : Execution}
    (member : execution ∈ engine.executions) :
    engine.execution? execution.ticket = some execution := by
  cases found : engine.execution? execution.ticket with
  | some other =>
      obtain ⟨otherMember, same⟩ := mem_of_execution? found
      rw [sound.eq_of_ticket otherMember member same]
  | none =>
      cases isDispatcher : engine.dispatcher with
      | none => simp [executions, isDispatcher] at member
      | some dispatcher =>
          rw [executions_of_dispatcher isDispatcher] at member
          rw [execution?, isDispatcher, Option.bind_some, List.find?_eq_none] at found
          exact absurd (beq_self_eq_true _) (found execution member)

theorem Sound.run {moves : List (Move Business)} (sound : engine.Sound)
    (ran : engine.run? moves = some after) : after.Sound := by
  induction moves generalizing engine with
  | nil => exact Option.some.inj ran ▸ sound
  | cons move rest ih =>
      obtain ⟨middle, taken, isRest⟩ := Option.bind_eq_some_iff.mp ran
      exact ih ((step_shift taken).sound sound) isRest

theorem Untold.stage_not_owning (untold : engine.Untold ticket notices) (sound : engine.Sound)
    {execution : Execution} (member : execution ∈ engine.executions)
    (isTicket : execution.ticket = ticket) : execution.stage.isOwning = false := by
  rcases untold.2 with ⟨holder, holderMember, holderTicket, reporting⟩ | ⟨_, ended⟩
  · obtain rfl := sound.eq_of_ticket member holderMember (isTicket.trans holderTicket.symm)
    rw [reporting]
    rfl
  · rw [ended execution member isTicket]
    rfl

theorem Redirected.untold {before later : Dispatcher}
    (redirected : Redirected engine after before later) (untold : engine.Untold ticket notices) :
    after.Untold ticket notices := by
  obtain ⟨issued, holds⟩ := untold
  refine ⟨redirected.nextTicket ▸ issued, ?_⟩
  rcases holds with ⟨holder, member, isTicket, reporting⟩ | ⟨silent, ended⟩
  · refine .inl ⟨holder, ?_, isTicket, reporting⟩
    rw [executions_of_dispatcher redirected.found] at member
    rw [executions_of_dispatcher redirected.dispatcher]
    rcases redirected.executions with same | reaped
    · rw [same]
      exact member
    · rw [reaped]
      exact List.mem_filter.mpr ⟨member, by rw [reporting]⟩
  · exact .inr ⟨silent, fun execution member => ended execution (redirected.sublist.mem member)⟩

theorem Staged.untold_of_ne {execution : Execution} {stage : ExecutionStage}
    (staged : Staged engine after execution stage) (different : execution.ticket ≠ ticket)
    (untold : engine.Untold ticket notices) : after.Untold ticket notices := by
  obtain ⟨issued, holds⟩ := untold
  refine ⟨staged.nextTicket ▸ issued, ?_⟩
  rw [staged.executions]
  rcases holds with ⟨holder, member, isTicket, reporting⟩ | ⟨silent, ended⟩
  · refine .inl ⟨holder, List.mem_map.mpr ⟨holder, member, if_neg ?_⟩, isTicket, reporting⟩
    exact fun same => different (same.symm.trans isTicket)
  · refine .inr ⟨silent, fun later member isTicket => ?_⟩
    obtain ⟨old, oldMember, rfl⟩ := List.mem_map.mp member
    split at isTicket
    · next same => exact absurd (same.symm.trans isTicket) different
    · next notSame =>
        rw [if_neg notSame]
        exact ended old oldMember isTicket

theorem Untold.stopWriter (untold : engine.Untold ticket notices) :
    engine.stopWriter.Untold ticket notices := by
  obtain ⟨issued, holds⟩ := untold
  refine ⟨issued, ?_⟩
  rw [executions_stopWriter]
  rcases holds with ⟨holder, member, isTicket, reporting⟩ | ⟨silent, ended⟩
  · exact .inl ⟨holder, List.mem_map.mpr ⟨holder, member, by simp [reporting]⟩, isTicket,
      reporting⟩
  · refine .inr ⟨silent, fun later member isTicket => ?_⟩
    obtain ⟨old, oldMember, rfl⟩ := List.mem_map.mp member
    split at isTicket
    · simp
    · next notQueued => simp [ended old oldMember isTicket]

/-- A move that is not a report of the execution leaves what it is to tell. -/
theorem Shift.untold {move : Move Business} (shift : Shift engine move after)
    (sound : engine.Sound) (untold : engine.Untold ticket notices)
    (other : move.reporter? ≠ some ticket) : after.Untold ticket notices := by
  cases shift with
  | same same =>
      rw [Untold, same.executions, same.nextTicket]
      exact untold
  | begun idle _ dispatcher nextTicket _ =>
      -- An idle engine has no executions, so this one is gone and has told everything.
      have unstarted := sound.dispatcher_eq_none idle
      have none : after.executions = [] := by
        rcases dispatcher with same | ⟨free, started⟩
        · simp [executions, same, unstarted]
        · simp [executions, started]
      refine ⟨nextTicket ▸ untold.1, ?_⟩
      rcases untold.2 with ⟨holder, member, _⟩ | ⟨silent, _⟩
      · simp [executions, unstarted] at member
      · exact .inr ⟨silent, by simp [none]⟩
  | redirected redirected => exact redirected.untold untold
  | @launched before later execution found dispatcher executions isNext nextTicket =>
      -- The new execution has a ticket of its own.
      have all : after.executions = engine.executions ++ [execution] := by
        rw [executions_of_dispatcher found, executions_of_dispatcher dispatcher, executions]
      obtain ⟨issued, holds⟩ := untold
      refine ⟨by omega, ?_⟩
      rcases holds with ⟨holder, member, isTicket, reporting⟩ | ⟨silent, ended⟩
      · exact .inl ⟨holder, all ▸ List.mem_append_left _ member, isTicket, reporting⟩
      · refine .inr ⟨silent, fun old member isTicket => ?_⟩
        rw [all] at member
        rcases List.mem_append.mp member with isOld | isNew
        · exact ended old isOld isTicket
        · rw [List.mem_singleton.mp isNew] at isTicket
          omega
  | @staged execution stage staged goesOn =>
      refine staged.untold_of_ne ?_ untold
      rintro isTicket
      rcases goesOn with ⟨owning, _⟩ | ⟨reporter, _⟩
      · cases owning.symm.trans (untold.stage_not_owning sound staged.member isTicket)
      · exact other (isTicket ▸ reporter)
  | finished found allEnded dispatcher nextTicket =>
      -- A dispatcher ends after all its executions, so this one has told everything.
      refine ⟨nextTicket ▸ untold.1, ?_⟩
      rcases untold.2 with ⟨holder, member, isTicket, reporting⟩ | ⟨silent, _⟩
      · rw [executions_of_dispatcher found] at member
        have kept : holder ∈ (Dispatcher.reap _).executions :=
          List.mem_filter.mpr ⟨member, by rw [reporting]⟩
        rw [allEnded] at kept
        cases kept
      · exact .inr ⟨silent, by simp [executions, dispatcher]⟩
  | stopped isStopped => exact isStopped ▸ untold.stopWriter

theorem Untold.report {now : Instant} (untold : engine.Untold ticket notices)
    (sound : engine.Sound) (taken : engine.report ticket now = some after) :
    ∃ said rest, notices = said ++ rest ∧ after.Untold ticket rest ∧
      (engine.utterances (.report ticket now)).filterMap (Utterance.toldBy? ticket) = said := by
  obtain ⟨execution, found, told⟩ := report_cases taken
  obtain ⟨member, isTicket⟩ := mem_of_execution? found
  obtain ⟨issued, ⟨holder, holderMember, holderTicket, reporting⟩ | ⟨_, ended⟩⟩ := untold
  · obtain rfl := sound.eq_of_ticket member holderMember (isTicket.trans holderTicket.symm)
    rcases told with ⟨silent, rfl⟩ | ⟨notice, rest, speaking, rfl⟩
    · obtain rfl : notices = [] := ExecutionStage.reporting.inj (reporting.symm.trans silent)
      have staged := staged_setStage member
        (rfl : ExecutionStage.ended.isQueued = false) (.refl engine)
      rw [isTicket] at staged
      refine ⟨[], [], rfl, ⟨issued, .inr ⟨rfl, fun later laterMember laterTicket => ?_⟩⟩, ?_⟩
      · rw [staged.executions] at laterMember
        obtain ⟨old, _, rfl⟩ := List.mem_map.mp laterMember
        split
        · rfl
        · next different =>
            rw [if_neg different] at laterTicket
            exact absurd (laterTicket.trans isTicket.symm) different
      · simp [utterances, found, silent]
    · obtain rfl : notices = notice :: rest :=
        ExecutionStage.reporting.inj (reporting.symm.trans speaking)
      have staged := (staged_setStage member
        (rfl : (ExecutionStage.reporting rest).isQueued = false) (.refl engine)).sameWork
        (sameWork_tell _ notice now)
      rw [isTicket] at staged
      refine ⟨[notice], rest, rfl,
        ⟨staged.nextTicket ▸ issued, .inl ⟨_, staged.reached, isTicket, rfl⟩⟩, ?_⟩
      simp [utterances, found, speaking, Utterance.toldBy?]
  · have isEnded := ended execution member isTicket
    rcases told with ⟨silent, _⟩ | ⟨_, _, speaking, _⟩
    · cases isEnded.symm.trans silent
    · cases isEnded.symm.trans speaking

theorem toldBy?_utterances {move : Move Business} (other : move.reporter? ≠ some ticket) :
    (engine.utterances move).filterMap (Utterance.toldBy? ticket) = [] := by
  cases move with
  | announce place now =>
      simp only [utterances]
      split <;> simp [Utterance.toldBy?]
  | launch now =>
      simp only [utterances]
      split
      · simp [Utterance.toldBy?]
      · split <;> simp [Utterance.toldBy?]
      · rfl
  | report reporter now =>
      have different : reporter ≠ ticket := fun same => other (congrArg some same)
      simp only [utterances]
      split <;> simp [Utterance.toldBy?, different]
  | _ => rfl

/-- A move either tells the next of the notices, or leaves them to be told. -/
theorem Untold.step {move : Move Business} (untold : engine.Untold ticket notices)
    (sound : engine.Sound) (taken : engine.step move = some after) :
    ∃ rest, notices =
        (engine.utterances move).filterMap (Utterance.toldBy? ticket) ++ rest ∧
      after.Untold ticket rest := by
  by_cases isReporter : move.reporter? = some ticket
  · cases move with
    | report reporter now =>
        obtain rfl : reporter = ticket := Option.some.inj isReporter
        obtain ⟨said, rest, isSplit, later, isSaid⟩ := untold.report sound taken
        exact ⟨rest, isSaid ▸ isSplit, later⟩
    | _ => cases isReporter
  · exact ⟨notices, by rw [toldBy?_utterances isReporter]; rfl,
      (step_shift taken).untold sound untold isReporter⟩

theorem reports_cons {move : Move Business} (taken : engine.step move = some after)
    (others : List (Move Business)) (ticket : Nat) :
    engine.reports (move :: others) ticket =
      (engine.utterances move).filterMap (Utterance.toldBy? ticket) ++
        after.reports others ticket := by
  simp [reports, log, taken]

/-- What an execution has committed is what it has told and what it is still to tell. -/
theorem Untold.run {moves : List (Move Business)} (untold : engine.Untold ticket notices)
    (sound : engine.Sound) (ran : engine.run? moves = some after) :
    ∃ rest, notices = engine.reports moves ticket ++ rest ∧ after.Untold ticket rest := by
  induction moves generalizing engine notices with
  | nil => exact ⟨notices, rfl, Option.some.inj ran ▸ untold⟩
  | cons move others ih =>
      obtain ⟨middle, taken, isRest⟩ := Option.bind_eq_some_iff.mp ran
      obtain ⟨middleNotices, isFirst, middleUntold⟩ := untold.step sound taken
      obtain ⟨rest, isOthers, later⟩ := ih middleUntold ((step_shift taken).sound sound) isRest
      refine ⟨rest, ?_, later⟩
      rw [isFirst, isOthers, reports_cons taken, List.append_assoc]

theorem Sound.tell_all (sound : engine.Sound) {execution : Execution}
    (member : execution ∈ engine.executions) (reporting : execution.stage = .reporting notices)
    (now : Instant) :
    ∃ final,
      engine.run? (List.replicate notices.length (.report execution.ticket now)) = some final ∧
      engine.log (List.replicate notices.length (.report execution.ticket now)) =
        notices.map fun notice => .told (some execution.ticket) notice now := by
  induction notices generalizing engine execution with
  | nil => exact ⟨engine, rfl, rfl⟩
  | cons notice rest ih =>
      have found := sound.execution?_of_mem member
      have taken : engine.step (.report execution.ticket now) =
          some ((engine.setStage execution.ticket (.reporting rest)).tell notice now) := by
        simp [step, Engine.report, found, reporting]
      have staged := (staged_setStage member
        (rfl : (ExecutionStage.reporting rest).isQueued = false) (.refl engine)).sameWork
        (sameWork_tell _ notice now)
      obtain ⟨final, ran, areRest⟩ := ih (staged.sound sound) staged.reached rfl
      refine ⟨final, ?_, ?_⟩
      · rw [List.length_cons, List.replicate_succ, run?, taken, Option.bind_some, ran]
      · simp [List.replicate_succ, log, taken, areRest, utterances, found, reporting]

/-- An execution tells nothing before it has settled. -/
theorem reports_of_owning {moves : List (Move Business)} (sound : engine.Sound)
    (ran : engine.run? moves = some after) {execution : Execution}
    (member : execution ∈ after.executions) (owning : execution.stage.isOwning = true) :
    engine.reports moves execution.ticket = [] := by
  induction moves generalizing engine with
  | nil => rfl
  | cons move others ih =>
      obtain ⟨middle, taken, isRest⟩ := Option.bind_eq_some_iff.mp ran
      have middleSound := (step_shift taken).sound sound
      have silent : (engine.utterances move).filterMap (Utterance.toldBy? execution.ticket) = [] := by
        refine toldBy?_utterances fun isReporter => ?_
        cases move with
        | report reporter now =>
            obtain rfl : reporter = execution.ticket := Option.some.inj isReporter
            obtain ⟨teller, found, told⟩ := report_cases taken
            obtain ⟨tellerMember, isTicket⟩ := mem_of_execution? found
            have reporting : ∃ notices, teller.stage = .reporting notices := by
              rcases told with ⟨silent, _⟩ | ⟨notice, rest, speaking, _⟩
              · exact ⟨[], silent⟩
              · exact ⟨notice :: rest, speaking⟩
            obtain ⟨notices, isReporting⟩ := reporting
            have untold : engine.Untold execution.ticket notices :=
              ⟨isTicket ▸ sound.issued teller tellerMember,
                .inl ⟨teller, tellerMember, isTicket, isReporting⟩⟩
            -- What has settled never goes back to work.
            obtain ⟨rest, _, later⟩ := untold.run sound ran
            cases owning.symm.trans (later.stage_not_owning (sound.run ran) member rfl)
        | _ => cases isReporter
      rw [reports_cons taken, silent]
      exact ih middleSound isRest

end Untold

end Engine

end DurableJobs
