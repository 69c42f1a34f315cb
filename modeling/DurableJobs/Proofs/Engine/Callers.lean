import DurableJobs.Proofs.Engine.Announcements

/-!
What a caller's transaction commits, and what the caller then tells.

A transaction that is answered well has committed the jobs of its accepted calls, and its caller owes
one announcement of them. Whatever else happens, the caller makes it once, and it counts and publishes
each of the jobs once, in order. A transaction that is refused has changed nothing.
-/

set_option autoImplicit false

namespace DurableJobs

namespace Enqueued

def count (entry : Enqueued) : Count :=
  if entry.receipt.isCoalesced then .coalesced else .enqueued

def event (entry : Enqueued) (time : Instant) : Event :=
  ⟨entry.receipt.id, .enqueued entry.jobType entry.correlationId entry.receipt.isCoalesced, time⟩

end Enqueued

namespace Metrics

/-- Counts each of the jobs that were enqueued, in order. -/
def addEnqueued (metrics : Metrics) (entries : List Enqueued) : Metrics :=
  entries.foldl (fun metrics entry => metrics.add entry.jobType entry.count) metrics

theorem global_addEnqueued (metrics : Metrics) (entries : List Enqueued) :
    (metrics.addEnqueued entries).global =
      { metrics.global with
        enqueued := metrics.global.enqueued +
          entries.countP fun entry => !entry.receipt.isCoalesced
        coalesced := metrics.global.coalesced +
          entries.countP fun entry => entry.receipt.isCoalesced } := by
  induction entries generalizing metrics with
  | nil => rfl
  | cons entry rest ih =>
      refine (ih (metrics.add entry.jobType entry.count)).trans ?_
      cases isCoalesced : entry.receipt.isCoalesced <;>
        simp [Metrics.add, Counts.add, Enqueued.count, isCoalesced] <;> omega

end Metrics

theorem Telemetry.notice_enqueued (telemetry : Telemetry) (entries : List Enqueued)
    (now : Instant) :
    telemetry.notice now (.enqueued entries) =
      ⟨telemetry.metrics.addEnqueued entries,
        telemetry.events ++ entries.map fun entry => entry.event now⟩ := by
  rw [notice]
  induction entries generalizing telemetry with
  | nil => simp [Metrics.addEnqueued]
  | cons entry rest ih =>
      rw [List.foldl_cons, ih]
      simp [enqueued, tell, Metrics.addEnqueued, Enqueued.count, Enqueued.event]

namespace Engine

variable {Business : Type}

/-! ### The place of a caller -/

/-- Where a caller stands among those that owe notices after a move: it moves up when one ahead of it
returns, and stands nowhere once it has returned itself. -/
def placeAfter (engine : Engine Business) (place : Nat) : Move Business → Option Nat
  | .announce other _ =>
      match engine.owed[other]? with
      | some [] =>
          if other < place then some (place - 1) else if other = place then none else some place
      | _ => some place
  | _ => some place

/-- What the caller at a place tells in a move, and when. -/
def tells (engine : Engine Business) (place : Nat) : Move Business → List (Notice × Instant)
  | .announce other now =>
      if other = place then
        match engine.owed[place]? with
        | some (notice :: _) => [(notice, now)]
        | _ => []
      else []
  | _ => []

/-- What the caller at a place tells in the course of some moves, and where it stands behind them. -/
def attend (engine : Engine Business) (place : Nat) :
    List (Move Business) → List (Notice × Instant) × Option Nat
  | [] => ([], some place)
  | move :: rest =>
      match engine.step move, engine.placeAfter place move with
      | some after, some next =>
          (engine.tells place move ++ (after.attend next rest).1, (after.attend next rest).2)
      | _, left => (engine.tells place move, left)

section Callers

variable {engine after : Engine Business}

/-- No move but an announcement changes what callers owe already. -/
theorem owed_prefix {move : Move Business} (silent : ∀ place now, move ≠ .announce place now)
    (taken : engine.step move = some after) : engine.owed <+: after.owed := by
  have still : ∀ {owed : List (List Notice)}, owed = engine.owed → engine.owed <+: owed :=
    fun same => same ▸ List.prefix_refl _
  have turns : (∃ before later, Turned engine after before later) → engine.owed <+: after.owed :=
    fun ⟨_, _, turned⟩ => still turned.owed
  cases move with
  | transact program now => exact (called_of_step rfl taken).owed
  | enqueue job now => exact (called_of_step rfl taken).owed
  | enqueueAll jobs correlation now => exact (called_of_step rfl taken).owed
  | cancel id => exact (called_of_step rfl taken).owed
  | requeue id now => exact (called_of_step rfl taken).owed
  | announce place now => exact absurd rfl (silent place now)
  | start =>
      obtain rfl := Option.some.inj taken
      rcases engine.start_cases with same | ⟨_, marked | ⟨_, started⟩⟩
      · exact still (by rw [same])
      · exact still (by rw [marked])
      · exact still (by rw [started])
  | requestStop => exact turns (requestStop_turned taken)
  | recover draw now =>
      obtain ⟨_, _, _, _, _, rfl⟩ := recover_cases taken
      exact still rfl
  | count => exact turns (count_turned taken)
  | scan now later => exact turns (scan_turned taken)
  | decide now =>
      obtain ⟨_, _, _, _, turned | ⟨_, _, _, _, _, rfl⟩⟩ := decide_cases taken
      · exact turns turned
      · exact still rfl
  | launch now =>
      obtain ⟨_, _, told | dropped | launched | ended⟩ := launch_cases taken
      · obtain ⟨notice, _, _, _, _, rfl⟩ := told
        exact still (owed_tell _ notice now)
      · obtain ⟨_, _, _, _, _, rfl⟩ := dropped
        exact still rfl
      · obtain ⟨_, _, _, _, _, _, _, _, _, _, rfl⟩ := launched
        exact still rfl
      · obtain ⟨_, _, rfl⟩ := ended
        exact still rfl
  | rest now => exact turns (rest_turned taken)
  | wake waking => exact turns (wake_turned taken)
  | finish =>
      obtain ⟨_, _, _, _, rfl⟩ := finish_cases taken
      exact still rfl
  | runQueued executor draw now =>
      obtain ⟨_, _, _, _, _, rfl⟩ := runQueued_cases taken
      exact still rfl
  | acquire ticket =>
      obtain ⟨_, _, _, _, rfl⟩ := acquire_cases taken
      exact still rfl
  | giveBack ticket result =>
      obtain ⟨_, _, _, rfl⟩ := return?_cases taken
      exact still rfl
  | settle ticket draw now =>
      obtain ⟨_, _, _, _, ⟨_, rfl⟩ | ⟨_, _, rfl⟩ | ⟨_, _, _, _, rfl⟩⟩ := settle_cases taken
      · exact still rfl
      · exact still rfl
      · exact still rfl
  | report ticket now =>
      obtain ⟨_, _, ⟨_, rfl⟩ | ⟨notice, _, _, rfl⟩⟩ := report_cases taken
      · exact still rfl
      · exact still (owed_tell _ notice now)
  | stopWriter =>
      obtain rfl := Option.some.inj taken
      exact still rfl

theorem announce_step {place other : Nat} {now : Instant} {notices : List Notice}
    (taken : engine.announce other now = some after) (owing : engine.owed[place]? = some notices) :
    (engine.placeAfter place (.announce other now) = none ∧ notices = [] ∧
        engine.tells place (.announce other now) = []) ∨
      ∃ next left, engine.placeAfter place (.announce other now) = some next ∧
        after.owed[next]? = some left ∧
        notices = (engine.tells place (.announce other now)).map Prod.fst ++ left := by
  rcases announce_cases taken with ⟨quiet, rfl⟩ | ⟨notice, rest, speaking, rfl⟩
  · have silent : engine.tells place (.announce other now) = [] := by
      by_cases same : other = place
      · subst same
        simp [tells, quiet]
      · exact if_neg same
    rcases Nat.lt_trichotomy other place with ahead | rfl | behind
    · refine .inr ⟨place - 1, notices, ?_, ?_, by rw [silent]; rfl⟩
      · simp [placeAfter, quiet, ahead]
      · rw [List.getElem?_eraseIdx_of_ge (Nat.le_sub_one_of_lt ahead),
          Nat.sub_add_cancel (Nat.one_le_of_lt ahead), owing]
    · exact .inl ⟨by simp [placeAfter, quiet], Option.some.inj (owing.symm.trans quiet), silent⟩
    · refine .inr ⟨place, notices, ?_, ?_, by rw [silent]; rfl⟩
      · simp [placeAfter, quiet, Nat.lt_asymm behind, Nat.ne_of_gt behind]
      · rw [List.getElem?_eraseIdx_of_lt behind, owing]
  · have stays : engine.placeAfter place (.announce other now) = some place := by
      simp [placeAfter, speaking]
    rw [owed_tell]
    by_cases same : other = place
    · subst same
      obtain rfl := Option.some.inj (speaking.symm.trans owing)
      have inRange := (List.getElem?_eq_some_iff.mp owing).1
      exact .inr ⟨other, rest, stays, List.getElem?_set_self inRange, by simp [tells, speaking]⟩
    · exact .inr ⟨place, notices, stays, by rw [List.getElem?_set_ne same, owing],
        by simp [tells, same]⟩

/-- What a caller tells in a move and what it owes then is what it owed before; it returns only when
it owes nothing. -/
theorem owed_step {move : Move Business} {place : Nat} {notices : List Notice}
    (taken : engine.step move = some after) (owing : engine.owed[place]? = some notices) :
    (engine.placeAfter place move = none ∧ notices = [] ∧ engine.tells place move = []) ∨
      ∃ next left, engine.placeAfter place move = some next ∧ after.owed[next]? = some left ∧
        notices = (engine.tells place move).map Prod.fst ++ left := by
  by_cases silent : ∀ other now, move ≠ .announce other now
  · have others : engine.placeAfter place move = some place ∧ engine.tells place move = [] := by
      cases move with
      | announce other now => exact absurd rfl (silent other now)
      | _ => exact ⟨rfl, rfl⟩
    refine .inr ⟨place, notices, others.1, ?_, by rw [others.2]; rfl⟩
    obtain ⟨more, isMore⟩ := owed_prefix silent taken
    rw [← isMore, List.getElem?_append_left (List.getElem?_eq_some_iff.mp owing).1, owing]
  · push Not at silent
    obtain ⟨other, now, rfl⟩ := silent
    exact announce_step taken owing

theorem announce_of_tells {move : Move Business} {place : Nat} {notice : Notice} {now : Instant}
    {others : List (Notice × Instant)} (told : engine.tells place move = (notice, now) :: others) :
    move = .announce place now ∧ others = [] ∧
      ∃ left, engine.owed[place]? = some (notice :: left) := by
  cases move with
  | announce other time =>
      by_cases same : other = place
      · subst same
        simp only [tells, if_true] at told
        split at told
        · next left speaking =>
            cases told
            exact ⟨rfl, rfl, left, speaking⟩
        · cases told
      · simp [tells, same] at told
  | _ => cases told

/-! ### Runs -/

theorem attend_cons {move : Move Business} {place next : Nat} (taken : engine.step move = some after)
    (stands : engine.placeAfter place move = some next) (rest : List (Move Business)) :
    engine.attend place (move :: rest) =
      (engine.tells place move ++ (after.attend next rest).1, (after.attend next rest).2) := by
  simp [attend, taken, stands]

theorem attend_of_returned {move : Move Business} {place : Nat}
    (returned : engine.placeAfter place move = none) (rest : List (Move Business)) :
    engine.attend place (move :: rest) = (engine.tells place move, none) := by
  simp [attend, returned]

/-- What a caller has told and what it still owes are together its notices, in order; it returns only
when it has told them all. -/
theorem attend_run {moves : List (Move Business)} {place : Nat} {notices : List Notice}
    (ran : engine.run? moves = some after) (owing : engine.owed[place]? = some notices) :
    ((engine.attend place moves).2 = none ∧ notices = (engine.attend place moves).1.map Prod.fst) ∨
      ∃ last left, (engine.attend place moves).2 = some last ∧ after.owed[last]? = some left ∧
        notices = (engine.attend place moves).1.map Prod.fst ++ left := by
  induction moves generalizing engine place notices with
  | nil =>
      obtain rfl := Option.some.inj ran
      exact .inr ⟨place, notices, rfl, owing, rfl⟩
  | cons move rest ih =>
      obtain ⟨middle, taken, isRest⟩ := Option.bind_eq_some_iff.mp ran
      rcases owed_step taken owing with ⟨returned, rfl, silent⟩ | ⟨next, left, stands, owes, rfl⟩
      · rw [attend_of_returned returned, silent]
        exact .inl ⟨rfl, rfl⟩
      · rw [attend_cons taken stands, List.map_append]
        rcases ih isRest owes with ⟨returned, rfl⟩ | ⟨last, others, stays, stillOwes, rfl⟩
        · exact .inl ⟨returned, rfl⟩
        · exact .inr ⟨last, others, stays, stillOwes, (List.append_assoc _ _ _).symm⟩

theorem tells_sublist (engine : Engine Business) (place : Nat) (move : Move Business) :
    ((engine.tells place move).map Prod.fst).Sublist (engine.said move) := by
  cases move with
  | announce other now =>
      by_cases same : other = place
      · subst same
        cases owing : engine.owed[other]? with
        | none => simp [tells, owing]
        | some notices => cases notices <;> simp [tells, said, utterances, owing, Utterance.notice?]
      · simp [tells, same]
  | _ => exact List.nil_sublist _

/-- What a caller tells is among all that is told. -/
theorem attend_sublist {moves : List (Move Business)} (place : Nat)
    (ran : engine.run? moves = some after) :
    ((engine.attend place moves).1.map Prod.fst).Sublist (engine.told moves) := by
  induction moves generalizing engine place with
  | nil => exact List.nil_sublist _
  | cons move rest ih =>
      obtain ⟨middle, taken, isRest⟩ := Option.bind_eq_some_iff.mp ran
      have first := engine.tells_sublist place move
      rw [told_cons taken]
      cases stands : engine.placeAfter place move with
      | none =>
          rw [attend_of_returned stands]
          exact first.trans (List.sublist_append_left _ _)
      | some next =>
          rw [attend_cons taken stands, List.map_append]
          exact first.append (ih next isRest)

/-- Each of the jobs that were enqueued is counted and published once, in order, and nothing else. -/
structure Publishes (engine after : Engine Business) (entries : List Enqueued) (now : Instant) :
    Prop where
  events : after.telemetry.events =
    engine.telemetry.events ++ entries.map fun entry => entry.event now
  metrics : after.telemetry.metrics = engine.telemetry.metrics.addEnqueued entries
  counts : after.telemetry.metrics.global =
    { engine.telemetry.metrics.global with
      enqueued := engine.telemetry.metrics.global.enqueued +
        entries.countP fun entry => !entry.receipt.isCoalesced
      coalesced := engine.telemetry.metrics.global.coalesced +
        entries.countP fun entry => entry.receipt.isCoalesced }
  database : after.database = engine.database

theorem publishes_of_announce {place : Nat} {now : Instant} {entries : List Enqueued}
    {left : List Notice} (owing : engine.owed[place]? = some (.enqueued entries :: left))
    (taken : engine.announce place now = some after) : Publishes engine after entries now := by
  rcases announce_cases taken with ⟨quiet, _⟩ | ⟨notice, rest, speaking, rfl⟩
  · cases owing.symm.trans quiet
  · obtain ⟨rfl, rfl⟩ := List.cons.inj (Option.some.inj (owing.symm.trans speaking))
    have told : (({ engine with owed := engine.owed.set place left } : Engine Business).tell
        (.enqueued entries) now).telemetry = _ :=
      (telemetry_tell _ _ now).trans (Telemetry.notice_enqueued _ entries now)
    refine ⟨by rw [told], by rw [told], ?_, database_tell _ _ now⟩
    rw [told]
    exact Metrics.global_addEnqueued _ entries

/-- In the course of some moves a caller has not yet announced what it enqueued and still can, or it
has done so at one of them and at no other. -/
inductive AnnouncedOnce (engine : Engine Business) (place : Nat) (entries : List Enqueued)
    (moves : List (Move Business)) (after : Engine Business) : Prop where
  | pending {last : Nat} (attended : engine.attend place moves = ([], some last))
      (owes : after.owed[last]? = some [.enqueued entries])
      (can : ∀ now, ∃ told, after.announce last now = some told ∧
        Publishes after told entries now)
  | announced {before rest : List (Move Business)} {seen told : Engine Business} {stands : Nat}
      {now : Instant} (isSplit : moves = before ++ .announce stands now :: rest)
      (ran : engine.run? before = some seen)
      (attended : engine.attend place before = ([], some stands))
      (taken : seen.announce stands now = some told) (publishes : Publishes seen told entries now)
      (once : (engine.attend place moves).1 = [(.enqueued entries, now)])

theorem exists_announce {place : Nat} {notice : Notice} {left : List Notice}
    (owing : engine.owed[place]? = some (notice :: left)) (now : Instant) :
    ∃ after, engine.announce place now = some after := by
  simp [announce, owing]

theorem announcedOnce_run {moves : List (Move Business)} {place : Nat} {entries : List Enqueued}
    (ran : engine.run? moves = some after)
    (owing : engine.owed[place]? = some [.enqueued entries]) :
    AnnouncedOnce engine place entries moves after := by
  induction moves generalizing engine place with
  | nil =>
      obtain rfl := Option.some.inj ran
      refine .pending rfl owing fun now => ?_
      obtain ⟨told, taken⟩ := exists_announce owing now
      exact ⟨told, taken, publishes_of_announce owing taken⟩
  | cons move rest ih =>
      obtain ⟨middle, taken, isRest⟩ := Option.bind_eq_some_iff.mp ran
      rcases owed_step taken owing with ⟨_, none, _⟩ | ⟨next, left, stands, owes, isAll⟩
      · cases none
      cases isTold : engine.tells place move with
      | nil =>
          rw [isTold] at isAll
          obtain rfl := isAll
          have attended := attend_cons taken stands
          simp only [isTold, List.nil_append] at attended
          cases ih isRest owes with
          | pending later owes can => exact .pending ((attended rest).trans later) owes can
          | @announced before others seen told place now isSplit ran later isTaken publishes once =>
              refine .announced (congrArg (move :: ·) isSplit) ?_ ((attended before).trans later)
                isTaken publishes ?_
              · exact Option.bind_eq_some_iff.mpr ⟨middle, taken, ran⟩
              · rw [attended rest]
                exact once
      | cons first others =>
          obtain ⟨notice, now⟩ := first
          obtain ⟨rfl, rfl, more, speaking⟩ := announce_of_tells isTold
          rw [isTold] at isAll
          obtain ⟨rfl, rfl⟩ := List.cons.inj isAll
          have isSplit : (.announce place now :: rest : List (Move Business)) =
              [] ++ .announce place now :: rest := rfl
          refine .announced isSplit rfl rfl taken (publishes_of_announce owing taken) ?_
          have silent : (middle.attend next rest).1 = [] := by
            rcases attend_run isRest owes with ⟨_, none⟩ | ⟨_, _, _, _, none⟩
            · exact List.map_eq_nil_iff.mp none.symm
            · exact List.map_eq_nil_iff.mp (List.append_eq_nil_iff.mp none.symm).1
          rw [attend_cons taken stands, isTold, silent]
          rfl

/-! ### Transactions -/

/-- What a transaction with these calls has committed, and what is announced of it. -/
structure Commits (engine after : Engine Business) (calls : List Call) (entries : List Enqueued)
    (now : Instant) : Prop where
  -- The accepted calls have entered their jobs, in order, and no other call has left a trace.
  entered : Entered engine.registry now engine.database.jobs calls entries after.database.jobs
  -- What is noted of them is what they were answered.
  noted : calls.filterMap (fun call => call.answer.toOption.map fun id =>
      (id, call.job.jobType, call.job.correlationId)) =
    entries.map fun entry => (entry.receipt.id, entry.jobType, entry.correlationId)
  -- Every row that has come to the table is of a registered type.
  rows : ∀ row ∈ after.database.jobs.rows, row ∈ engine.database.jobs.rows ∨
    ∃ jobType, row.jobType = .text jobType ∧ engine.registry.isRegistered jobType = true
  -- Nothing is counted or published at once.
  same : after =
    { engine with database := after.database, owed := engine.owed ++ [[.enqueued entries]] }
  -- However the engine goes on, the caller announces the jobs once.
  announced : ∀ moves last, after.run? moves = some last →
    AnnouncedOnce after engine.owed.length entries moves last

/-- A transaction is committed and announced, or nothing has happened. If it has lapsed, what its
program did since then is there, announced by nobody, although the call is refused. -/
structure AllOrNothing {Value : Type} (engine : Engine Business)
    (program : Program Business EngineError Value) (now : Instant) : Prop where
  committed : ∀ value after, engine.transact program now = (.ok value, after) →
    (program.run (Transaction.begin engine.registry now engine.database)).1 = .done value ∧
      after.database.business = (program.run
        (Transaction.begin engine.registry now engine.database)).2.database.business ∧
      ∃ entries, Commits engine after
        (program.calls (Transaction.begin engine.registry now engine.database)) entries now
  refused : ∀ error after, engine.transact program now = (.error error, after) →
    engine.isWriterStopped = true ∨
      program.lapse? (Transaction.begin engine.registry now engine.database) = none →
    after = engine
  -- Of a lapsed transaction stays what the rest of the program wrote.
  lapsed : ∀ rest transaction, engine.isWriterStopped = false →
    program.lapse? (Transaction.begin engine.registry now engine.database) =
      some (rest, transaction) →
    ∃ error, engine.transact program now =
      (.error error,
        { engine with database := engine.database.replay now (rest.writes transaction) })
  -- A program that is done is answered well unless the writer is stopped, the transaction has lapsed
  -- or its commit is refused.
  answered : ∀ value, (engine.transact program now).1 = .ok value ↔
    (program.run (Transaction.begin engine.registry now engine.database)).1 = .done value ∧
      engine.isWriterStopped = false ∧
      program.lapse? (Transaction.begin engine.registry now engine.database) = none ∧
      ¬ program.IsRefused engine.registry now engine.database
  -- Of jobs that are enqueued together none gets in if one is of a type that is not registered.
  unregistered : ∀ jobs correlation, ∀ job ∈ jobs,
    engine.registry.isRegistered job.jobType = false →
    ∃ error, engine.enqueueAll jobs correlation now = (.error error, engine)

/-- The program that enqueues jobs ends where its transaction lapses, and has written nothing then. -/
theorem lasting_enqueuingAll {jobs : List Job} {correlation : Uuid} {now : Instant}
    (lapses : (enqueuingAll jobs correlation).lapse?
      (Transaction.begin engine.registry now engine.database) ≠ none) :
    engine.lasting (enqueuingAll jobs correlation) now = [] := by
  obtain ⟨⟨rest, transaction⟩, isRest⟩ := Option.ne_none_iff_exists'.mp lapses
  rw [lasting, Program.lasting, isRest]
  dsimp only
  rw [enqueuingAll, Program.lapse?] at isRest
  split at isRest
  next answer after _ =>
    cases answer with
    | error error =>
        split at isRest
        · cases isRest
        · cases isRest
          rfl
    | ok ids =>
        split at isRest
        · cases isRest
        · cases isRest
          rfl

theorem done_of_enqueuingAll {jobs : List Job} {correlation : Uuid} {ids : List Int}
    {transaction : Transaction Business}
    (ended : ((enqueuingAll jobs correlation).run transaction).1 = .done ids) :
    (transaction.enqueueAll jobs correlation).1 = .ok ids := by
  rw [enqueuingAll, Program.run] at ended
  cases answer : transaction.enqueueAll jobs correlation with
  | mk result after =>
      rw [answer] at ended
      cases result with
      | error error => cases ended
      | ok others =>
          cases ended
          rfl

theorem commits_of_transact {Value : Type} {program : Program Business EngineError Value}
    (leavesJobs : program.LeavesJobs) {now : Instant}
    (stays : program.lapse? (Transaction.begin engine.registry now engine.database) = none) :
    Commits engine
      { engine with
        database := engine.database.replay now (engine.lasting program now)
        owed := engine.owed ++
          [[.enqueued (engine.database.enqueued now (engine.lasting program now))]] }
      (program.calls (Transaction.begin engine.registry now engine.database))
      (engine.database.enqueued now (engine.lasting program now)) now := by
  obtain ⟨_, _, _, entries, areEntries, entered⟩ := leavesJobs.makes stays
  have same : engine.lasting program now =
      program.writes (Transaction.begin engine.registry now engine.database) := by
    simp [lasting, Program.lasting, stays]
  rw [Program.run_eq_replay stays] at areEntries entered
  obtain rfl : engine.database.enqueued now (engine.lasting program now) = entries := by
    rw [same]
    exact areEntries
  rw [← same] at entered
  refine ⟨entered, entered.accepted_calls, entered.rows, rfl, fun moves last isRun => ?_⟩
  exact announcedOnce_run isRun List.getElem?_concat_length

/-- A transaction is all or nothing, with what is announced of it, unless it has lapsed. -/
theorem transact_all_or_nothing {Value : Type} (engine : Engine Business)
    {program : Program Business EngineError Value} (leavesJobs : program.LeavesJobs)
    (now : Instant) : engine.AllOrNothing program now := by
  refine ⟨?_, ?_, ?_, ?_, ?_⟩
  · intro value after answer
    rcases engine.transact_cases program now with
      ⟨_, refused, _⟩ | ⟨_, ⟨other, isDone, stays, _, committed⟩ | ⟨_, _, lapsed⟩⟩
    · cases answer.symm.trans refused
    · obtain ⟨isValue, rfl⟩ := Prod.mk.inj (committed.symm.trans answer)
      obtain rfl := Except.ok.inj isValue
      refine ⟨isDone, ?_, _, commits_of_transact leavesJobs stays⟩
      exact congrArg Database.business
        (program.database_run engine.registry now engine.database).symm
    · cases answer.symm.trans lapsed
  · intro error after answer unlapsed
    rcases engine.transact_cases program now with
      ⟨_, refused, _⟩ | ⟨running, ⟨_, _, _, _, committed⟩ | ⟨lapses, _, _⟩⟩
    · exact (Prod.mk.inj (answer.symm.trans refused)).2
    · cases answer.symm.trans committed
    · rcases unlapsed with stopped | stays
      · cases running.symm.trans stopped
      · exact absurd stays lapses
  · intro rest transaction running lapses
    have same : engine.lasting program now = rest.writes transaction := by
      simp [lasting, Program.lasting, lapses]
    rcases engine.transact_cases program now with
      ⟨_, _, stopped | ⟨stays, _⟩⟩ | ⟨_, ⟨_, _, stays, _, _⟩ | ⟨_, error, lapsed⟩⟩
    · cases running.symm.trans stopped
    · cases lapses.symm.trans stays
    · cases lapses.symm.trans stays
    · exact ⟨error, same ▸ lapsed⟩
  · intro value
    rcases engine.transact_cases program now with
      ⟨_, refused, why⟩ | ⟨running, ⟨other, isDone, stays, accepted, committed⟩ | ⟨lapses, _, lapsed⟩⟩
    · rw [refused]
      refine iff_of_false (by simp) ?_
      rintro ⟨isDone, running, _, accepted⟩
      rcases why with stopped | ⟨_, failed | refused⟩
      · cases running.symm.trans stopped
      · exact absurd isDone (failed value)
      · exact absurd refused accepted
    · rw [committed]
      constructor
      · intro answer
        obtain rfl := Except.ok.inj answer
        exact ⟨isDone, running, stays, accepted⟩
      · rintro ⟨isValue, _⟩
        exact congrArg Except.ok (Ending.done.inj (isDone.symm.trans isValue))
    · rw [lapsed]
      refine iff_of_false (by simp) ?_
      rintro ⟨_, _, stays, _⟩
      exact lapses stays
  · intro jobs correlation job member unknown
    rcases engine.transact_cases (enqueuingAll jobs correlation) now with
      ⟨error, refused, _⟩ | ⟨_, ⟨ids, isDone, _⟩ | ⟨lapses, error, lapsed⟩⟩
    · exact ⟨error, refused⟩
    · have registered := Transaction.registered_of_enqueueAll (done_of_enqueuingAll isDone) job member
      cases unknown.symm.trans registered
    · rw [lasting_enqueuingAll lapses] at lapsed
      exact ⟨error, lapsed⟩

/-- A document is written and a job enqueued for it; of two further jobs one is refused, and the
transaction goes on. -/
theorem transact_all_or_nothing_sample :
    ∃ (engine : Engine (List String)) (program : Program (List String) EngineError Unit),
      program.LeavesJobs ∧
      (engine.transact program Instant.epoch).2.database.business = ["readme"] ∧
      (engine.transact program Instant.epoch).2.database.jobs.ids = [1, 2] ∧
      engine.AllOrNothing program Instant.epoch := by
  let engine : Engine (List String) :=
    { sample with database := ⟨Store.Table.empty, [], fun _ _ => none⟩ }
  let reindex : Job := Job.new "reindex" [118] Uuid.zero
  let retired : Job := Job.new "retired" [118] Uuid.zero
  let program : Program (List String) EngineError Unit :=
    .write (fun documents => .ok (documents ++ ["readme"])) fun _ =>
      .enqueue reindex fun _ => .enqueueAll [reindex, retired] Uuid.zero fun _ => .done ()
  have leavesJobs : program.LeavesJobs := fun _ _ _ => trivial
  exact ⟨engine, program, leavesJobs, by decide +kernel, by decide +kernel,
    transact_all_or_nothing engine leavesJobs Instant.epoch⟩

/-- A store that has used up its ids takes a transaction back. The program goes on, and its second job
coalesces into a pending one: the call is refused, and the change is there. -/
theorem refused_transaction_leaves_change :
    ∃ (engine : Engine Unit) (program : Program Unit EngineError Unit) (after : Engine Unit),
      program.LeavesJobs ∧
      engine.transact program Instant.epoch = (.error (.store (.noTransaction "commit")), after) ∧
      after.database.jobs ≠ engine.database.jobs := by
  let job (payload : List UInt8) : Job := Job.new "reindex" payload Uuid.zero
  let held : Store.Table :=
    (Store.Table.empty.enqueue ((job [118]).withDebounceKey "k") Instant.epoch).2
  let engine : Engine Unit :=
    { sample with database := ⟨{ held with mark := 0x7fffffffffffffff }, (), fun _ _ => none⟩ }
  let program : Program Unit EngineError Unit :=
    .enqueue (job [119]) fun _ => .enqueue ((job [119]).withDebounceKey "k") fun _ => .done ()
  have lapsed : (engine.transact program Instant.epoch).1 =
      .error (.store (.noTransaction "commit")) := by rfl
  have changed : (engine.transact program Instant.epoch).2.database.jobs ≠ engine.database.jobs := by
    decide +kernel
  exact ⟨engine, program, _, fun _ _ => trivial, Prod.ext lapsed rfl, changed⟩

end Callers

end Engine

end DurableJobs
