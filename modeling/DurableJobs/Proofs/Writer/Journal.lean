import DurableJobs.Proofs.Writer.Phases

/-!
The units of a writer, from their submission to their reply.

A journal notes, beside a writer, which units were submitted, accepted and begun, and which replies
come from running a unit. No unit is lost or doubled on its way: each is begun, given up, queued or
in the hands of someone who is to begin it or to give it up, and each that was begun is being
executed or was answered by its own result.
-/

set_option autoImplicit false

namespace DurableJobs.Writer

variable {World Result : Type}

/-! ### Units on their way -/

/-- The unit that a worker executes. -/
def WorkerStage.underway : WorkerStage World Result → List (Work World Result)
  | .executing work => [work]
  | _ => []

/-- The units that a worker took from the queue and has neither begun nor answered. -/
def WorkerStage.inHand : WorkerStage World Result → List (Work World Result)
  | .holding work => [work]
  | .refusing works _ => works
  | _ => []

def WorkerStage.isExecuting : WorkerStage World Result → Bool
  | .executing _ => true
  | _ => false

def ShutdownStage.inHand : ShutdownStage World Result → List (Work World Result)
  | .refusing works => works
  | _ => []

def Event.works : Event World Result → List (Work World Result)
  | .submit submitted _ => [submitted]
  | _ => []

namespace Serializer

def underway (writer : Serializer World Result) : List (Work World Result) :=
  writer.workers.flatMap fun worker => worker.stage.underway

def inHand (writer : Serializer World Result) : List (Work World Result) :=
  (writer.workers.flatMap fun worker => worker.stage.inHand) ++
    writer.shutdowns.flatMap fun shutdown => shutdown.stage.inHand

/-- What a submission adds to the queue. -/
def accepts (writer after : Serializer World Result) :
    Event World Result → List (Work World Result)
  | .submit _ _ => after.queue.drop writer.queue.length
  | _ => []

/-- The unit that a worker executes after its turn; none is executed for more than one turn. -/
def begins (after : Serializer World Result) (event : Event World Result) :
    List (Work World Result) :=
  (event.worker?.bind after.worker?).elim [] WorkerStage.underway

/-- Whether a worker runs the unit that it executes. -/
def isRun (writer : Serializer World Result) (event : Event World Result) : Bool :=
  (event.worker?.bind writer.worker?).any WorkerStage.isExecuting

/-- Whether a worker breaks outside of a unit: the time to wait for locks cannot be set, or no
deadline lies so far ahead. -/
def breaksAt (writer : Serializer World Result) : WorkerStage World Result → Bool
  | .opening => writer.openConnection.1.isNone
  | .choosing _ => decide (longestIdleSeconds < writer.config.idleTimeout.seconds)
  | _ => false

def isBreak (writer : Serializer World Result) (event : Event World Result) : Bool :=
  (event.worker?.bind writer.worker?).any writer.breaksAt

end Serializer

/-- A writer, and what became of the units so far. -/
structure Journal (World Result : Type) where
  writer : Serializer World Result
  submitted : List (Work World Result)
  accepted : List (Work World Result)
  begun : List (Work World Result)
  /-- The replies that come from running a unit. -/
  ran : List (Reply Result)
  /-- The replies to units that were given up. -/
  aborted : List (Reply Result)
  /-- Whether a worker has broken outside of a unit. -/
  isBroken : Bool

namespace Journal

def new (config : WriterConfig) (connect prepare : World → Except EngineError Unit × World)
    (world : World) : Journal World Result where
  writer := Serializer.new config connect prepare world
  submitted := []
  accepted := []
  begun := []
  ran := []
  aborted := []
  isBroken := false

def note (journal : Journal World Result) (event : Event World Result)
    (after : Serializer World Result) : Journal World Result :=
  let replies := after.replies.drop journal.writer.replies.length
  { writer := after
    submitted := journal.submitted ++ event.works
    accepted := journal.accepted ++ journal.writer.accepts after event
    begun := journal.begun ++ after.begins event
    ran := journal.ran ++ if journal.writer.isRun event then replies else []
    aborted := journal.aborted ++ if journal.writer.isRun event then [] else replies
    isBroken := journal.isBroken || journal.writer.isBreak event }

section Note

variable (journal : Journal World Result) (event : Event World Result)
  (after : Serializer World Result)

@[simp] theorem note_writer : (journal.note event after).writer = after := rfl

@[simp] theorem note_accepted : (journal.note event after).accepted =
    journal.accepted ++ journal.writer.accepts after event := rfl

@[simp] theorem note_begun : (journal.note event after).begun =
    journal.begun ++ after.begins event := rfl

@[simp] theorem note_isBroken : (journal.note event after).isBroken =
    (journal.isBroken || journal.writer.isBreak event) := rfl

end Note

def step (journal : Journal World Result) (event : Event World Result) :
    Option (Journal World Result) :=
  (journal.writer.step event).map (journal.note event)

def run? (journal : Journal World Result) :
    List (Event World Result) → Option (Journal World Result)
  | [] => some journal
  | event :: rest => (journal.step event).bind fun later => later.run? rest

theorem run?_writer {journal later : Journal World Result} {events : List (Event World Result)}
    (ran : journal.run? events = some later) :
    journal.writer.run? events = some later.writer := by
  induction events generalizing journal with
  | nil => exact congrArg (Option.map Journal.writer) ran
  | cons event rest ih =>
      obtain ⟨middle, taken, isRest⟩ := Option.bind_eq_some_iff.mp ran
      obtain ⟨after, stepped, rfl⟩ := Option.map_eq_some_iff.mp taken
      simp only [Serializer.run?, stepped, Option.bind_some]
      exact ih isRest

inductive Reachable : Journal World Result → Prop where
  | new (config : WriterConfig) (connect prepare : World → Except EngineError Unit × World)
      (world : World) : Reachable (new config connect prepare world)
  | step {journal later : Journal World Result} (reachable : Reachable journal)
      (event : Event World Result) (taken : journal.step event = some later) : Reachable later

theorem Reachable.run {journal later : Journal World Result} (reachable : Reachable journal)
    {events : List (Event World Result)} (ran : journal.run? events = some later) :
    Reachable later := by
  induction events generalizing journal with
  | nil => exact Option.some.inj ran ▸ reachable
  | cons event rest ih =>
      obtain ⟨middle, taken, isRest⟩ := Option.bind_eq_some_iff.mp ran
      exact ih (reachable.step event taken) isRest

theorem Reachable.writer {journal : Journal World Result} (reachable : Reachable journal) :
    journal.writer.Reachable := by
  induction reachable with
  | new config connect prepare world => exact .new config connect prepare world
  | step _ event taken ih =>
      obtain ⟨after, stepped, rfl⟩ := Option.map_eq_some_iff.mp taken
      exact ih.step event stepped

end Journal

/-! ### Counting tickets -/

/-- How many of these units have a ticket. -/
def tally (works : List (Work World Result)) (ticket : Nat) : Nat :=
  (works.map Work.ticket).count ticket

/-- How many of these replies have a ticket. -/
def answers (replies : List (Reply Result)) (ticket : Nat) : Nat :=
  (replies.map Reply.ticket).count ticket

section Tally

variable (works others : List (Work World Result)) (replies more : List (Reply Result))
  (ticket : Nat)

@[simp] theorem tally_nil : tally ([] : List (Work World Result)) ticket = 0 := rfl

@[simp] theorem tally_append : tally (works ++ others) ticket =
    tally works ticket + tally others ticket := by
  simp [tally]

@[simp] theorem tally_cons (work : Work World Result) : tally (work :: works) ticket =
    (if work.ticket = ticket then 1 else 0) + tally works ticket := by
  simp [tally, List.count_cons, Nat.add_comm]

theorem tally_eq_of_perm {works others : List (Work World Result)} (perm : works.Perm others)
    (ticket : Nat) : tally works ticket = tally others ticket :=
  (perm.map Work.ticket).count_eq ticket

@[simp] theorem answers_nil : answers ([] : List (Reply Result)) ticket = 0 := rfl

@[simp] theorem answers_append : answers (replies ++ more) ticket =
    answers replies ticket + answers more ticket := by
  simp [answers]

@[simp] theorem answers_cons (reply : Reply Result) : answers (reply :: replies) ticket =
    (if reply.ticket = ticket then 1 else 0) + answers replies ticket := by
  simp [answers, List.count_cons, Nat.add_comm]

end Tally

namespace Serializer

section Custody

variable {writer rest : Serializer World Result} {id call : Nat} {stage : WorkerStage World Result}
  {next? : Option (WorkerStage World Result)} {part next : ShutdownStage World Result}

/-- A turn of a worker changes its own part in what all workers have. -/
theorem tally_place (distinct : writer.Distinct) (found : writer.worker? id = some stage)
    (next? : Option (WorkerStage World Result))
    (units : WorkerStage World Result → List (Work World Result)) (ticket : Nat) :
    tally ((writer.place id next?).workers.flatMap fun worker => units worker.stage) ticket +
        tally (units stage) ticket =
      tally (writer.workers.flatMap fun worker => units worker.stage) ticket +
        tally (next?.elim [] units) ticket := by
  have before := tally_eq_of_perm ((distinct.perm_workers found).flatMap_right
    fun worker => units worker.stage) ticket
  have later := tally_eq_of_perm ((distinct.perm_place found next?).flatMap_right
    fun worker => units worker.stage) ticket
  rw [before, later]
  cases next? <;> simp <;> omega

theorem tally_setShutdown (distinct : writer.Distinct) (found : writer.shutdown? call = some part)
    (next : ShutdownStage World Result) (ticket : Nat) :
    tally ((writer.setShutdown call next).shutdowns.flatMap fun shutdown => shutdown.stage.inHand)
        ticket + tally part.inHand ticket =
      tally (writer.shutdowns.flatMap fun shutdown => shutdown.stage.inHand) ticket +
        tally next.inHand ticket := by
  have before := tally_eq_of_perm ((distinct.perm_shutdowns found).flatMap_right
    fun shutdown => shutdown.stage.inHand) ticket
  have later := tally_eq_of_perm ((distinct.perm_setShutdown found next).flatMap_right
    fun shutdown => shutdown.stage.inHand) ticket
  rw [before, later]
  simp
  omega

theorem worker?_place (distinct : writer.Distinct) (found : writer.worker? id = some stage)
    (next? : Option (WorkerStage World Result)) :
    (writer.place id next?).worker? id = next? := by
  cases next? with
  | some next =>
      have member : (⟨id, next⟩ : Worker World Result) ∈ (writer.place id (some next)).workers :=
        (mem_place distinct found).mpr (.inl ⟨next, rfl, rfl⟩)
      exact (distinct.place id (some next)).worker?_of_mem member
  | none =>
      rw [Serializer.worker?, Option.map_eq_none_iff, List.find?_eq_none]
      intro worker member
      rcases (mem_place distinct found).mp member with ⟨_, isNext, _⟩ | ⟨_, different⟩
      · cases isNext
      · simpa using different

/-- What a turn of a worker does to the units it has to do with: it begins them, passes them on or
gives them up. -/
theorem Turn.passes (turn : Turn writer stage next? rest) (notRun : stage.isExecuting = false)
    (refusal : ∀ works error, stage = .refusing works error → error.isAbort = true) :
    ∃ replies : List (Reply Result), rest.replies = writer.replies ++ replies ∧
      (∀ reply ∈ replies, ∃ error, error.isAbort = true ∧ reply.result = .error error) ∧
      ∀ ticket, tally writer.queue ticket + tally stage.inHand ticket =
        tally (next?.elim [] WorkerStage.underway) ticket + answers replies ticket +
          tally rest.queue ticket + tally (next?.elim [] WorkerStage.inHand) ticket := by
  cases turn with
  | finish => cases notRun
  | skip =>
      refine ⟨_, rfl, by simp [EngineError.isAbort], ?_⟩
      intro ticket
      simp [WorkerStage.inHand, WorkerStage.underway]
      omega
  | refuse =>
      refine ⟨_, rfl, ?_, ?_⟩
      · intro reply member
        obtain rfl := List.mem_singleton.mp member
        exact ⟨_, refusal _ _ rfl, rfl⟩
      · intro ticket
        simp [WorkerStage.inHand, WorkerStage.underway]
        omega
  | take goesOn isQueue =>
      refine ⟨[], by simp, by simp, ?_⟩
      intro ticket
      simp [WorkerStage.inHand, WorkerStage.underway, isQueue]
      omega
  | _ =>
      refine ⟨[], by simp, by simp, ?_⟩
      intro ticket
      simp [WorkerStage.inHand, WorkerStage.underway, Nat.add_comm]

/-- A worker that refuses work says that the work was given up. -/
theorem Turn.refusal (turn : Turn writer stage next? rest)
    (refusal : ∀ works error, stage = .refusing works error → error.isAbort = true)
    {works : List (Work World Result)} {error : EngineError}
    (refuses : next? = some (.refusing works error)) : error.isAbort = true := by
  cases turn with
  | failOpening =>
      cases refuses
      rfl
  | empty =>
      cases refuses
      rfl
  | refuse =>
      cases refuses
      exact refusal _ _ rfl
  | _ => cases refuses

/-- A worker that runs its unit answers it with the unit's own result. -/
theorem Turn.runs (turn : Turn writer stage next? rest) (isRun : stage.isExecuting = true) :
    ∃ work, stage = .executing work ∧ next? = some (.choosing false) ∧
      rest.queue = writer.queue ∧ rest.state = writer.state ∧
      rest.replies = writer.replies ++ [⟨work.ticket, (work.perform writer.world).1⟩] := by
  cases turn with
  | finish => exact ⟨_, rfl, rfl, rfl, rfl, rfl⟩
  | _ => cases isRun

/-- A call of `shutdown` gives up the units that it took from the queue. -/
theorem CallTurn.passes (turn : CallTurn writer part next rest) :
    ∃ replies : List (Reply Result), rest.replies = writer.replies ++ replies ∧
      (∀ reply ∈ replies, ∃ error, error.isAbort = true ∧ reply.result = .error error) ∧
      ∀ ticket, tally writer.queue ticket + tally part.inHand ticket =
        answers replies ticket + tally rest.queue ticket + tally next.inHand ticket := by
  cases turn with
  | refuse =>
      refine ⟨_, rfl, by simp [EngineError.isAbort], ?_⟩
      intro ticket
      simp [ShutdownStage.inHand]
      omega
  | _ =>
      refine ⟨[], by simp, by simp, ?_⟩
      intro ticket
      simp [ShutdownStage.inHand]

end Custody

end Serializer

namespace Journal

/-- Every unit submitted is in one place, and every unit begun is answered by its own result. -/
structure Accounted (journal : Journal World Result) : Prop where
  submitted : ∀ ticket, tally journal.submitted ticket =
    tally journal.begun ticket + answers journal.aborted ticket +
      tally journal.writer.queue ticket + tally journal.writer.inHand ticket
  begun : ∀ ticket, tally journal.begun ticket =
    answers journal.ran ticket + tally journal.writer.underway ticket
  replies : ∀ ticket, answers journal.writer.replies ticket =
    answers journal.ran ticket + answers journal.aborted ticket
  underway : ∀ work ∈ journal.writer.underway, work ∈ journal.begun
  own : ∀ reply ∈ journal.ran, ∃ work ∈ journal.begun, ∃ world,
    reply = ⟨work.ticket, (work.perform world).1⟩
  aborted : ∀ reply ∈ journal.aborted, ∃ error, error.isAbort = true ∧ reply.result = .error error
  refusals : ∀ worker ∈ journal.writer.workers, ∀ works error,
    worker.stage = .refusing works error → error.isAbort = true

section Accounted

open Serializer

variable {journal : Journal World Result} {event : Event World Result}
  {after : Serializer World Result}

/-- A step that runs no unit begins units, passes them on or gives them up. -/
theorem Accounted.pass (accounted : journal.Accounted) {replies : List (Reply Result)}
    (notRun : journal.writer.isRun event = false)
    (answered : after.replies = journal.writer.replies ++ replies)
    (aborts : ∀ reply ∈ replies, ∃ error, error.isAbort = true ∧ reply.result = .error error)
    (passes : ∀ ticket, tally event.works ticket + tally journal.writer.queue ticket +
        tally journal.writer.inHand ticket =
      tally (after.begins event) ticket + answers replies ticket + tally after.queue ticket +
        tally after.inHand ticket)
    (sameUnderway : ∀ ticket, tally after.underway ticket =
      tally journal.writer.underway ticket + tally (after.begins event) ticket)
    (underway : ∀ work ∈ after.underway,
      work ∈ journal.writer.underway ∨ work ∈ after.begins event)
    (refusals : ∀ worker ∈ after.workers, ∀ works error,
      worker.stage = .refusing works error → error.isAbort = true) :
    (journal.note event after).Accounted := by
  have noted : journal.note event after =
      { writer := after
        submitted := journal.submitted ++ event.works
        accepted := journal.accepted ++ journal.writer.accepts after event
        begun := journal.begun ++ after.begins event
        ran := journal.ran
        aborted := journal.aborted ++ replies
        isBroken := journal.isBroken || journal.writer.isBreak event } := by
    simp [note, notRun, answered]
  rw [noted]
  refine
    { submitted := ?_
      begun := ?_
      replies := ?_
      underway := ?_
      own := ?_
      aborted := ?_
      refusals := refusals }
  · intro ticket
    have before := accounted.submitted ticket
    have change := passes ticket
    simp only [tally_append, answers_append]
    omega
  · intro ticket
    have before := accounted.begun ticket
    have change := sameUnderway ticket
    simp only [tally_append]
    omega
  · intro ticket
    have before := accounted.replies ticket
    simp only [answered, answers_append]
    omega
  · intro work member
    rcases underway work member with old | new
    · exact List.mem_append_left _ (accounted.underway work old)
    · exact List.mem_append_right _ new
  · intro reply member
    obtain ⟨work, isBegun, world, isReply⟩ := accounted.own reply member
    exact ⟨work, List.mem_append_left _ isBegun, world, isReply⟩
  · intro reply member
    rcases List.mem_append.mp member with old | new
    · exact accounted.aborted reply old
    · exact aborts reply new

theorem works_of_worker {id : Nat} (taker : event.worker? = some id) : event.works = [] := by
  cases event <;> first | rfl | cases taker

theorem accepts_of_worker {writer : Serializer World Result} {id : Nat}
    (taker : event.worker? = some id) : writer.accepts after event = [] := by
  cases event <;> first | rfl | cases taker

theorem begins_of_no_worker (nobody : event.worker? = none) : after.begins event = [] := by
  simp [Serializer.begins, nobody]

theorem isRun_of_no_worker {writer : Serializer World Result} (nobody : event.worker? = none) :
    writer.isRun event = false := by
  simp [Serializer.isRun, nobody]

/-- A step that no worker takes leaves the workers as they are, or adds one without units. -/
theorem Accounted.passOutside (accounted : journal.Accounted) (replies : List (Reply Result))
    (newcomers : List (Worker World Result)) (nobody : event.worker? = none)
    (workers : after.workers = journal.writer.workers ++ newcomers)
    (idle : ∀ worker ∈ newcomers, worker.stage = .opening)
    (answered : after.replies = journal.writer.replies ++ replies)
    (aborts : ∀ reply ∈ replies, ∃ error, error.isAbort = true ∧ reply.result = .error error)
    (passes : ∀ ticket, tally event.works ticket + tally journal.writer.queue ticket +
        tally (journal.writer.shutdowns.flatMap fun shutdown => shutdown.stage.inHand) ticket =
      answers replies ticket + tally after.queue ticket +
        tally (after.shutdowns.flatMap fun shutdown => shutdown.stage.inHand) ticket) :
    (journal.note event after).Accounted := by
  have begins : after.begins event = [] := begins_of_no_worker nobody
  have noUnits : ∀ units : WorkerStage World Result → List (Work World Result),
      units .opening = [] →
        (after.workers.flatMap fun worker => units worker.stage) =
          journal.writer.workers.flatMap fun worker => units worker.stage := by
    intro units isNone
    have noMore : (newcomers.flatMap fun worker => units worker.stage) = [] := by
      refine List.flatMap_eq_nil_iff.mpr fun worker member => ?_
      rw [idle worker member, isNone]
    rw [workers, List.flatMap_append, noMore, List.append_nil]
  have underway : after.underway = journal.writer.underway := noUnits WorkerStage.underway rfl
  refine accounted.pass (isRun_of_no_worker nobody) answered aborts ?_ ?_ ?_ ?_
  · intro ticket
    have change := passes ticket
    simp only [begins, Serializer.inHand, noUnits WorkerStage.inHand rfl, tally_append, tally_nil]
    omega
  · intro ticket
    rw [underway, begins, tally_nil, Nat.add_zero]
  · intro work member
    exact .inl (underway ▸ member)
  · intro worker member works error refuses
    rcases List.mem_append.mp (workers ▸ member) with old | new
    · exact accounted.refusals worker old works error refuses
    · cases (idle worker new).symm.trans refuses

theorem Accounted.submit (accounted : journal.Accounted) (work : Work World Result)
    (canStart : Bool) :
    (journal.note (.submit work canStart) (journal.writer.submit work canStart)).Accounted := by
  rcases submit_cases journal.writer work canStart with
    ⟨error, isAbort, isAfter⟩ | ⟨_, _, isAfter⟩ | ⟨_, isAfter⟩
  · rw [isAfter]
    refine accounted.passOutside _ [] rfl (List.append_nil _).symm (by simp) rfl
      (by simpa using isAbort) ?_
    intro ticket
    simp [Event.works, Serializer.reply]
  · rw [isAfter]
    refine accounted.passOutside [] _ rfl rfl (by simp) (List.append_nil _).symm
      (by simp) ?_
    intro ticket
    simp [Event.works]
    omega
  · rw [isAfter]
    refine accounted.passOutside [] [] rfl (List.append_nil _).symm
      (by simp) (List.append_nil _).symm (by simp) ?_
    intro ticket
    simp [Event.works]
    omega

theorem Accounted.cancel (accounted : journal.Accounted) (token : Nat) :
    (journal.note (.cancel token)
      { journal.writer with canceled := token :: journal.writer.canceled }).Accounted := by
  refine accounted.passOutside [] [] rfl (List.append_nil _).symm
    (by simp) (List.append_nil _).symm (by simp) ?_
  intro ticket
  simp [Event.works]

theorem Accounted.shutdown (accounted : journal.Accounted) (call : Nat) :
    (journal.note (.shutdown call) (journal.writer.beginShutdown call)).Accounted := by
  rcases beginShutdown_cases journal.writer call with ⟨_, isAfter⟩ | ⟨_, isAfter⟩ | ⟨_, _, isAfter⟩
  all_goals
    rw [isAfter]
    refine accounted.passOutside [] [] rfl (List.append_nil _).symm
      (by simp) (List.append_nil _).symm (by simp) ?_
    intro ticket
    simp [Event.works, ShutdownStage.inHand]

theorem Accounted.proceed (accounted : journal.Accounted) (sound : journal.writer.Sound)
    {call : Nat} {part next : ShutdownStage World Result} {rest : Serializer World Result}
    (found : journal.writer.shutdown? call = some part)
    (turn : CallTurn journal.writer part next rest) :
    (journal.note (.proceed call) (rest.setShutdown call next)).Accounted := by
  have cast := turn.sameCast
  have restFound : rest.shutdown? call = some part := (cast.shutdown? call).trans found
  obtain ⟨replies, answered, aborts, passes⟩ := turn.passes
  refine accounted.passOutside replies [] rfl ?_ (by simp) answered aborts ?_
  · rw [List.append_nil]
    exact cast.workers
  · intro ticket
    have passed := passes ticket
    have moved := tally_setShutdown (cast.distinct sound.distinct) restFound next ticket
    rw [cast.shutdowns] at moved
    have sameQueue : (rest.setShutdown call next).queue = rest.queue := rfl
    simp only [Event.works, tally_nil, sameQueue]
    omega

section WorkerTurns

variable {id : Nat} {stage : WorkerStage World Result} {next? : Option (WorkerStage World Result)}
  {rest : Serializer World Result} {work : Work World Result}

theorem begins_place (distinct : rest.Distinct) (taker : event.worker? = some id)
    (found : rest.worker? id = some stage) (next? : Option (WorkerStage World Result)) :
    (rest.place id next?).begins event = next?.elim [] WorkerStage.underway := by
  simp only [Serializer.begins, taker, Option.bind_some, worker?_place distinct found next?]

theorem isRun_of_worker (taker : event.worker? = some id) (found : rest.worker? id = some stage) :
    rest.isRun event = stage.isExecuting := by
  simp only [Serializer.isRun, taker, Option.bind_some, found, Option.any_some]

theorem mem_underway_place (distinct : rest.Distinct) (found : rest.worker? id = some stage)
    (member : work ∈ (rest.place id next?).underway) :
    work ∈ rest.underway ∨ work ∈ next?.elim [] WorkerStage.underway := by
  obtain ⟨worker, inPlace, isUnit⟩ := List.mem_flatMap.mp member
  rcases (mem_place distinct found).mp inPlace with ⟨next, rfl, rfl⟩ | ⟨old, _⟩
  · exact .inr isUnit
  · exact .inl (List.mem_flatMap.mpr ⟨worker, old, isUnit⟩)

theorem Accounted.refusals_place (accounted : journal.Accounted) (distinct : rest.Distinct)
    (workers : rest.workers = journal.writer.workers) (found : rest.worker? id = some stage)
    (turn : Turn journal.writer stage next? rest) :
    ∀ worker ∈ (rest.place id next?).workers, ∀ works error,
      worker.stage = .refusing works error → error.isAbort = true := by
  intro worker member works error refuses
  rcases (mem_place distinct found).mp member with ⟨next, isNext, rfl⟩ | ⟨old, _⟩
  · exact turn.refusal (accounted.refusals _ (workers ▸ mem_of_worker? found))
      (isNext.trans (congrArg some refuses))
  · exact accounted.refusals worker (workers ▸ old) works error refuses

/-- The turn of a worker that runs no unit. -/
theorem Accounted.goOn (accounted : journal.Accounted) (sound : journal.writer.Sound)
    (taker : event.worker? = some id) (found : journal.writer.worker? id = some stage)
    (turn : Turn journal.writer stage next? rest) (notRun : stage.isExecuting = false) :
    (journal.note event (rest.place id next?)).Accounted := by
  have cast := turn.sameCast.1
  have distinct := cast.distinct sound.distinct
  have restFound : rest.worker? id = some stage := (cast.worker? id).trans found
  have begins := begins_place distinct taker restFound next?
  have noUnit : stage.underway = [] := by cases stage <;> first | rfl | cases notRun
  obtain ⟨replies, answered, aborts, passes⟩ :=
    turn.passes notRun (accounted.refusals _ (mem_of_worker? found))
  refine accounted.pass ((isRun_of_worker taker found).trans notRun) answered aborts ?_ ?_ ?_
    (accounted.refusals_place distinct cast.workers restFound turn)
  · intro ticket
    have passed := passes ticket
    have moved := tally_place distinct restFound next? WorkerStage.inHand ticket
    have sameQueue : (rest.place id next?).queue = rest.queue := rfl
    have sameCalls : (rest.place id next?).shutdowns = journal.writer.shutdowns := cast.shutdowns
    rw [cast.workers] at moved
    simp only [works_of_worker taker, begins, Serializer.inHand, tally_append, tally_nil,
      sameQueue, sameCalls]
    omega
  · intro ticket
    have moved := tally_place distinct restFound next? WorkerStage.underway ticket
    rw [noUnit, tally_nil, cast.workers] at moved
    rw [begins]
    exact moved
  · intro work member
    rw [begins]
    refine (mem_underway_place distinct restFound member).imp_left fun old => ?_
    rwa [Serializer.underway, cast.workers] at old

/-- The turn of a worker that runs its unit. -/
theorem Accounted.run (accounted : journal.Accounted) (sound : journal.writer.Sound)
    (taker : event.worker? = some id) (found : journal.writer.worker? id = some stage)
    (turn : Turn journal.writer stage next? rest) (isRun : stage.isExecuting = true) :
    (journal.note event (rest.place id next?)).Accounted := by
  have cast := turn.sameCast.1
  have distinct := cast.distinct sound.distinct
  have restFound : rest.worker? id = some stage := (cast.worker? id).trans found
  have refusals := accounted.refusals_place distinct cast.workers restFound turn
  obtain ⟨work, rfl, rfl, queue, _, answered⟩ := turn.runs isRun
  have isBegun : work ∈ journal.begun := by
    apply accounted.underway
    exact List.mem_flatMap.mpr ⟨_, mem_of_worker? found, List.mem_singleton.mpr rfl⟩
  generalize isAfter : rest.place id (some (.choosing false)) = after at refusals
  have sameReplies : after.replies = rest.replies := isAfter ▸ rfl
  have sameQueue : after.queue = rest.queue := isAfter ▸ rfl
  have sameCalls : after.shutdowns = journal.writer.shutdowns := isAfter ▸ cast.shutdowns
  have noted : journal.note event after =
      { journal with
        writer := after
        ran := journal.ran ++ [⟨work.ticket, (work.perform journal.writer.world).1⟩] } := by
    have begins : after.begins event = [] := isAfter ▸ begins_place distinct taker restFound _
    have goesOn : journal.writer.isBreak event = false := by
      simp [isBreak, taker, found, breaksAt]
    simp [note, begins, works_of_worker taker, accepts_of_worker taker,
      isRun_of_worker taker found, isRun, goesOn, sameReplies, answered]
  rw [noted]
  refine
    { submitted := ?_
      begun := ?_
      replies := ?_
      underway := ?_
      own := ?_
      aborted := accounted.aborted
      refusals := refusals }
  · intro ticket
    have before := accounted.submitted ticket
    have moved := tally_place distinct restFound (some (.choosing false))
      WorkerStage.inHand ticket
    rw [cast.workers, isAfter] at moved
    change _ + 0 = _ + 0 at moved
    simp only [Serializer.inHand, tally_append] at before ⊢
    rw [sameQueue, queue, sameCalls]
    omega
  -- The unit is in the worker's hands no longer, and its reply has come in its place.
  · intro ticket
    have before := accounted.begun ticket
    have moved := tally_place distinct restFound (some (.choosing false))
      WorkerStage.underway ticket
    rw [cast.workers, isAfter] at moved
    change _ + tally [work] ticket = _ + 0 at moved
    simp only [Serializer.underway, answers_append, answers_cons, answers_nil, tally_cons,
      tally_nil] at before moved ⊢
    omega
  · intro ticket
    have before := accounted.replies ticket
    simp only [sameReplies, answered, answers_append]
    omega
  · intro other member
    rw [← isAfter] at member
    rcases mem_underway_place distinct restFound member with old | new
    · rw [Serializer.underway, cast.workers] at old
      exact accounted.underway other old
    · cases new
  · intro reply member
    rcases List.mem_append.mp member with old | new
    · exact accounted.own reply old
    · exact ⟨work, isBegun, journal.writer.world, List.mem_singleton.mp new⟩

end WorkerTurns

theorem accounted_new (config : WriterConfig)
    (connect prepare : World → Except EngineError Unit × World) (world : World) :
    (new config connect prepare world : Journal World Result).Accounted where
  submitted := fun _ => rfl
  begun := fun _ => rfl
  replies := fun _ => rfl
  underway := by simp [new, Serializer.new, Serializer.underway]
  own := by simp [new]
  aborted := by simp [new]
  refusals := by simp [new, Serializer.new]

theorem Accounted.step {later : Journal World Result} (accounted : journal.Accounted)
    (sound : journal.writer.Sound) (taken : journal.step event = some later) :
    later.Accounted := by
  obtain ⟨after, stepped, rfl⟩ := Option.map_eq_some_iff.mp taken
  cases step_cases stepped with
  | submit work canStart => exact accounted.submit work canStart
  | cancel token => exact accounted.cancel token
  | @turn _ _ stage _ _ taker found turn =>
      cases isExecuting : stage.isExecuting with
      | false => exact accounted.goOn sound taker found turn isExecuting
      | true => exact accounted.run sound taker found turn isExecuting
  | shutdown fresh => exact accounted.shutdown _
  | proceed found turn => exact accounted.proceed sound found turn

theorem Reachable.accounted (reachable : journal.Reachable) : journal.Accounted := by
  induction reachable with
  | new config connect prepare world => exact accounted_new config connect prepare world
  | step before event taken ih => exact ih.step before.writer.sound taken

end Accounted

end Journal

end DurableJobs.Writer
