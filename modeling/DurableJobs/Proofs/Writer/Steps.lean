import DurableJobs.Writer.Serializer
import Mathlib.Data.List.Nodup
import Mathlib.Data.List.Perm.Basic

/-!
Steps of a writer, in any order.

What can happen to a writer is any sequence of events from a fresh one, each taken when it can be. A
turn of a worker moves it to its next stage or ends it, and a call of `shutdown` moves on by its own
turns; each turn says which other fields change.
-/

set_option autoImplicit false

namespace DurableJobs.Writer

variable {World Result : Type}

/-! ### Entries with different keys -/

section Keyed

variable {Entry : Type} {key : Entry → Nat} {entries : List Entry} {old : Entry}

/-- The entry that has a key, and the entries of the other keys. -/
theorem perm_cons_others (distinct : (entries.map key).Nodup) (member : old ∈ entries) :
    entries.Perm (old :: entries.filter fun entry => key entry != key old) := by
  induction entries with
  | nil => cases member
  | cons first rest ih =>
      obtain ⟨isNew, restDistinct⟩ := List.nodup_cons.mp distinct
      have different : ∀ entry ∈ rest, key entry ≠ key first := by
        intro entry inRest same
        exact isNew (same ▸ List.mem_map_of_mem inRest)
      rcases List.mem_cons.mp member with rfl | inRest
      · have others : (rest.filter fun entry => key entry != key old) = rest := by
          apply List.filter_eq_self.mpr
          intro entry inRest
          simpa using different entry inRest
        simp [others]
      · have apart : key first ≠ key old := (different old inRest).symm
        simp only [List.filter_cons, bne_iff_ne, ne_eq, apart, not_false_eq_true, ↓reduceIte]
        exact ((ih restDistinct inRest).cons first).trans (.swap old first _)

/-- Putting an entry in the place of the one with its key leaves the others. -/
theorem perm_replace (distinct : (entries.map key).Nodup) (member : old ∈ entries) (new : Entry) :
    (entries.map fun entry => if key entry = key old then new else entry).Perm
      (new :: entries.filter fun entry => key entry != key old) := by
  have replaced := (perm_cons_others distinct member).map
    fun entry => if key entry = key old then new else entry
  have kept : ((entries.filter fun entry => key entry != key old).map
      fun entry => if key entry = key old then new else entry) =
      entries.filter fun entry => key entry != key old := by
    refine (List.map_congr_left fun entry member => if_neg ?_).trans (List.map_id _)
    simpa using (List.mem_filter.mp member).2
  simpa [kept] using replaced

theorem keys_replace (key : Entry → Nat) (new : Entry) (entries : List Entry) :
    (entries.map fun entry => if key entry = key new then new else entry).map key =
      entries.map key := by
  rw [List.map_map]
  apply List.map_congr_left
  intro entry _
  by_cases same : key entry = key new <;> simp [same]

end Keyed

/-- The worker that takes an event. -/
def Event.worker? : Event World Result → Option Nat
  | .wake id _ => some id
  | .work id => some id
  | _ => none

/-- What running a unit on a world gives. -/
def Work.perform (work : Work World Result) (world : World) : Except EngineError Result × World :=
  if work.isAwaited && !work.hasRuntime then (.error .noRuntime, world)
  else ((work.body world).1.result, (work.body world).2)

namespace Serializer

/-! ### Look-up -/

structure Distinct (writer : Serializer World Result) : Prop where
  workers : (writer.workers.map Worker.id).Nodup
  shutdowns : (writer.shutdowns.map Shutdown.call).Nodup

section Lookup

variable {writer : Serializer World Result} {id call : Nat} {stage : WorkerStage World Result}
  {part : ShutdownStage World Result}

theorem mem_of_worker? (found : writer.worker? id = some stage) : ⟨id, stage⟩ ∈ writer.workers := by
  obtain ⟨worker, isWorker, rfl⟩ := Option.map_eq_some_iff.mp found
  have isId : worker.id = id := by simpa using List.find?_some isWorker
  exact isId ▸ List.mem_of_find?_eq_some isWorker

theorem Distinct.worker?_of_mem (distinct : writer.Distinct) {worker : Worker World Result}
    (member : worker ∈ writer.workers) : writer.worker? worker.id = some worker.stage := by
  have isFound : (writer.worker? worker.id).isSome = true := by
    simp only [worker?, Option.isSome_map, List.find?_isSome]
    exact ⟨worker, member, by simp⟩
  obtain ⟨stage, found⟩ := Option.isSome_iff_exists.mp isFound
  have same : (⟨worker.id, stage⟩ : Worker World Result) = worker :=
    List.inj_on_of_nodup_map distinct.workers (mem_of_worker? found) member rfl
  rw [found, ← same]

theorem mem_of_shutdown? (found : writer.shutdown? call = some part) :
    ⟨call, part⟩ ∈ writer.shutdowns := by
  obtain ⟨shutdown, isShutdown, rfl⟩ := Option.map_eq_some_iff.mp found
  have isCall : shutdown.call = call := by simpa using List.find?_some isShutdown
  exact isCall ▸ List.mem_of_find?_eq_some isShutdown

end Lookup

@[simp] theorem queue_reply (writer : Serializer World Result) (ticket : Nat)
    (result : Except EngineError Result) : (writer.reply ticket result).queue = writer.queue := rfl

/-! ### Turns -/

/-- Moves a worker to its next stage, or ends it. -/
def place (writer : Serializer World Result) (id : Nat)
    (next? : Option (WorkerStage World Result)) : Serializer World Result :=
  { writer with
    workers :=
      match next? with
      | some stage => (writer.setWorker id stage).workers
      | none => (writer.endWorker id).workers }

/-- A worker's turn: the stage it is in, the stage it moves to, and the writer but for the
worker. -/
inductive Turn (writer : Serializer World Result) : WorkerStage World Result →
    Option (WorkerStage World Result) → Serializer World Result → Prop where
  | open {world : World} (opened : writer.openConnection = (some (.ok ()), world)) :
      Turn writer .opening (some .opened) { writer with world := world }
  | breakOpening {world : World} (broken : writer.openConnection = (none, world)) :
      Turn writer .opening none { writer with world := world }
  | failOpening {error : EngineError} {world : World}
      (failed : writer.openConnection = (some (.error error), world)) :
      Turn writer .opening (some (.refusing writer.queue (.writerUnavailable error.message)))
        { writer with
          world := world
          state := if writer.state = .starting then .idle else writer.state
          queue := [] }
  | run :
      Turn writer .opened (some (.choosing false))
        { writer with state := if writer.state = .starting then .running else writer.state }
  | breakWaiting {isLate : Bool}
      (broken : longestIdleSeconds < writer.config.idleTimeout.seconds) :
      Turn writer (.choosing isLate) none writer
  | close {isLate : Bool} (signalled : writer.isSignalled = true) :
      Turn writer (.choosing isLate) (some .closing) writer
  | take {isLate : Bool} {work : Work World Result} {rest : List (Work World Result)}
      (goesOn : writer.isSignalled = false) (isQueue : writer.queue = work :: rest) :
      Turn writer (.choosing isLate) (some (.holding work)) { writer with queue := rest }
  | lapse (fits : writer.config.idleTimeout.seconds ≤ longestIdleSeconds)
      (goesOn : writer.isSignalled = false) (empty : writer.queue = []) :
      Turn writer (.choosing true) none { writer with state := .idle }
  | wait (goesOn : writer.isSignalled = false) (empty : writer.queue = []) :
      Turn writer (.choosing false) (some .waiting) writer
  | wake (isLate : Bool) : Turn writer .waiting (some (.choosing isLate)) writer
  | skip {work : Work World Result} (canceled : writer.isCanceled work = true) :
      Turn writer (.holding work) (some (.choosing false))
        (writer.reply work.ticket (.error .canceled))
  | begin {work : Work World Result} (wanted : writer.isCanceled work = false) :
      Turn writer (.holding work) (some (.executing work)) writer
  | finish {work : Work World Result} :
      Turn writer (.executing work) (some (.choosing false))
        ({ writer with world := (work.perform writer.world).2 }.reply work.ticket
          (work.perform writer.world).1)
  | empty :
      Turn writer .closing (some (.refusing writer.queue .canceled))
        { writer with state := .stopped, queue := [] }
  | refuse {work : Work World Result} {rest : List (Work World Result)} {error : EngineError} :
      Turn writer (.refusing (work :: rest) error) (some (.refusing rest error))
        (writer.reply work.ticket (.error error))
  | leave {error : EngineError} : Turn writer (.refusing [] error) none writer

/-- A turn of a call of `shutdown`. -/
inductive CallTurn (writer : Serializer World Result) : ShutdownStage World Result →
    ShutdownStage World Result → Serializer World Result → Prop where
  | signal {worker : Option Nat} :
      CallTurn writer (.announced worker) (.signalled worker) { writer with isSignalled := true }
  | join {worker : Option Nat}
      (ended : ∀ id, worker = some id → writer.worker? id = none) :
      CallTurn writer (.signalled worker) .joined writer
  | empty :
      CallTurn writer .joined (.refusing writer.queue)
        { writer with state := .stopped, queue := [] }
  | refuse {work : Work World Result} {rest : List (Work World Result)} :
      CallTurn writer (.refusing (work :: rest)) (.refusing rest)
        (writer.reply work.ticket (.error .canceled))
  | return : CallTurn writer (.refusing []) .returned writer

/-- A step: the event, and the writer after it. -/
inductive Step (writer : Serializer World Result) :
    Event World Result → Serializer World Result → Prop where
  | submit (work : Work World Result) (canStart : Bool) :
      Step writer (.submit work canStart) (writer.submit work canStart)
  | cancel (token : Nat) :
      Step writer (.cancel token) { writer with canceled := token :: writer.canceled }
  | turn {event : Event World Result} {id : Nat} {stage : WorkerStage World Result}
      {next? : Option (WorkerStage World Result)} {rest : Serializer World Result}
      (taker : event.worker? = some id) (found : writer.worker? id = some stage)
      (turn : Turn writer stage next? rest) : Step writer event (rest.place id next?)
  | shutdown {call : Nat} (fresh : writer.shutdown? call = none) :
      Step writer (.shutdown call) (writer.beginShutdown call)
  | proceed {call : Nat} {stage next : ShutdownStage World Result}
      {rest : Serializer World Result} (found : writer.shutdown? call = some stage)
      (turn : CallTurn writer stage next rest) :
      Step writer (.proceed call) (rest.setShutdown call next)

section Turns

variable {writer after : Serializer World Result} {id call : Nat}

/-- A worker answers the unit that it executes with the unit's own result. -/
theorem advance_executing (writer : Serializer World Result) (id : Nat) (work : Work World Result) :
    writer.advance id (.executing work) =
      some (({ writer with world := (work.perform writer.world).2 }.reply work.ticket
        (work.perform writer.world).1).place id (some (.choosing false))) := by
  cases missing : (work.isAwaited && !work.hasRuntime) with
  | true =>
      simp only [advance, Work.perform, missing, ↓reduceIte]
      rfl
  | false =>
      simp only [advance, Work.perform, missing]
      rfl

theorem turn_of_advance {stage : WorkerStage World Result}
    (taken : writer.advance id stage = some after) :
    ∃ next? rest, Turn writer stage next? rest ∧ after = rest.place id next? := by
  cases stage with
  | opening =>
      obtain rfl := Option.some.inj taken
      unfold openWorker
      split
      · next world broken => exact ⟨_, _, .breakOpening broken, rfl⟩
      · next world opened => exact ⟨_, _, .open opened, rfl⟩
      · next error world failed => exact ⟨_, _, .failOpening failed, rfl⟩
  | opened =>
      obtain rfl := Option.some.inj taken
      exact ⟨_, _, .run, rfl⟩
  | choosing isLate =>
      obtain rfl := Option.some.inj taken
      unfold choose
      split
      · next broken => exact ⟨_, _, .breakWaiting broken, rfl⟩
      · next fits =>
          split
          · next signalled => exact ⟨_, _, .close signalled, rfl⟩
          · next goesOn =>
              have notSignalled : writer.isSignalled = false := by simpa using goesOn
              split
              · next work rest isQueue => exact ⟨_, _, .take notSignalled isQueue, rfl⟩
              · next empty =>
                  cases isLate with
                  | true => exact ⟨_, _, .lapse (by omega) notSignalled empty, rfl⟩
                  | false => exact ⟨_, _, .wait notSignalled empty, rfl⟩
  | waiting => cases taken
  | holding work =>
      simp only [advance] at taken
      split at taken
      · next canceled =>
          obtain rfl := Option.some.inj taken
          exact ⟨_, _, .skip canceled, rfl⟩
      · next wanted =>
          obtain rfl := Option.some.inj taken
          exact ⟨_, _, .begin (by simpa using wanted), rfl⟩
  | executing work =>
      rw [advance_executing] at taken
      obtain rfl := Option.some.inj taken
      exact ⟨_, _, .finish, rfl⟩
  | closing =>
      obtain rfl := Option.some.inj taken
      exact ⟨_, _, .empty, rfl⟩
  | refusing works error =>
      cases works with
      | nil =>
          obtain rfl := Option.some.inj taken
          exact ⟨_, _, .leave, rfl⟩
      | cons work rest =>
          obtain rfl := Option.some.inj taken
          exact ⟨_, _, .refuse, rfl⟩

theorem turn_of_proceed {stage : ShutdownStage World Result}
    (taken : writer.proceed call stage = some after) :
    ∃ next rest, CallTurn writer stage next rest ∧ after = rest.setShutdown call next := by
  cases stage with
  | announced worker =>
      obtain rfl := Option.some.inj taken
      exact ⟨_, _, .signal, rfl⟩
  | signalled worker =>
      cases worker with
      | none =>
          obtain rfl := Option.some.inj taken
          exact ⟨_, _, .join (by simp), rfl⟩
      | some id =>
          simp only [proceed] at taken
          split at taken
          · cases taken
          · next ended =>
              obtain rfl := Option.some.inj taken
              refine ⟨_, _, .join ?_, rfl⟩
              rintro other ⟨⟩
              simpa using ended
  | joined =>
      obtain rfl := Option.some.inj taken
      exact ⟨_, _, .empty, rfl⟩
  | refusing works =>
      cases works with
      | nil =>
          obtain rfl := Option.some.inj taken
          exact ⟨_, _, .return, rfl⟩
      | cons work rest =>
          obtain rfl := Option.some.inj taken
          exact ⟨_, _, .refuse, rfl⟩
  | returned => cases taken

theorem step_cases {event : Event World Result} (taken : writer.step event = some after) :
    Step writer event after := by
  cases event with
  | submit work canStart =>
      obtain rfl := Option.some.inj taken
      exact .submit work canStart
  | cancel token =>
      obtain rfl := Option.some.inj taken
      exact .cancel token
  | wake id isLate =>
      simp only [step] at taken
      split at taken
      · next found =>
          obtain rfl := Option.some.inj taken
          exact .turn rfl found (.wake isLate)
      · cases taken
  | work id =>
      obtain ⟨stage, found, advanced⟩ := Option.bind_eq_some_iff.mp taken
      obtain ⟨next?, rest, turn, rfl⟩ := turn_of_advance advanced
      exact .turn rfl found turn
  | shutdown call =>
      simp only [step] at taken
      split at taken
      · cases taken
      · next fresh =>
          obtain rfl := Option.some.inj taken
          exact .shutdown (by simpa using fresh)
  | proceed call =>
      obtain ⟨stage, found, proceeded⟩ := Option.bind_eq_some_iff.mp taken
      obtain ⟨next, rest, turn, rfl⟩ := turn_of_proceed proceeded
      exact .proceed found turn

/-- What no turn changes by itself: who there is, and what was asked of the writer. -/
structure SameCast (writer rest : Serializer World Result) : Prop where
  workers : rest.workers = writer.workers
  shutdowns : rest.shutdowns = writer.shutdowns
  joinable : rest.joinable = writer.joinable
  starts : rest.starts = writer.starts
  canceled : rest.canceled = writer.canceled
  config : rest.config = writer.config
  connect : rest.connect = writer.connect
  prepare : rest.prepare = writer.prepare

theorem Turn.sameCast {stage : WorkerStage World Result}
    {next? : Option (WorkerStage World Result)} {rest : Serializer World Result}
    (turn : Turn writer stage next? rest) :
    SameCast writer rest ∧ rest.isSignalled = writer.isSignalled := by
  cases turn <;> exact ⟨⟨rfl, rfl, rfl, rfl, rfl, rfl, rfl, rfl⟩, rfl⟩

theorem CallTurn.sameCast {stage next : ShutdownStage World Result}
    {rest : Serializer World Result} (turn : CallTurn writer stage next rest) :
    SameCast writer rest := by
  cases turn <;> exact ⟨rfl, rfl, rfl, rfl, rfl, rfl, rfl, rfl⟩

end Turns

/-! ### Who is left in place -/

section Place

variable {writer rest : Serializer World Result} {id call : Nat}
  {stage : WorkerStage World Result} {part next : ShutdownStage World Result}

theorem Distinct.perm_workers (distinct : writer.Distinct)
    (found : writer.worker? id = some stage) :
    writer.workers.Perm (⟨id, stage⟩ :: (writer.endWorker id).workers) :=
  perm_cons_others distinct.workers (mem_of_worker? found)

theorem Distinct.perm_place (distinct : writer.Distinct)
    (found : writer.worker? id = some stage) (next? : Option (WorkerStage World Result)) :
    (writer.place id next?).workers.Perm
      (next?.toList.map (Worker.mk id) ++ (writer.endWorker id).workers) := by
  cases next? with
  | none => exact .refl _
  | some next =>
      exact perm_replace distinct.workers (mem_of_worker? found) (⟨id, next⟩ : Worker World Result)

theorem Distinct.place (distinct : writer.Distinct) (id : Nat)
    (next? : Option (WorkerStage World Result)) : (writer.place id next?).Distinct := by
  cases next? with
  | none => exact ⟨distinct.workers.sublist (List.filter_sublist.map _), distinct.shutdowns⟩
  | some next =>
      have same : (writer.setWorker id next).workers.map Worker.id =
          writer.workers.map Worker.id :=
        keys_replace Worker.id ⟨id, next⟩ writer.workers
      exact ⟨same ▸ distinct.workers, distinct.shutdowns⟩

theorem Distinct.setShutdown (distinct : writer.Distinct) (call : Nat)
    (next : ShutdownStage World Result) : (writer.setShutdown call next).Distinct := by
  have same : (writer.setShutdown call next).shutdowns.map Shutdown.call =
      writer.shutdowns.map Shutdown.call :=
    keys_replace Shutdown.call ⟨call, next⟩ writer.shutdowns
  exact ⟨distinct.workers, same ▸ distinct.shutdowns⟩

theorem mem_place {next? : Option (WorkerStage World Result)} {worker : Worker World Result}
    (distinct : writer.Distinct) (found : writer.worker? id = some stage) :
    worker ∈ (writer.place id next?).workers ↔
      (∃ next, next? = some next ∧ worker = ⟨id, next⟩) ∨
        (worker ∈ writer.workers ∧ worker.id ≠ id) := by
  rw [(distinct.perm_place found next?).mem_iff, List.mem_append]
  cases next? <;> simp [endWorker]

theorem Distinct.perm_shutdowns (distinct : writer.Distinct)
    (found : writer.shutdown? call = some part) :
    writer.shutdowns.Perm
      (⟨call, part⟩ :: writer.shutdowns.filter fun shutdown => shutdown.call != call) :=
  perm_cons_others distinct.shutdowns (mem_of_shutdown? found)

theorem Distinct.perm_setShutdown (distinct : writer.Distinct)
    (found : writer.shutdown? call = some part) (next : ShutdownStage World Result) :
    (writer.setShutdown call next).shutdowns.Perm
      (⟨call, next⟩ :: writer.shutdowns.filter fun shutdown => shutdown.call != call) :=
  perm_replace distinct.shutdowns (mem_of_shutdown? found) (⟨call, next⟩ : Shutdown World Result)

theorem mem_setShutdown {shutdown : Shutdown World Result} (distinct : writer.Distinct)
    (found : writer.shutdown? call = some part) :
    shutdown ∈ (writer.setShutdown call next).shutdowns ↔
      shutdown = ⟨call, next⟩ ∨ (shutdown ∈ writer.shutdowns ∧ shutdown.call ≠ call) := by
  rw [(distinct.perm_setShutdown found next).mem_iff]
  simp

theorem Distinct.eq_of_call (distinct : writer.Distinct)
    (found : writer.shutdown? call = some part) {shutdown : Shutdown World Result}
    (member : shutdown ∈ writer.shutdowns) (isCall : shutdown.call = call) :
    shutdown = ⟨call, part⟩ :=
  List.inj_on_of_nodup_map distinct.shutdowns member (mem_of_shutdown? found) isCall

end Place

/-! ### Courses -/

/-- An outcome that shows what is asked of it. -/
theorem exists_of_map_eq_some {Outcome Shown : Type} {outcome? : Option Outcome}
    {shows : Outcome → Shown} {shown : Shown} {Holds : Outcome → Prop}
    (isShown : outcome?.map shows = some shown)
    (holds : ∀ outcome, outcome? = some outcome → shows outcome = shown → Holds outcome) :
    ∃ outcome, outcome? = some outcome ∧ shows outcome = shown ∧ Holds outcome := by
  obtain ⟨outcome, isOutcome, same⟩ := Option.map_eq_some_iff.mp isShown
  exact ⟨outcome, isOutcome, same, holds outcome isOutcome same⟩

/-- The writer after some events, if each of them can happen in its turn. -/
def run? (writer : Serializer World Result) :
    List (Event World Result) → Option (Serializer World Result)
  | [] => some writer
  | event :: rest => (writer.step event).bind fun after => after.run? rest

inductive Reachable : Serializer World Result → Prop where
  | new (config : WriterConfig) (connect prepare : World → Except EngineError Unit × World)
      (world : World) : Reachable (new config connect prepare world)
  | step {writer after : Serializer World Result} (reachable : Reachable writer)
      (event : Event World Result) (taken : writer.step event = some after) : Reachable after

theorem Reachable.run {writer after : Serializer World Result} (reachable : Reachable writer)
    {events : List (Event World Result)} (ran : writer.run? events = some after) :
    Reachable after := by
  induction events generalizing writer with
  | nil => exact Option.some.inj ran ▸ reachable
  | cons event rest ih =>
      obtain ⟨middle, taken, isRest⟩ := Option.bind_eq_some_iff.mp ran
      exact ih (reachable.step event taken) isRest

end Serializer

end DurableJobs.Writer
