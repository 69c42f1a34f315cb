import DurableJobs.Proofs.Writer.Steps

/-!
Phases of a writer.

At most one worker is active: all others only refuse work that they took from the queue before. The
state says what there is: nobody is active while the writer is idle, the active worker is the one
that can be joined while it starts or runs, and the queue of an idle or stopped writer is empty.
Only a configuration that breaks workers can leave a writer that runs without a worker.
-/

set_option autoImplicit false

namespace DurableJobs

/-- No worker with this configuration breaks outside of a unit: its time to wait for locks can be
set, and a deadline can lie its idle time ahead, on a clock that was just started. -/
def WriterConfig.IsSturdy (config : WriterConfig) : Prop :=
  config.busyTimeout.millis ≤ Writer.Serializer.longestBusyMillis ∧
    config.idleTimeout.seconds ≤ Writer.Serializer.longestIdleSeconds

instance (config : WriterConfig) : Decidable config.IsSturdy :=
  inferInstanceAs (Decidable (_ ∧ _))

/-- Whether the error answers a unit that is given up without being run. -/
def EngineError.isAbort : EngineError → Bool
  | .canceled => true
  | .shutDown _ => true
  | .writerUnavailable _ => true
  | _ => false

namespace Writer

variable {World Result : Type}

/-- Whether a worker still has to do with the queue. -/
def WorkerStage.isActive : WorkerStage World Result → Bool
  | .refusing _ _ => false
  | _ => true

def WorkerStage.isOpening : WorkerStage World Result → Bool
  | .opening => true
  | .opened => true
  | _ => false

/-- Whether a call of `shutdown` is still to empty the queue. -/
def ShutdownStage.isPending : ShutdownStage World Result → Bool
  | .announced _ => true
  | .signalled _ => true
  | .joined => true
  | _ => false

/-- Whether a call has given its signal and is still to empty the queue. -/
def ShutdownStage.isWaiting : ShutdownStage World Result → Bool
  | .signalled _ => true
  | .joined => true
  | _ => false

namespace Serializer

def active (writer : Serializer World Result) : List (Worker World Result) :=
  writer.workers.filter fun worker => worker.stage.isActive

/-- Whether a worker gives up waiting for work. The state it finds makes no difference. -/
def lapses (writer : Serializer World Result) : WorkerStage World Result → Bool
  | .choosing true =>
      !writer.isSignalled && writer.queue.isEmpty &&
        decide (writer.config.idleTimeout.seconds ≤ longestIdleSeconds)
  | _ => false

/-- The phase of a writer with these active workers. -/
inductive Phase (writer : Serializer World Result) : List (Worker World Result) → Prop where
  | idle (isState : writer.state = .idle) (empty : writer.queue = []) : Phase writer []
  | starting {worker : Worker World Result} (isState : writer.state = .starting)
      (joinable : writer.joinable = some worker.id) (opening : worker.stage.isOpening = true) :
      Phase writer [worker]
  | running {worker : Worker World Result} (isState : writer.state = .running)
      (joinable : writer.joinable = some worker.id) (opened : worker.stage.isOpening = false) :
      Phase writer [worker]
  | stopping {active : List (Worker World Result)} (isState : writer.state = .stopping)
      (few : active.length ≤ 1)
      (pending : ∃ shutdown ∈ writer.shutdowns, shutdown.stage.isPending = true) :
      Phase writer active
  | stopped {active : List (Worker World Result)} (isState : writer.state = .stopped)
      (few : active.length ≤ 1) (empty : writer.queue = []) (called : writer.shutdowns ≠ [])
      (ended : writer.isSignalled = true ∨ active = []) : Phase writer active
  | broken (isState : writer.state = .starting ∨ writer.state = .running)
      (frail : ¬ writer.config.IsSturdy) : Phase writer []

structure Sound (writer : Serializer World Result) : Prop where
  distinct : writer.Distinct
  issued : ∀ worker ∈ writer.workers, worker.id < writer.starts
  phase : writer.Phase writer.active
  -- The signal is given before anyone acts on it, and never taken back.
  closing : ∀ worker ∈ writer.workers, worker.stage = .closing → writer.isSignalled = true
  waiting : ∀ shutdown ∈ writer.shutdowns, shutdown.stage.isWaiting = true →
    writer.isSignalled = true
  called : writer.isSignalled = true → writer.shutdowns ≠ []
  -- A call that has nothing left to empty has seen the writer stopped, which lasts.
  finished : ∀ shutdown ∈ writer.shutdowns, shutdown.stage.isPending = false →
    writer.state = .stopped

/-! ### Active workers -/

section Active

variable {writer rest : Serializer World Result} {id : Nat} {stage : WorkerStage World Result}

theorem Phase.few {workers : List (Worker World Result)} (phase : writer.Phase workers) :
    workers.length ≤ 1 := by
  cases phase with
  | idle => simp
  | starting => simp
  | running => simp
  | stopping _ few _ => exact few
  | stopped _ few _ _ _ => exact few
  | broken => simp

theorem Phase.of_stopped {workers : List (Worker World Result)} (phase : writer.Phase workers)
    (isStopped : writer.state = .stopped) :
    writer.queue = [] ∧ writer.shutdowns ≠ [] ∧ (writer.isSignalled = true ∨ workers = []) := by
  cases phase with
  | stopped _ _ empty called ended => exact ⟨empty, called, ended⟩
  | idle isState => cases isStopped.symm.trans isState
  | starting isState => cases isStopped.symm.trans isState
  | running isState => cases isStopped.symm.trans isState
  | stopping isState => cases isStopped.symm.trans isState
  | broken isState => simp [isStopped] at isState

/-- A writer that was never shut down is idle, or it starts or runs with a worker that can be
joined, or its worker broke. -/
theorem Phase.of_quiet {workers : List (Worker World Result)} (phase : writer.Phase workers)
    (quiet : writer.shutdowns = []) :
    (writer.state = .idle ∧ writer.queue = [] ∧ workers = []) ∨
      ((writer.state = .starting ∨ writer.state = .running) ∧
        ((∃ worker, workers = [worker] ∧ writer.joinable = some worker.id) ∨
          (workers = [] ∧ ¬ writer.config.IsSturdy))) := by
  cases phase with
  | idle isState empty => exact .inl ⟨isState, empty, rfl⟩
  | starting isState joinable => exact .inr ⟨.inl isState, .inl ⟨_, rfl, joinable⟩⟩
  | running isState joinable => exact .inr ⟨.inr isState, .inl ⟨_, rfl, joinable⟩⟩
  | stopping _ _ pending =>
      obtain ⟨shutdown, member, _⟩ := pending
      rw [quiet] at member
      cases member
  | stopped _ _ _ called => exact absurd quiet called
  | broken isState frail => exact .inr ⟨isState, .inr ⟨rfl, frail⟩⟩

theorem eq_of_perm_of_few {Entry : Type} {left right : List Entry} (few : left.length ≤ 1)
    (perm : left.Perm right) : left = right := by
  match left, few with
  | [], _ => exact perm.nil_eq
  | [entry], _ => exact (List.singleton_perm.mp perm)

theorem SameCast.distinct (cast : SameCast writer rest) (distinct : writer.Distinct) :
    rest.Distinct :=
  ⟨cast.workers ▸ distinct.workers, cast.shutdowns ▸ distinct.shutdowns⟩

theorem SameCast.worker? (cast : SameCast writer rest) (id : Nat) :
    rest.worker? id = writer.worker? id := by
  simp only [Serializer.worker?, cast.workers]

theorem SameCast.active (cast : SameCast writer rest) : rest.active = writer.active := by
  simp only [Serializer.active, cast.workers]

theorem others_not_active (distinct : writer.Distinct) (few : writer.active.length ≤ 1)
    (found : writer.worker? id = some stage) (isActive : stage.isActive = true) :
    writer.active = [⟨id, stage⟩] ∧ (writer.endWorker id).active = [] := by
  have perm : writer.active.Perm (⟨id, stage⟩ :: (writer.endWorker id).active) := by
    have perm := (distinct.perm_workers found).filter fun worker => worker.stage.isActive
    rw [List.filter_cons, if_pos isActive] at perm
    exact perm
  have isEnd := eq_of_perm_of_few few perm
  rw [isEnd] at few
  have nobody : (writer.endWorker id).active = [] := by simpa using few
  exact ⟨by rw [isEnd, nobody], nobody⟩

/-- Only the active worker can be active after its turn. -/
theorem active_place (distinct : writer.Distinct) (few : writer.active.length ≤ 1)
    (found : writer.worker? id = some stage) (isActive : stage.isActive = true)
    (next? : Option (WorkerStage World Result)) :
    (writer.place id next?).active =
      (next?.toList.map (Worker.mk id)).filter fun worker => worker.stage.isActive := by
  have perm := (distinct.perm_place found next?).filter fun worker => worker.stage.isActive
  have nobody := (others_not_active distinct few found isActive).2
  rw [List.filter_append] at perm
  refine (eq_of_perm_of_few ?_ (perm.trans (.of_eq ?_)).symm).symm
  · exact Nat.le_trans (List.length_filter_le _ _) (by cases next? <;> simp)
  · rw [show ((writer.endWorker id).workers.filter fun worker => worker.stage.isActive) = [] from
      nobody, List.append_nil]

/-- The turn of a worker that only refuses work has no part in the queue. -/
theorem active_place_of_refusing (distinct : writer.Distinct) (few : writer.active.length ≤ 1)
    (found : writer.worker? id = some stage) (refuses : stage.isActive = false)
    {next? : Option (WorkerStage World Result)}
    (still : ∀ next, next? = some next → next.isActive = false) :
    (writer.place id next?).active = writer.active := by
  have before := (distinct.perm_workers found).filter fun worker => worker.stage.isActive
  have later := (distinct.perm_place found next?).filter fun worker => worker.stage.isActive
  simp only [List.filter_cons, refuses] at before
  have nobody : ((next?.toList.map (Worker.mk id)).filter fun worker => worker.stage.isActive) =
      [] := by
    cases next? with
    | none => rfl
    | some next => simp [still next rfl]
  rw [List.filter_append, nobody, List.nil_append] at later
  exact (eq_of_perm_of_few few (before.trans later.symm)).symm

end Active

/-! ### Lasting phases -/

section Lasting

variable {writer rest : Serializer World Result}

/-- A phase lasts as long as what it rests on does. -/
theorem Phase.congr {after : Serializer World Result} {workers : List (Worker World Result)}
    (phase : writer.Phase workers) (state : after.state = writer.state)
    (queue : writer.queue = [] → after.queue = []) (joinable : after.joinable = writer.joinable)
    (pending : (∃ shutdown ∈ writer.shutdowns, shutdown.stage.isPending = true) →
      ∃ shutdown ∈ after.shutdowns, shutdown.stage.isPending = true)
    (called : writer.shutdowns ≠ [] → after.shutdowns ≠ [])
    (signals : writer.isSignalled = true → after.isSignalled = true)
    (config : after.config = writer.config) : after.Phase workers := by
  cases phase with
  | idle isState empty => exact .idle (state.trans isState) (queue empty)
  | starting isState isJoinable opening =>
      exact .starting (state.trans isState) (joinable.trans isJoinable) opening
  | running isState isJoinable opened =>
      exact .running (state.trans isState) (joinable.trans isJoinable) opened
  | stopping isState few isPending => exact .stopping (state.trans isState) few (pending isPending)
  | stopped isState few empty isCalled ended =>
      exact .stopped (state.trans isState) few (queue empty) (called isCalled)
        (ended.imp_left signals)
  | broken isState frail => exact .broken (state ▸ isState) (config ▸ frail)

theorem Phase.of_sameCast {after : Serializer World Result} {workers : List (Worker World Result)}
    (phase : writer.Phase workers) (cast : SameCast writer after)
    (signals : after.isSignalled = writer.isSignalled) (state : after.state = writer.state)
    (queue : writer.queue = [] → after.queue = []) : after.Phase workers :=
  phase.congr state queue cast.joinable (fun pending => cast.shutdowns ▸ pending)
    (fun called => cast.shutdowns ▸ called) (fun signalled => signals.trans signalled) cast.config

theorem Phase.place {workers : List (Worker World Result)} (phase : rest.Phase workers)
    (taker : Nat) (next? : Option (WorkerStage World Result)) :
    (rest.place taker next?).Phase workers :=
  phase.congr rfl id rfl id id id rfl

end Lasting

/-! ### What a request does -/

theorem submit_cases (writer : Serializer World Result) (work : Work World Result)
    (canStart : Bool) :
    (∃ error, error.isAbort = true ∧
        writer.submit work canStart = writer.reply work.ticket (.error error)) ∨
      (writer.state = .idle ∧ canStart = true ∧
        writer.submit work canStart =
          { writer with
            queue := writer.queue ++ [work]
            state := .starting
            joinable := some writer.starts
            starts := writer.starts + 1
            workers := writer.workers ++ [⟨writer.starts, .opening⟩] }) ∨
      ((writer.state = .starting ∨ writer.state = .running) ∧
        writer.submit work canStart = { writer with queue := writer.queue ++ [work] }) := by
  unfold submit
  cases isState : writer.state with
  | idle =>
      cases canStart with
      | true => exact .inr (.inl ⟨rfl, rfl, rfl⟩)
      | false => exact .inl ⟨_, rfl, rfl⟩
  | starting => exact .inr (.inr ⟨.inl rfl, rfl⟩)
  | running => exact .inr (.inr ⟨.inr rfl, rfl⟩)
  | stopping => exact .inl ⟨_, rfl, rfl⟩
  | stopped => exact .inl ⟨_, rfl, rfl⟩

theorem beginShutdown_cases (writer : Serializer World Result) (call : Nat) :
    (writer.state = .stopped ∧
        writer.beginShutdown call =
          { writer with shutdowns := writer.shutdowns ++ [⟨call, .returned⟩] }) ∨
      (writer.state = .idle ∧
        writer.beginShutdown call =
          { writer with
            state := .stopped
            shutdowns := writer.shutdowns ++ [⟨call, .announced none⟩] }) ∨
      (writer.state ≠ .idle ∧ writer.state ≠ .stopped ∧
        writer.beginShutdown call =
          { writer with
            state := .stopping
            joinable := none
            shutdowns := writer.shutdowns ++ [⟨call, .announced writer.joinable⟩] }) := by
  unfold beginShutdown
  cases isState : writer.state with
  | idle => exact .inr (.inl ⟨rfl, rfl⟩)
  | starting => exact .inr (.inr ⟨by simp, by simp, rfl⟩)
  | running => exact .inr (.inr ⟨by simp, by simp, rfl⟩)
  | stopping => exact .inr (.inr ⟨by simp, by simp, rfl⟩)
  | stopped => exact .inl ⟨rfl, rfl⟩

theorem Sound.active_of_idle {writer : Serializer World Result} (sound : writer.Sound)
    (isIdle : writer.state = .idle) : writer.active = [] ∧ writer.queue = [] := by
  have phase := sound.phase
  generalize writer.active = workers at phase
  cases phase with
  | idle _ empty => exact ⟨rfl, empty⟩
  | broken => exact ⟨rfl, by simp_all⟩
  | starting isState => cases isIdle.symm.trans isState
  | running isState => cases isIdle.symm.trans isState
  | stopping isState => cases isIdle.symm.trans isState
  | stopped isState => cases isIdle.symm.trans isState

/-! ### Turns of workers -/

section WorkerTurns

variable {writer rest : Serializer World Result} {id : Nat} {stage : WorkerStage World Result}
  {next? : Option (WorkerStage World Result)}

theorem not_isSturdy_of_openConnection {world : World}
    (broken : writer.openConnection = (none, world)) : ¬ writer.config.IsSturdy := by
  unfold openConnection at broken
  split at broken
  · cases broken
  · split at broken
    · next tooLong => exact fun sturdy => absurd sturdy.1 (by omega)
    · cases broken

/-- Whoever is in place after a turn was there before; only the taker of the turn has moved. -/
theorem SameCast.mem_place (cast : SameCast writer rest) (distinct : writer.Distinct)
    (found : writer.worker? id = some stage) {worker : Worker World Result}
    (member : worker ∈ (rest.place id next?).workers) :
    (∃ next, next? = some next ∧ worker = ⟨id, next⟩) ∨ worker ∈ writer.workers := by
  have restFound : rest.worker? id = some stage := (cast.worker? id).trans found
  rcases (Serializer.mem_place (cast.distinct distinct) restFound).mp member with moved | ⟨old, _⟩
  · exact .inl moved
  · exact .inr (cast.workers ▸ old)

/-- A worker that refuses work goes on to refuse the rest of it. -/
theorem Turn.refusing (turn : Turn writer stage next? rest) (refuses : stage.isActive = false) :
    (∀ next, next? = some next → next.isActive = false) ∧ rest.state = writer.state ∧
      rest.queue = writer.queue := by
  cases turn with
  | refuse => exact ⟨by rintro _ ⟨⟩; rfl, rfl, rfl⟩
  | leave => exact ⟨by simp, rfl, rfl⟩
  | _ => cases refuses

theorem lapses_iff : writer.lapses stage = true ↔
    stage = .choosing true ∧ writer.isSignalled = false ∧ writer.queue = [] ∧
      writer.config.idleTimeout.seconds ≤ longestIdleSeconds := by
  cases stage with
  | choosing isLate => cases isLate <;> simp [lapses, and_assoc]
  | _ => simp [lapses]

/-- The active worker ends a shutdown only by closing, except for a lapse. -/
theorem Turn.state_cases (turn : Turn writer stage next? rest)
    (shut : writer.state = .stopping ∨ writer.state = .stopped) :
    (rest.state = writer.state ∧ (writer.queue = [] → rest.queue = [])) ∨
      (stage = .closing ∧ rest.state = .stopped ∧ rest.queue = []) ∨
      (writer.lapses stage = true ∧ next? = none ∧ rest = { writer with state := .idle }) := by
  have notStarting : writer.state ≠ .starting := by
    rcases shut with isState | isState <;> simp [isState]
  cases turn with
  | failOpening => exact .inl ⟨if_neg notStarting, fun _ => rfl⟩
  | run => exact .inl ⟨if_neg notStarting, id⟩
  | take _ isQueue => exact .inl ⟨rfl, fun empty => by simp [empty] at isQueue⟩
  | empty => exact .inr (.inl ⟨rfl, rfl, rfl⟩)
  | lapse fits goesOn empty =>
      exact .inr (.inr ⟨lapses_iff.mpr ⟨rfl, goesOn, empty, fits⟩, rfl, rfl⟩)
  | _ => exact .inl ⟨rfl, id⟩

/-- The active worker of a writer that starts or runs moves it on, or breaks. -/
theorem Turn.phase_of_open (turn : Turn writer stage next? rest) (isActive : stage.isActive = true)
    (phase : writer.Phase [⟨id, stage⟩])
    (isOpen : writer.state = .starting ∨ writer.state = .running)
    (closing : stage = .closing → writer.isSignalled = true) (called : writer.isSignalled = true →
      writer.shutdowns ≠ []) :
    rest.Phase ((next?.toList.map (Worker.mk id)).filter fun worker => worker.stage.isActive) := by
  cases phase with
  | starting isState joinable opening =>
      cases turn with
      | «open» => exact .starting isState joinable rfl
      | breakOpening broken =>
          have frail := not_isSturdy_of_openConnection broken
          exact .broken (.inl isState) frail
      | failOpening => exact .idle (if_pos isState) rfl
      | run => exact .running (if_pos isState) joinable rfl
      | _ => cases opening
  | running isState joinable opened =>
      cases turn with
      | «open» => cases opened
      | breakOpening => cases opened
      | failOpening => cases opened
      | run => cases opened
      | breakWaiting broken =>
          exact .broken (.inr isState) fun sturdy => Nat.not_le_of_lt broken sturdy.2
      | lapse => exact .idle rfl ‹_›
      | empty =>
          have signalled := closing rfl
          exact .stopped rfl (Nat.zero_le 1) rfl (called signalled) (.inl signalled)
      | refuse => cases isActive
      | leave => cases isActive
      | _ => exact .running isState joinable rfl
  | stopping isState => simp [isState] at isOpen
  | stopped isState => simp [isState] at isOpen

/-- The active worker of a writer that is shut down leaves it so, unless it lapses. -/
theorem Turn.phase_of_shut (turn : Turn writer stage next? rest)
    (phase : writer.Phase [⟨id, stage⟩])
    (shut : writer.state = .stopping ∨ writer.state = .stopped)
    (closing : stage = .closing → writer.isSignalled = true) (called : writer.isSignalled = true →
      writer.shutdowns ≠ []) :
    rest.Phase ((next?.toList.map (Worker.mk id)).filter fun worker => worker.stage.isActive) := by
  obtain ⟨cast, signals⟩ := turn.sameCast
  have few : ((next?.toList.map (Worker.mk id)).filter
      fun worker => worker.stage.isActive).length ≤ 1 :=
    Nat.le_trans (List.length_filter_le _ _) (by cases next? <;> simp)
  rcases turn.state_cases shut with
    ⟨same, drained⟩ | ⟨isClosing, isStopped, empty⟩ | ⟨lapses, rfl, rfl⟩
  · cases phase with
    | starting isState => simp [isState] at shut
    | running isState => simp [isState] at shut
    | stopping isState _ pending =>
        exact .stopping (same.trans isState) few (cast.shutdowns ▸ pending)
    | stopped isState _ empty isCalled ended =>
        exact .stopped (same.trans isState) few (drained empty) (cast.shutdowns ▸ isCalled)
          (.inl (signals.trans (by simpa using ended)))
  · have signalled := closing isClosing
    exact .stopped isStopped few empty (cast.shutdowns ▸ called signalled)
      (.inl (signals.trans signalled))
  · exact .idle rfl (lapses_iff.mp lapses).2.2.1

theorem Sound.signalled_of_active (sound : writer.Sound) (found : writer.worker? id = some stage)
    (isActive : stage.isActive = true) (isState : writer.state = .stopped) :
    writer.isSignalled = true := by
  have ended := (sound.phase.of_stopped isState).2.2
  rw [(others_not_active sound.distinct sound.phase.few found isActive).1] at ended
  simpa using ended

theorem Sound.stays_stopped (sound : writer.Sound) (found : writer.worker? id = some stage)
    (turn : Turn writer stage next? rest) (isState : writer.state = .stopped) :
    rest.state = .stopped := by
  rcases turn.state_cases (.inr isState) with
    ⟨same, _⟩ | ⟨_, isStopped, _⟩ | ⟨lapses, _⟩
  · exact same.trans isState
  · exact isStopped
  · obtain ⟨rfl, goesOn, _⟩ := lapses_iff.mp lapses
    cases goesOn.symm.trans (sound.signalled_of_active found rfl isState)

theorem Sound.phase_of_turn (sound : writer.Sound) (found : writer.worker? id = some stage)
    (turn : Turn writer stage next? rest) : rest.Phase (rest.place id next?).active := by
  have few := sound.phase.few
  obtain ⟨cast, signals⟩ := turn.sameCast
  have restFound : rest.worker? id = some stage := (cast.worker? id).trans found
  have restFew : rest.active.length ≤ 1 := cast.active ▸ few
  cases isActive : stage.isActive with
  | false =>
      obtain ⟨still, state, queue⟩ := turn.refusing isActive
      rw [active_place_of_refusing (cast.distinct sound.distinct) restFew restFound isActive still,
        cast.active]
      exact sound.phase.of_sameCast cast signals state (fun empty => queue.trans empty)
  | true =>
      rw [active_place (cast.distinct sound.distinct) restFew restFound isActive]
      have phase := sound.phase
      rw [(others_not_active sound.distinct few found isActive).1] at phase
      have closing : stage = .closing → writer.isSignalled = true :=
        fun isClosing => sound.closing _ (mem_of_worker? found) isClosing
      by_cases shut : writer.state = .stopping ∨ writer.state = .stopped
      · exact turn.phase_of_shut phase shut closing sound.called
      · refine turn.phase_of_open isActive phase ?_ closing sound.called
        cases phase with
        | starting isState => exact .inl isState
        | running isState => exact .inr isState
        | stopping isState => exact absurd (.inl isState) shut
        | stopped isState => exact absurd (.inr isState) shut

theorem Sound.turn (sound : writer.Sound) (found : writer.worker? id = some stage)
    (turn : Turn writer stage next? rest) : (rest.place id next?).Sound := by
  obtain ⟨cast, signals⟩ := turn.sameCast
  have here := mem_of_worker? found
  refine
    { distinct := (cast.distinct sound.distinct).place id next?
      issued := ?_
      phase := (sound.phase_of_turn found turn).place id next?
      closing := ?_
      waiting := ?_
      called := fun signalled => cast.shutdowns ▸ sound.called (signals ▸ signalled)
      finished := ?_ }
  · intro worker member
    show worker.id < rest.starts
    rw [cast.starts]
    rcases cast.mem_place sound.distinct found member with ⟨next, _, rfl⟩ | old
    · exact sound.issued ⟨id, stage⟩ here
    · exact sound.issued worker old
  · intro worker member isClosing
    show rest.isSignalled = true
    rw [signals]
    rcases cast.mem_place sound.distinct found member with ⟨next, rfl, rfl⟩ | old
    · cases isClosing
      cases turn with
      | close signalled => exact signalled
    · exact sound.closing worker old isClosing
  · intro shutdown member waits
    exact signals.trans (sound.waiting shutdown (cast.shutdowns ▸ member) waits)
  · intro shutdown member done
    show rest.state = .stopped
    exact sound.stays_stopped found turn (sound.finished shutdown (cast.shutdowns ▸ member) done)

end WorkerTurns

/-! ### Submissions and calls -/

section Requests

variable {writer after rest : Serializer World Result} {call : Nat}
  {stage next : ShutdownStage World Result}

theorem Sound.of_sameCast (sound : writer.Sound) (cast : SameCast writer after)
    (signals : after.isSignalled = writer.isSignalled) (phase : after.Phase writer.active)
    (stays : writer.state = .stopped → after.state = .stopped) : after.Sound where
  distinct := cast.distinct sound.distinct
  issued := by rw [cast.workers, cast.starts]; exact sound.issued
  phase := by rw [cast.active]; exact phase
  closing := by rw [cast.workers, signals]; exact sound.closing
  waiting := by rw [cast.shutdowns, signals]; exact sound.waiting
  called := by rw [cast.shutdowns, signals]; exact sound.called
  finished := by
    rw [cast.shutdowns]
    exact fun shutdown member done => stays (sound.finished shutdown member done)

theorem Sound.reply (sound : writer.Sound) (ticket : Nat) (result : Except EngineError Result) :
    (writer.reply ticket result).Sound :=
  sound.of_sameCast ⟨rfl, rfl, rfl, rfl, rfl, rfl, rfl, rfl⟩ rfl
    (sound.phase.congr rfl id rfl id id id rfl) id

theorem Sound.cancel (sound : writer.Sound) (token : Nat) :
    ({ writer with canceled := token :: writer.canceled } : Serializer World Result).Sound where
  distinct := ⟨sound.distinct.workers, sound.distinct.shutdowns⟩
  issued := sound.issued
  phase := sound.phase.congr rfl id rfl id id id rfl
  closing := sound.closing
  waiting := sound.waiting
  called := sound.called
  finished := sound.finished

/-- The writer is idle, so nobody is active but the worker that it starts. -/
theorem Sound.startWorker (sound : writer.Sound) (isIdle : writer.state = .idle)
    (work : Work World Result) :
    ({ writer with
        queue := writer.queue ++ [work]
        state := .starting
        joinable := some writer.starts
        starts := writer.starts + 1
        workers := writer.workers ++ [⟨writer.starts, .opening⟩] } :
      Serializer World Result).Sound := by
  refine
    { distinct := ⟨?_, sound.distinct.shutdowns⟩
      issued := ?_
      phase := ?_
      closing := ?_
      waiting := sound.waiting
      called := sound.called
      finished := ?_ }
  · rw [List.map_append, List.nodup_append]
    refine ⟨sound.distinct.workers, by simp, ?_⟩
    intro old oldMember new newMember same
    obtain ⟨worker, member, rfl⟩ := List.mem_map.mp oldMember
    have isNew : new = writer.starts := by simpa using newMember
    have issued := sound.issued worker member
    omega
  · intro worker member
    rcases List.mem_append.mp member with old | new
    · exact Nat.lt_succ_of_lt (sound.issued worker old)
    · obtain rfl := List.mem_singleton.mp new
      exact Nat.lt_succ_self _
  · have nobody : writer.workers.filter (fun worker => worker.stage.isActive) = [] :=
      (sound.active_of_idle isIdle).1
    rw [Serializer.active, List.filter_append, nobody]
    exact .starting rfl rfl rfl
  · intro worker member isClosing
    rcases List.mem_append.mp member with old | new
    · exact sound.closing worker old isClosing
    · obtain rfl := List.mem_singleton.mp new
      cases isClosing
  · intro shutdown member done
    cases isIdle.symm.trans (sound.finished shutdown member done)

theorem Sound.submit (sound : writer.Sound) (work : Work World Result) (canStart : Bool) :
    (writer.submit work canStart).Sound := by
  rcases submit_cases writer work canStart with
    ⟨error, _, isAfter⟩ | ⟨isIdle, _, isAfter⟩ | ⟨isOpen, isAfter⟩
  · rw [isAfter]
    exact sound.reply work.ticket (.error error)
  · rw [isAfter]
    exact sound.startWorker isIdle work
  · rw [isAfter]
    have phase := sound.phase
    refine sound.of_sameCast ⟨rfl, rfl, rfl, rfl, rfl, rfl, rfl, rfl⟩ rfl ?_ id
    generalize writer.active = workers at phase
    cases phase with
    | idle isState => simp [isState] at isOpen
    | starting isState joinable opening => exact .starting isState joinable opening
    | running isState joinable opened => exact .running isState joinable opened
    | stopping isState => simp [isState] at isOpen
    | stopped isState => simp [isState] at isOpen
    | broken isState frail => exact .broken isState frail

theorem Distinct.beginShutdown (distinct : writer.Distinct) (fresh : writer.shutdown? call = none)
    (stage : ShutdownStage World Result) :
    ((writer.shutdowns ++ [(⟨call, stage⟩ : Shutdown World Result)]).map Shutdown.call).Nodup := by
  rw [List.map_append, List.nodup_append]
  refine ⟨distinct.shutdowns, by simp, ?_⟩
  intro old oldMember new newMember same
  obtain ⟨shutdown, member, rfl⟩ := List.mem_map.mp oldMember
  have isNew : new = call := by simpa using newMember
  have absent := List.find?_eq_none.mp (Option.map_eq_none_iff.mp fresh) shutdown member
  simp [same, isNew] at absent

theorem Sound.beginShutdown (sound : writer.Sound) (fresh : writer.shutdown? call = none) :
    (writer.beginShutdown call).Sound := by
  have distinct := fun stage => sound.distinct.beginShutdown fresh stage
  have waiting : ∀ stage : ShutdownStage World Result, stage.isWaiting = false →
      ∀ shutdown ∈ writer.shutdowns ++ [⟨call, stage⟩], shutdown.stage.isWaiting = true →
        writer.isSignalled = true := by
    intro stage isFresh shutdown member waits
    rcases List.mem_append.mp member with old | new
    · exact sound.waiting shutdown old waits
    · obtain rfl := List.mem_singleton.mp new
      cases isFresh.symm.trans waits
  have phase := sound.phase
  rcases beginShutdown_cases writer call with
    ⟨isStopped, isAfter⟩ | ⟨isIdle, isAfter⟩ | ⟨notIdle, notStopped, isAfter⟩
  · rw [isAfter]
    refine
      { distinct := ⟨sound.distinct.workers, distinct .returned⟩
        issued := sound.issued
        phase := ?_
        closing := sound.closing
        waiting := waiting .returned rfl
        called := by simp
        finished := fun _ _ _ => isStopped }
    show Phase _ writer.active
    generalize writer.active = workers at phase
    cases phase with
    | stopped isState few empty _ ended => exact .stopped isState few empty (by simp) ended
    | idle isState => cases isStopped.symm.trans isState
    | starting isState => cases isStopped.symm.trans isState
    | running isState => cases isStopped.symm.trans isState
    | stopping isState => cases isStopped.symm.trans isState
    | broken isState => simp [isStopped] at isState
  · rw [isAfter]
    obtain ⟨nobody, empty⟩ := sound.active_of_idle isIdle
    exact
      { distinct := ⟨sound.distinct.workers, distinct (.announced none)⟩
        issued := sound.issued
        phase := .stopped rfl sound.phase.few empty (by simp) (.inr nobody)
        closing := sound.closing
        waiting := waiting (.announced none) rfl
        called := by simp
        finished := fun _ _ _ => rfl }
  · rw [isAfter]
    refine
      { distinct := ⟨sound.distinct.workers, distinct (.announced writer.joinable)⟩
        issued := sound.issued
        phase := .stopping rfl sound.phase.few
          ⟨⟨call, .announced writer.joinable⟩, List.mem_append_right _ List.mem_cons_self, rfl⟩
        closing := sound.closing
        waiting := waiting (.announced writer.joinable) rfl
        called := by simp
        finished := ?_ }
    intro shutdown member done
    rcases List.mem_append.mp member with old | new
    · exact absurd (sound.finished shutdown old done) notStopped
    · obtain rfl := List.mem_singleton.mp new
      cases done

theorem CallTurn.state_cases (turn : CallTurn writer stage next rest) :
    (stage = .joined ∧ next = .refusing writer.queue ∧
        rest = { writer with state := .stopped, queue := [] }) ∨
      (rest.state = writer.state ∧ rest.queue = writer.queue ∧
        next.isPending = stage.isPending ∧
        (writer.isSignalled = true → rest.isSignalled = true) ∧
        (next.isWaiting = true → stage.isWaiting = true ∨ rest.isSignalled = true)) := by
  cases turn with
  | signal => exact .inr ⟨rfl, rfl, rfl, fun _ => rfl, fun _ => .inr rfl⟩
  | join => exact .inr ⟨rfl, rfl, rfl, id, fun _ => .inl rfl⟩
  | empty => exact .inl ⟨rfl, rfl, rfl⟩
  | refuse => exact .inr ⟨rfl, rfl, rfl, id, by rintro ⟨⟩⟩
  | «return» => exact .inr ⟨rfl, rfl, rfl, id, by rintro ⟨⟩⟩

theorem SameCast.shutdown? (cast : SameCast writer rest) (call : Nat) :
    rest.shutdown? call = writer.shutdown? call := by
  simp only [Serializer.shutdown?, cast.shutdowns]

theorem SameCast.mem_setShutdown (cast : SameCast writer rest) (distinct : writer.Distinct)
    (found : writer.shutdown? call = some stage) {shutdown : Shutdown World Result} :
    shutdown ∈ (rest.setShutdown call next).shutdowns ↔
      shutdown = ⟨call, next⟩ ∨ (shutdown ∈ writer.shutdowns ∧ shutdown.call ≠ call) := by
  rw [Serializer.mem_setShutdown (cast.distinct distinct) ((cast.shutdown? call).trans found),
    cast.shutdowns]

theorem Sound.proceed (sound : writer.Sound) (found : writer.shutdown? call = some stage)
    (turn : CallTurn writer stage next rest) : (rest.setShutdown call next).Sound := by
  have cast := turn.sameCast
  have here := mem_of_shutdown? found
  have moved : (⟨call, next⟩ : Shutdown World Result) ∈ (rest.setShutdown call next).shutdowns :=
    (cast.mem_setShutdown sound.distinct found).mpr (.inl rfl)
  have distinct := (cast.distinct sound.distinct).setShutdown call next
  rcases turn.state_cases with ⟨rfl, rfl, rfl⟩ | ⟨state, queue, pending, signals, waits⟩
  · have signalled := sound.waiting _ here rfl
    exact
      { distinct
        issued := sound.issued
        phase := .stopped rfl sound.phase.few rfl (List.ne_nil_of_mem moved) (.inl signalled)
        closing := sound.closing
        waiting := fun _ _ _ => signalled
        called := fun _ => List.ne_nil_of_mem moved
        finished := fun _ _ _ => rfl }
  · refine
      { distinct
        issued := ?_
        phase := ?_
        closing := ?_
        waiting := ?_
        called := fun _ => List.ne_nil_of_mem moved
        finished := ?_ }
    · show ∀ worker ∈ rest.workers, worker.id < rest.starts
      rw [cast.workers, cast.starts]
      exact sound.issued
    · show Phase _ rest.active
      rw [cast.active]
      refine sound.phase.congr state queue.trans cast.joinable ?_
        (fun _ => List.ne_nil_of_mem moved) signals cast.config
      rintro ⟨shutdown, member, isPending⟩
      by_cases isCall : shutdown.call = call
      · obtain rfl := sound.distinct.eq_of_call found member isCall
        exact ⟨_, moved, pending.trans isPending⟩
      · refine ⟨shutdown, ?_, isPending⟩
        exact (cast.mem_setShutdown sound.distinct found).mpr (.inr ⟨member, isCall⟩)
    · show ∀ worker ∈ rest.workers, worker.stage = .closing → rest.isSignalled = true
      rw [cast.workers]
      exact fun worker member isClosing => signals (sound.closing worker member isClosing)
    · intro shutdown member isWaiting
      rcases (cast.mem_setShutdown sound.distinct found).mp member with rfl | ⟨old, _⟩
      · rcases waits isWaiting with waited | signalled
        · exact signals (sound.waiting _ here waited)
        · exact signalled
      · exact signals (sound.waiting shutdown old isWaiting)
    · intro shutdown member done
      refine state.trans ?_
      rcases (cast.mem_setShutdown sound.distinct found).mp member with rfl | ⟨old, _⟩
      · exact sound.finished _ here (pending.symm.trans done)
      · exact sound.finished shutdown old done

end Requests

/-- What lasts through every step. -/
structure Lasting (writer after : Serializer World Result) : Prop where
  config : after.config = writer.config
  connect : after.connect = writer.connect
  prepare : after.prepare = writer.prepare
  canceled : writer.canceled ⊆ after.canceled
  signals : writer.isSignalled = true → after.isSignalled = true

theorem Step.lasting {writer after : Serializer World Result} {event : Event World Result}
    (step : Step writer event after) : Lasting writer after := by
  cases step with
  | submit work canStart =>
      rcases submit_cases writer work canStart with ⟨_, _, isAfter⟩ | ⟨_, _, isAfter⟩ | ⟨_, isAfter⟩
      all_goals
        rw [isAfter]
        exact ⟨rfl, rfl, rfl, fun _ member => member, id⟩
  | cancel token => exact ⟨rfl, rfl, rfl, fun _ member => List.mem_cons_of_mem _ member, id⟩
  | turn _ _ turn =>
      obtain ⟨cast, signals⟩ := turn.sameCast
      exact ⟨cast.config, cast.connect, cast.prepare, fun _ member => cast.canceled.symm ▸ member,
        signals.trans⟩
  | @shutdown call fresh =>
      rcases beginShutdown_cases writer call with ⟨_, isAfter⟩ | ⟨_, isAfter⟩ | ⟨_, _, isAfter⟩
      all_goals
        rw [isAfter]
        exact ⟨rfl, rfl, rfl, fun _ member => member, id⟩
  | proceed _ turn =>
      have cast := turn.sameCast
      refine ⟨cast.config, cast.connect, cast.prepare,
        fun _ member => cast.canceled.symm ▸ member, fun signalled => ?_⟩
      rcases turn.state_cases with ⟨_, _, rfl⟩ | ⟨_, _, _, signals, _⟩
      · exact signalled
      · exact signals signalled

theorem sound_new (config : WriterConfig)
    (connect prepare : World → Except EngineError Unit × World) (world : World) :
    (new config connect prepare world : Serializer World Result).Sound where
  distinct := ⟨.nil, .nil⟩
  issued := by simp [new]
  phase := .idle rfl rfl
  closing := by simp [new]
  waiting := by simp [new]
  called := by simp [new]
  finished := by simp [new]

theorem Sound.step {writer after : Serializer World Result} {event : Event World Result}
    (sound : writer.Sound) (taken : writer.step event = some after) : after.Sound := by
  cases step_cases taken with
  | submit work canStart => exact sound.submit work canStart
  | cancel token => exact sound.cancel token
  | turn _ found turn => exact sound.turn found turn
  | shutdown fresh => exact sound.beginShutdown fresh
  | proceed found turn => exact sound.proceed found turn

theorem Reachable.sound {writer : Serializer World Result} (reachable : Reachable writer) :
    writer.Sound := by
  induction reachable with
  | new config connect prepare world => exact sound_new config connect prepare world
  | step _ event taken ih => exact ih.step taken

end Serializer

end Writer

end DurableJobs
