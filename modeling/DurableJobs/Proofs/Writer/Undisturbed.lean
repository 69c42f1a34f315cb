import DurableJobs.Proofs.Writer.Serialization

/-!
A writer that nobody disturbs.

As long as nobody shuts it down, connections open and units cannot be canceled, a writer accepts all
units and loses none: each step leaves what waits, adds a unit at its end, or runs the first one.
-/

set_option autoImplicit false

namespace DurableJobs.Writer

variable {World Result : Type}

/-- The unit that a worker took from the queue and has not answered. -/
def WorkerStage.taken : WorkerStage World Result → List (Work World Result)
  | .holding work => [work]
  | .executing work => [work]
  | _ => []

namespace Serializer

/-- The units that are still to be run, in order. -/
def waiting (writer : Serializer World Result) : List (Work World Result) :=
  (writer.active.flatMap fun worker => worker.stage.taken) ++ writer.queue

structure Undisturbed (writer : Serializer World Result) : Prop where
  sound : writer.Sound
  sturdy : writer.config.IsSturdy
  connects : ∀ world, writer.connect world = (.ok (), world)
  prepares : ∀ world, writer.prepare world = (.ok (), world)
  uncalled : writer.shutdowns = []
  attending : ∀ worker ∈ writer.workers, worker.stage.isActive = true
  wanted : ∀ work ∈ writer.waiting, work.token = none

/-- Nothing was run, or the first unit that was waiting and nothing else. -/
def Proceeds (writer after : Serializer World Result) : Prop :=
  (after.waiting = writer.waiting ∧ after.world = writer.world) ∨
    ∃ work, writer.waiting = work :: after.waiting ∧ after.world = (work.perform writer.world).2

variable {writer after rest : Serializer World Result} {event : Event World Result} {id : Nat}
  {stage : WorkerStage World Result} {next? : Option (WorkerStage World Result)}

theorem undisturbed_new {config : WriterConfig} (sturdy : config.IsSturdy) (world : World) :
    (new config (fun world => (.ok (), world)) (fun world => (.ok (), world)) world :
      Serializer World Result).Undisturbed where
  sound := sound_new config _ _ world
  sturdy := sturdy
  connects := fun _ => rfl
  prepares := fun _ => rfl
  uncalled := rfl
  attending := by simp [new]
  wanted := by simp [waiting, active, new]

theorem Undisturbed.unsignalled (undisturbed : writer.Undisturbed) : writer.isSignalled = false := by
  cases signalled : writer.isSignalled with
  | false => rfl
  | true => exact absurd undisturbed.uncalled (undisturbed.sound.called signalled)

theorem Undisturbed.openConnection_eq (undisturbed : writer.Undisturbed) :
    writer.openConnection = (some (.ok ()), writer.world) := by
  have fits : ¬ longestBusyMillis < writer.config.busyTimeout.millis :=
    Nat.not_lt_of_le undisturbed.sturdy.1
  simp [openConnection, undisturbed.connects, undisturbed.prepares, fits]

/-- The world may change between two steps of the writer. -/
theorem Undisturbed.withWorld (undisturbed : writer.Undisturbed) (world : World) :
    ({ writer with world := world } : Serializer World Result).Undisturbed where
  sound :=
    { distinct := ⟨undisturbed.sound.distinct.workers, undisturbed.sound.distinct.shutdowns⟩
      issued := undisturbed.sound.issued
      phase := undisturbed.sound.phase.congr rfl id rfl id id id rfl
      closing := undisturbed.sound.closing
      waiting := undisturbed.sound.waiting
      called := undisturbed.sound.called
      finished := undisturbed.sound.finished }
  sturdy := undisturbed.sturdy
  connects := undisturbed.connects
  prepares := undisturbed.prepares
  uncalled := undisturbed.uncalled
  attending := undisturbed.attending
  wanted := undisturbed.wanted

theorem Undisturbed.of_step (undisturbed : writer.Undisturbed)
    (taken : writer.step event = some after) (uncalled : after.shutdowns = [])
    (attending : ∀ worker ∈ after.workers, worker.stage.isActive = true)
    (wanted : ∀ work ∈ after.waiting, work.token = none) : after.Undisturbed where
  sound := undisturbed.sound.step taken
  sturdy := (step_cases taken).lasting.config ▸ undisturbed.sturdy
  connects := fun world =>
    (congrFun (step_cases taken).lasting.connect world).trans (undisturbed.connects world)
  prepares := fun world =>
    (congrFun (step_cases taken).lasting.prepare world).trans (undisturbed.prepares world)
  uncalled := uncalled
  attending := attending
  wanted := wanted

/-! ### Submissions -/

theorem Undisturbed.submit_cases (undisturbed : writer.Undisturbed) (work : Work World Result) :
    (writer.submit work true).shutdowns = writer.shutdowns ∧
      (writer.submit work true).world = writer.world ∧
      (writer.submit work true).waiting = writer.waiting ++ [work] ∧
      ∀ worker ∈ (writer.submit work true).workers,
        worker ∈ writer.workers ∨ worker.stage = .opening := by
  rcases undisturbed.sound.phase.of_quiet undisturbed.uncalled with ⟨isState, _⟩ | ⟨isState, _⟩
  · have isSubmit : writer.submit work true =
        { writer with
          queue := writer.queue ++ [work]
          state := .starting
          joinable := some writer.starts
          starts := writer.starts + 1
          workers := writer.workers ++ [⟨writer.starts, .opening⟩] } := by
      simp [submit, isState]
    rw [isSubmit]
    refine ⟨rfl, rfl, ?_, fun worker member => (List.mem_append.mp member).imp_right fun new => ?_⟩
    · simp [waiting, active, List.filter_append, WorkerStage.isActive, WorkerStage.taken]
    · rw [List.mem_singleton.mp new]
  · have isSubmit : writer.submit work true = { writer with queue := writer.queue ++ [work] } := by
      rcases isState with isState | isState <;> simp [submit, isState]
    rw [isSubmit]
    exact ⟨rfl, rfl, by simp [waiting, active], fun worker member => .inl member⟩

/-- Every unit is accepted, behind those that wait. -/
theorem Undisturbed.submit (undisturbed : writer.Undisturbed) {work : Work World Result}
    (wanted : work.token = none) :
    (writer.submit work true).Undisturbed ∧
      (writer.submit work true).waiting = writer.waiting ++ [work] ∧
      (writer.submit work true).world = writer.world := by
  obtain ⟨shutdowns, world, waiting, workers⟩ := undisturbed.submit_cases work
  have taken : writer.step (.submit work true) = some (writer.submit work true) := rfl
  refine ⟨undisturbed.of_step taken ?_ ?_ ?_, waiting, world⟩
  · exact shutdowns.trans undisturbed.uncalled
  · intro worker member
    rcases workers worker member with old | isOpening
    · exact undisturbed.attending worker old
    · rw [isOpening]
      rfl
  · intro other member
    rcases List.mem_append.mp (waiting ▸ member) with old | new
    · exact undisturbed.wanted other old
    · exact List.mem_singleton.mp new ▸ wanted

/-! ### Turns of the worker -/

/-- A worker goes on with what it has taken and what is queued, or it has run what it had taken. -/
theorem Undisturbed.turn_cases (undisturbed : writer.Undisturbed)
    (turn : Turn writer stage next? rest) (isActive : stage.isActive = true)
    (notClosing : stage ≠ .closing) (wanted : ∀ work ∈ stage.taken, work.token = none) :
    (∀ next, next? = some next → next.isActive = true) ∧
      ((next?.elim [] WorkerStage.taken ++ rest.queue = stage.taken ++ writer.queue ∧
          rest.world = writer.world) ∨
        ∃ work,
          stage.taken ++ writer.queue = work :: (next?.elim [] WorkerStage.taken ++ rest.queue) ∧
          rest.world = (work.perform writer.world).2) := by
  have goesOn := undisturbed.unsignalled
  have opens := undisturbed.openConnection_eq
  cases turn with
  | «open» opened =>
      obtain ⟨_, rfl⟩ := Prod.mk.inj (opens.symm.trans opened)
      exact ⟨by rintro _ ⟨⟩; rfl, .inl ⟨rfl, rfl⟩⟩
  | breakOpening broken => cases opens.symm.trans broken
  | failOpening failed => cases opens.symm.trans failed
  | run => exact ⟨by rintro _ ⟨⟩; rfl, .inl ⟨rfl, rfl⟩⟩
  | breakWaiting broken => exact absurd undisturbed.sturdy.2 (Nat.not_le_of_lt broken)
  | close signalled => cases goesOn.symm.trans signalled
  | take _ isQueue => exact ⟨by rintro _ ⟨⟩; rfl, .inl ⟨isQueue.symm, rfl⟩⟩
  | lapse => exact ⟨nofun, .inl ⟨rfl, rfl⟩⟩
  | wait => exact ⟨by rintro _ ⟨⟩; rfl, .inl ⟨rfl, rfl⟩⟩
  | wake => exact ⟨by rintro _ ⟨⟩; rfl, .inl ⟨rfl, rfl⟩⟩
  | @skip work canceled =>
      have kept : writer.isCanceled work = false := by
        rw [isCanceled, wanted work (List.mem_singleton_self work)]
      cases kept.symm.trans canceled
  | begin => exact ⟨by rintro _ ⟨⟩; rfl, .inl ⟨rfl, rfl⟩⟩
  | finish => exact ⟨by rintro _ ⟨⟩; rfl, .inr ⟨_, rfl, rfl⟩⟩
  | empty => exact absurd rfl notClosing
  | refuse => cases isActive
  | leave => cases isActive

theorem Undisturbed.turn (undisturbed : writer.Undisturbed)
    (taken : writer.step event = some (rest.place id next?))
    (found : writer.worker? id = some stage) (turn : Turn writer stage next? rest) :
    (rest.place id next?).Undisturbed ∧ Proceeds writer (rest.place id next?) := by
  have sound := undisturbed.sound
  have member := mem_of_worker? found
  have isActive := undisturbed.attending _ member
  obtain ⟨cast, _⟩ := turn.sameCast
  have before : writer.waiting = stage.taken ++ writer.queue := by
    rw [waiting, (others_not_active sound.distinct sound.phase.few found isActive).1]
    simp
  have notClosing : stage ≠ .closing := fun isClosing =>
    absurd (sound.closing _ member isClosing) (by simp [undisturbed.unsignalled])
  obtain ⟨nextActive, proceeds⟩ := undisturbed.turn_cases turn isActive notClosing
    fun work isTaken => undisturbed.wanted work (before ▸ List.mem_append_left _ isTaken)
  have later : (rest.place id next?).waiting = next?.elim [] WorkerStage.taken ++ rest.queue := by
    rw [waiting, active_place (cast.distinct sound.distinct) (cast.active ▸ sound.phase.few)
      ((cast.worker? id).trans found) isActive]
    cases next? with
    | none => rfl
    | some next => simp [nextActive next rfl, place]
  rw [← before, ← later] at proceeds
  have fewer : (rest.place id next?).waiting ⊆ writer.waiting := by
    rcases proceeds with ⟨same, _⟩ | ⟨_, isWaiting, _⟩
    · exact same ▸ List.Subset.refl _
    · exact isWaiting ▸ List.subset_cons_self _ _
  refine ⟨undisturbed.of_step taken ?_ ?_ ?_, proceeds⟩
  · exact cast.shutdowns.trans undisturbed.uncalled
  · intro worker isPlaced
    rcases cast.mem_place sound.distinct found isPlaced with ⟨next, isNext, rfl⟩ | old
    · exact nextActive next isNext
    · exact undisturbed.attending worker old
  · exact fun work isWaiting => undisturbed.wanted work (fewer isWaiting)

theorem Undisturbed.proceeds (undisturbed : writer.Undisturbed)
    (taken : writer.step event = some after) (isTurn : event.worker?.isSome = true) :
    after.Undisturbed ∧ Proceeds writer after := by
  cases step_cases taken with
  | turn taker found turn => exact undisturbed.turn taken found turn
  | _ => cases isTurn

end Serializer

end DurableJobs.Writer
