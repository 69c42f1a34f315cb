import DurableJobs.Proofs.Writer.Phases

/-!
What a shutdown ends for good.

A call of `shutdown` announces itself by the state and signals the workers only afterwards. In
between, a worker whose time to wait is over takes no notice of the state: it leaves the writer
idle, and the next unit starts another worker. Nothing else undoes a shutdown, and nothing does once
the signal is given.
-/

set_option autoImplicit false

namespace DurableJobs.Writer

variable {World Result : Type}

namespace Serializer

/-- Whether a shutdown was announced or is done. -/
def IsShut (writer : Serializer World Result) : Prop :=
  writer.state = .stopping ∨ writer.state = .stopped

/-- Whether a worker gives up waiting for work in this step. -/
def isLapse (writer : Serializer World Result) (event : Event World Result) : Bool :=
  (event.worker?.bind writer.worker?).any writer.lapses

/-- A step that leaves a shutdown in force: no worker is started, and no unit is accepted. -/
structure StaysShut (writer : Serializer World Result) (event : Event World Result)
    (after : Serializer World Result) : Prop where
  shut : after.IsShut
  starts : after.starts = writer.starts
  refuses : ∀ work canStart, event = .submit work canStart →
    after = writer.reply work.ticket (.error (.shutDown writer.config.name))

/-- Whether all steps of a course are of a kind. -/
def Throughout
    (holds : Serializer World Result → Event World Result → Serializer World Result → Prop)
    (writer : Serializer World Result) : List (Event World Result) → Prop
  | [] => True
  | event :: rest =>
      ∀ after, writer.step event = some after →
        holds writer event after ∧ Throughout holds after rest

instance Throughout.decidable
    {holds : Serializer World Result → Event World Result → Serializer World Result → Prop}
    [∀ writer event after, Decidable (holds writer event after)] :
    (writer : Serializer World Result) → (events : List (Event World Result)) →
      Decidable (Throughout holds writer events)
  | _, [] => .isTrue trivial
  | writer, event :: rest =>
      match taken : writer.step event with
      | none => .isTrue (by simp [Throughout, taken])
      | some after =>
          have : Decidable (Throughout holds after rest) := Throughout.decidable after rest
          decidable_of_iff (holds writer event after ∧ Throughout holds after rest)
            (by simp [Throughout, taken])

section Shut

variable {writer after rest : Serializer World Result} {event : Event World Result}

theorem submit_of_isShut (shut : writer.IsShut) (work : Work World Result) (canStart : Bool) :
    writer.submit work canStart =
      writer.reply work.ticket (.error (.shutDown writer.config.name)) := by
  rcases shut with isState | isState <;> simp only [submit, isState]

theorem Turn.stays_shut {id : Nat} {stage : WorkerStage World Result}
    {next? : Option (WorkerStage World Result)} (turn : Turn writer stage next? rest)
    (shut : writer.IsShut) (goesOn : writer.lapses stage = false) :
    (rest.place id next?).IsShut := by
  rcases turn.state_cases shut with ⟨same, _⟩ | ⟨_, isStopped, _⟩ | ⟨lapses, _⟩
  · exact shut.imp same.trans same.trans
  · exact .inr isStopped
  · cases goesOn.symm.trans lapses

/-- Only a lapse undoes a shutdown. -/
theorem staysShut_of_step (shut : writer.IsShut)
    (taken : writer.step event = some after) (goesOn : writer.isLapse event = false) :
    StaysShut writer event after := by
  cases step_cases taken with
  | submit work canStart =>
      rw [submit_of_isShut shut]
      refine ⟨shut, rfl, ?_⟩
      rintro _ _ ⟨⟩
      rfl
  | cancel token => exact ⟨shut, rfl, by simp⟩
  | turn taker found turn =>
      have noLapse := goesOn
      simp only [isLapse, taker, Option.bind_some, found, Option.any_some] at noLapse
      refine ⟨turn.stays_shut shut noLapse, turn.sameCast.1.starts, ?_⟩
      rintro _ _ rfl
      cases taker
  | shutdown fresh =>
      rcases beginShutdown_cases writer _ with
        ⟨isStopped, isAfter⟩ | ⟨isIdle, _⟩ | ⟨_, _, isAfter⟩
      · rw [isAfter]
        exact ⟨.inr isStopped, rfl, by simp⟩
      · rcases shut with isState | isState <;> cases isState.symm.trans isIdle
      · rw [isAfter]
        exact ⟨.inl rfl, rfl, by simp⟩
  | proceed found turn =>
      have starts := turn.sameCast.starts
      rcases turn.state_cases with ⟨_, _, rfl⟩ | ⟨state, _⟩
      · exact ⟨.inr rfl, rfl, by simp⟩
      · exact ⟨shut.imp state.trans state.trans, starts, by simp⟩

theorem not_isShut_of_isLapse (taken : writer.step event = some after)
    (lapse : writer.isLapse event = true) : ¬ after.IsShut := by
  cases event with
  | wake id isLate =>
      simp only [step] at taken
      split at taken
      · next found => simp [isLapse, Event.worker?, found, lapses] at lapse
      · cases taken
  | work id =>
      obtain ⟨stage, found, advanced⟩ := Option.bind_eq_some_iff.mp taken
      have lapses : writer.lapses stage = true := by
        simpa [isLapse, Event.worker?, found] using lapse
      obtain ⟨rfl, goesOn, empty, fits⟩ := lapses_iff.mp lapses
      simp only [advance, choose, if_neg (Nat.not_lt.mpr fits), goesOn, empty,
        Option.some.injEq] at advanced
      subst advanced
      simp [IsShut, endWorker]
  | _ => cases lapse

/-- No worker lapses once the signal is given or the writer is stopped. -/
theorem Sound.no_lapse (sound : writer.Sound)
    (final : writer.isSignalled = true ∨ writer.state = .stopped) :
    writer.isLapse event = false := by
  cases located : event.worker?.bind writer.worker? with
  | none => simp [isLapse, located]
  | some stage =>
      obtain ⟨id, _, found⟩ := Option.bind_eq_some_iff.mp located
      by_contra lapse
      have lapses : writer.lapses stage = true := by simpa [isLapse, located] using lapse
      obtain ⟨rfl, goesOn, _⟩ := lapses_iff.mp lapses
      rcases final with signalled | isStopped
      · cases goesOn.symm.trans signalled
      · cases goesOn.symm.trans (sound.signalled_of_active found rfl isStopped)

theorem Sound.stays_final (sound : writer.Sound) (taken : writer.step event = some after)
    (final : writer.isSignalled = true ∨ writer.state = .stopped) :
    after.isSignalled = true ∨ after.state = .stopped := by
  rcases final with signalled | isStopped
  · exact .inl ((step_cases taken).lasting.signals signalled)
  · cases step_cases taken with
    | submit work canStart =>
        rw [submit_of_isShut (.inr isStopped)]
        exact .inr isStopped
    | cancel token => exact .inr isStopped
    | turn _ found turn =>
        have stays := sound.stays_stopped found turn isStopped
        exact .inr stays
    | shutdown fresh =>
        rcases beginShutdown_cases writer _ with ⟨_, isAfter⟩ | ⟨isIdle, _⟩ | ⟨_, notStopped, _⟩
        · rw [isAfter]
          exact .inr isStopped
        · cases isStopped.symm.trans isIdle
        · exact absurd isStopped notStopped
    | proceed found turn =>
        rcases turn.state_cases with ⟨_, _, rfl⟩ | ⟨state, _⟩
        · exact .inr rfl
        · exact .inr (state.trans isStopped)

theorem throughout_noLapse {events : List (Event World Result)}
    (stays : Throughout StaysShut writer events) :
    Throughout (fun before event _ => before.isLapse event = false) writer events := by
  induction events generalizing writer with
  | nil => trivial
  | cons event rest ih =>
      intro after taken
      obtain ⟨kept, later⟩ := stays after taken
      refine ⟨?_, ih later⟩
      by_contra lapse
      exact not_isShut_of_isLapse taken (by simpa using lapse) kept.shut

theorem throughout_staysShut (shut : writer.IsShut) {events : List (Event World Result)}
    (goesOn : Throughout (fun before event _ => before.isLapse event = false) writer events) :
    Throughout StaysShut writer events := by
  induction events generalizing writer with
  | nil => trivial
  | cons event rest ih =>
      intro after taken
      obtain ⟨noLapse, later⟩ := goesOn after taken
      have kept := staysShut_of_step shut taken noLapse
      exact ⟨kept, ih kept.shut later⟩

/-- What a course keeps in all its steps holds when it is over. -/
theorem shut_of_throughout (shut : writer.IsShut) {events : List (Event World Result)}
    (stays : Throughout StaysShut writer events) (ran : writer.run? events = some after) :
    after.IsShut ∧ after.starts = writer.starts := by
  induction events generalizing writer with
  | nil =>
      obtain rfl := Option.some.inj ran
      exact ⟨shut, rfl⟩
  | cons event rest ih =>
      obtain ⟨middle, taken, isRest⟩ := Option.bind_eq_some_iff.mp ran
      obtain ⟨kept, later⟩ := stays middle taken
      obtain ⟨isShut, starts⟩ := ih kept.shut later isRest
      exact ⟨isShut, starts.trans kept.starts⟩

theorem Sound.throughout_noLapse (sound : writer.Sound)
    (final : writer.isSignalled = true ∨ writer.state = .stopped)
    (events : List (Event World Result)) :
    Throughout (fun before event _ => before.isLapse event = false) writer events := by
  induction events generalizing writer with
  | nil => trivial
  | cons event rest ih =>
      intro after taken
      exact ⟨sound.no_lapse final, ih (sound.step taken) (sound.stays_final taken final)⟩

/-- A shutdown lasts through exactly the courses in which no worker lapses, so through all of them
once its signal is given or the writer is stopped. -/
theorem shut_throughout_iff (reachable : writer.Reachable) (shut : writer.IsShut)
    (events : List (Event World Result)) :
    (Throughout StaysShut writer events ↔
        Throughout (fun before event _ => before.isLapse event = false) writer events) ∧
      (writer.isSignalled = true ∨ writer.state = .stopped →
        Throughout StaysShut writer events) := by
  refine ⟨⟨throughout_noLapse, throughout_staysShut shut⟩, fun final => ?_⟩
  exact throughout_staysShut shut (reachable.sound.throughout_noLapse final events)

/-- The worker has just run its unit when the shutdown gives its signal. -/
theorem shut_throughout_iff_sample :
    ∃ writer : Serializer Nat Nat,
      (new (WriterConfig.new "main" "w.db") (fun world => (.ok (), world))
          (fun world => (.ok (), world)) 0).run?
        [.submit ⟨0, none, false, true, fun world => (.done 1, world)⟩ true, .work 0, .work 0,
          .work 0, .work 0, .work 0, .shutdown 0, .proceed 0] = some writer ∧
      (writer.state, writer.isSignalled) = (.stopping, true) ∧
      Throughout StaysShut writer
        [.submit ⟨1, none, false, true, fun world => (.done 1, world)⟩ true, .work 0, .work 0] := by
  refine exists_of_map_eq_some (by decide +kernel) fun writer ran shown => ?_
  obtain ⟨isStopping, signalled⟩ := Prod.mk.inj shown
  exact (shut_throughout_iff ((Reachable.new _ _ _ _).run ran) (.inl isStopping) _).2
    (.inl signalled)

/-- The idle time of a worker is over when a shutdown announces itself. The worker leaves the writer
idle before the signal is given, and the next unit is accepted and starts another worker. -/
theorem shutdown_revoked :
    ∃ writer : Serializer Nat Nat,
      (new (WriterConfig.new "main" "w.db") (fun world => (.ok (), world))
          (fun world => (.ok (), world)) 0).run?
        [.submit ⟨0, none, false, true, fun world => (.done 1, world)⟩ true, .work 0, .work 0,
          .work 0, .work 0, .work 0, .work 0, .shutdown 0] = some writer ∧
      (writer.state, writer.starts,
          (writer.run? [.wake 0 true, .work 0]).map fun after => after.state,
          (writer.run? [.wake 0 true, .work 0,
              .submit ⟨1, none, false, true, fun world => (.done 1, world)⟩ true]).map
            fun after => (after.state, after.starts, after.queue.length)) =
        (.stopping, 1, some .idle, some (.starting, 2, 1)) ∧
      ¬ Throughout StaysShut writer [.wake 0 true, .work 0] := by
  refine exists_of_map_eq_some (rfl) fun writer _ shown stays => ?_
  obtain ⟨isStopping, _, becomesIdle, _⟩ := by simpa only [Prod.mk.injEq] using shown
  obtain ⟨after, ran, isIdle⟩ := Option.map_eq_some_iff.mp becomesIdle
  rcases (shut_of_throughout (.inl isStopping) stays ran).1 with isState | isState
  · cases isIdle.symm.trans isState
  · cases isIdle.symm.trans isState

end Shut

end Serializer

end DurableJobs.Writer
