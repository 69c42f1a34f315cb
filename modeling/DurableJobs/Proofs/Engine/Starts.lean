import DurableJobs.Proofs.Engine.Deeds
import DurableJobs.Proofs.Store.Reading

/-!
Starting a dispatcher.

The engine is marked as dispatching before the pools of its dispatcher are made, and only a dispatcher
that ends takes the mark away. Starting does all or nothing as long as the pools can be made. One that
cannot be made leaves the mark without a dispatcher, and from then on there is none.
-/

set_option autoImplicit false

namespace DurableJobs

namespace EngineConfig

structure PoolsFit (config : EngineConfig) : Prop where
  normal : config.normalConcurrency ≤ Engine.largestPool
  longRunning : config.longRunningConcurrency ≤ Engine.largestPool

/-- What an engine with the configuration is made of can be made: the channel of its events, and the
pools of its dispatcher. -/
structure Fits (config : EngineConfig) : Prop extends PoolsFit config where
  events : config.eventCapacity ≤ Engine.largestCapacity

end EngineConfig

namespace Engine

variable {Business : Type}

section Start

variable {engine after last : Engine Business}

theorem start_of_dispatching (dispatching : engine.isDispatching = true) :
    engine.start = (.refused (.internal "dispatcher already running"), engine) := by
  simp only [start, dispatching, if_true]

theorem start_of_fit (idle : engine.isDispatching = false) (fit : engine.config.PoolsFit) :
    engine.start =
      (.succeeded (),
        { engine with
          isDispatching := true
          dispatcher := some ⟨.recovering, false,
            ⟨engine.config.normalConcurrency, engine.config.longRunningConcurrency⟩, []⟩ }) := by
  have small : ¬(largestPool < engine.config.normalConcurrency ∨
      largestPool < engine.config.longRunningConcurrency) := by
    rintro (large | large)
    · exact Nat.not_lt_of_le fit.normal large
    · exact Nat.not_lt_of_le fit.longRunning large
  simp only [start, idle, Bool.false_eq_true, if_false, if_neg small]

theorem start_of_unfit (idle : engine.isDispatching = false) (unfit : ¬engine.config.PoolsFit) :
    engine.start = (.broke, { engine with isDispatching := true }) := by
  have large : largestPool < engine.config.normalConcurrency ∨
      largestPool < engine.config.longRunningConcurrency := by
    by_contra small
    obtain ⟨normal, longRunning⟩ := not_or.mp small
    exact unfit ⟨Nat.le_of_not_lt normal, Nat.le_of_not_lt longRunning⟩
  simp only [start, idle, Bool.false_eq_true, if_false, if_pos large]

/-- A start of the dispatcher does not break. It leaves a dispatcher behind, or it is refused and
nothing has changed; and if it leaves none behind, it is not in the way of the next start. -/
structure StartsWhole (engine : Engine Business) : Prop where
  unbroken : engine.start.1 ≠ .broke
  succeeded : engine.start.1 = .succeeded () →
    engine.start.2.isDispatching = true ∧ engine.start.2.dispatcher.isSome = true
  refused : ∀ error, engine.start.1 = .refused error → engine.start.2 = engine
  again : engine.isDispatching = false → engine.start.1 ≠ .succeeded () →
    ∀ moves last, (∀ move ∈ moves, move ≠ .start) → engine.start.2.run? moves = some last →
      last.start.1 ≠ .refused (.internal "dispatcher already running")

theorem startsWhole_of_fit (fit : engine.config.PoolsFit) : engine.StartsWhole := by
  cases dispatching : engine.isDispatching with
  | true =>
      have same := start_of_dispatching dispatching
      refine ⟨?_, ?_, ?_, ?_⟩
      · simp [same]
      · simp [same]
      · simp [same]
      · exact fun idle => nomatch dispatching.symm.trans idle
  | false =>
      have started := start_of_fit dispatching fit
      refine ⟨?_, ?_, ?_, ?_⟩
      · simp [started]
      · simp [started]
      · simp [started]
      · exact fun _ unstarted => absurd (by rw [started]) unstarted

/-! ### A start that broke -/

/-- The engine counts as dispatching without a dispatcher. -/
structure IsStranded (engine : Engine Business) : Prop where
  isDispatching : engine.isDispatching = true
  dispatcher : engine.dispatcher = none

theorem IsStranded.step {move : Move Business} (stranded : engine.IsStranded)
    (taken : engine.step move = some after) : after.IsStranded := by
  have absent : ∀ {dispatcher : Dispatcher}, engine.dispatcher ≠ some dispatcher :=
    fun found => nomatch stranded.dispatcher.symm.trans found
  cases step_shift taken with
  | same same =>
      exact ⟨same.isDispatching.trans stranded.isDispatching,
        same.dispatcher.trans stranded.dispatcher⟩
  | begun idle => cases idle.symm.trans stranded.isDispatching
  | redirected redirected => exact absurd redirected.found absent
  | launched found => exact absurd found absent
  | staged staged =>
      obtain ⟨_, _, found, _⟩ := staged.dispatcher
      exact absurd found absent
  | finished found => exact absurd found absent
  | stopped isStopped =>
      subst isStopped
      exact ⟨stranded.isDispatching, by simp [stopWriter, stranded.dispatcher]⟩

theorem IsStranded.run {moves : List (Move Business)} (stranded : engine.IsStranded)
    (ran : engine.run? moves = some last) : last.IsStranded := by
  induction moves generalizing engine with
  | nil => exact Option.some.inj ran ▸ stranded
  | cons move rest ih =>
      obtain ⟨middle, taken, isRest⟩ := Option.bind_eq_some_iff.mp ran
      exact ih (stranded.step taken) isRest

theorem isStranded_start (reachable : Reachable engine) (idle : engine.isDispatching = false)
    (unfit : ¬engine.config.PoolsFit) : engine.start.2.IsStranded := by
  rw [start_of_unfit idle unfit]
  exact ⟨rfl, reachable.sound.dispatcher_eq_none idle⟩

/-- Once a start has broken, every later one is refused, although nothing is dispatched. -/
theorem stranded_of_start {moves : List (Move Business)} (reachable : Reachable engine)
    (broke : engine.start.1 = .broke) (ran : engine.start.2.run? moves = some last) :
    last.dispatcher = none ∧
      last.start = (.refused (.internal "dispatcher already running"), last) := by
  have idle : engine.isDispatching = false := by
    by_contra dispatching
    rw [start_of_dispatching (by simpa using dispatching)] at broke
    cases broke
  have unfit : ¬engine.config.PoolsFit := by
    intro fit
    rw [start_of_fit idle fit] at broke
    cases broke
  have stranded := (isStranded_start reachable idle unfit).run ran
  exact ⟨stranded.dispatcher, start_of_dispatching stranded.isDispatching⟩

/-! ### Configurations -/

theorem config_of_run {moves : List (Move Business)} (ran : engine.run? moves = some last) :
    last.config = engine.config := by
  induction moves generalizing engine with
  | nil => rw [Option.some.inj ran]
  | cons move rest ih =>
      obtain ⟨middle, taken, isRest⟩ := Option.bind_eq_some_iff.mp ran
      exact (ih isRest).trans (config_of_step taken)

end Start

section Opening

variable {writerName : String} {registry : Registry} {config : EngineConfig} {business : Business}
  {refusal? : Business → Business → Option StoreError}

theorem start?_ne_broke_iff (valid : config.validate = .ok ()) :
    start? writerName registry config business refusal? ≠ .broke ↔
      config.eventCapacity ≤ largestCapacity := by
  rw [← Nat.not_lt]
  by_cases large : largestCapacity < config.eventCapacity
  · simp [start?, valid, large]
  · simp [start?, valid, large]

theorem isDispatching_of_start? {opened : Engine Business}
    (isOpened : start? writerName registry config business refusal? = .succeeded opened) :
    opened.isDispatching = false := by
  unfold start? at isOpened
  split at isOpened
  · cases isOpened
  · split at isOpened
    · cases isOpened
    · cases isOpened
      rfl

/-- An engine is opened without breaking, and whatever has happened to it on whatever jobs it found,
a start does all or nothing, each call of it being made within a runtime: this is so for the accepted
configurations that fit. -/
theorem starts_whole_iff (writerName : String) (registry : Registry) (business : Business)
    (refusal? : Business → Business → Option StoreError) (valid : config.validate = .ok ()) :
    (start? writerName registry config business refusal? ≠ .broke ∧
      ∀ opened, start? writerName registry config business refusal? = .succeeded opened →
        ∀ jobs moves last,
          ({ opened with database := { opened.database with jobs := jobs } } :
            Engine Business).run? moves = some last → last.StartsWhole) ↔
      config.Fits := by
  constructor
  · rintro ⟨unbroken, whole⟩
    have events := (start?_ne_broke_iff valid).mp unbroken
    cases isOpened : start? writerName registry config business refusal? with
    | refused error => simp [start?, valid, Nat.not_lt_of_le events] at isOpened
    | broke => exact absurd isOpened unbroken
    | succeeded opened =>
        have starts : opened.StartsWhole := whole opened isOpened opened.database.jobs [] opened rfl
        refine ⟨?_, events⟩
        by_contra unfit
        have isConfig := (start?_eq isOpened).2.1
        exact starts.unbroken (by
          rw [start_of_unfit (isDispatching_of_start? isOpened) (isConfig ▸ unfit)])
  · intro fits
    refine ⟨(start?_ne_broke_iff valid).mpr fits.events, fun opened isOpened jobs moves last ran => ?_⟩
    refine startsWhole_of_fit ?_
    rw [config_of_run ran]
    exact (start?_eq isOpened).2.1 ▸ fits.toPoolsFit

theorem starts_whole_standard :
    EngineConfig.standard.validate = .ok () ∧
      ((start? "jobs" ⟨[]⟩ EngineConfig.standard () ≠ .broke ∧
        ∀ opened, start? "jobs" ⟨[]⟩ EngineConfig.standard () = .succeeded opened →
          ∀ jobs moves last,
            ({ opened with database := { opened.database with jobs := jobs } } :
              Engine Unit).run? moves = some last → last.StartsWhole) ↔
        EngineConfig.standard.Fits) :=
  ⟨rfl, starts_whole_iff "jobs" ⟨[]⟩ () (fun _ _ => none) rfl⟩

end Opening

end Engine

namespace EngineConfig

/-- The environment says nothing of the events, so only the pools can be too large. -/
theorem of_ofEnvironment {scope : String} {environment : Environment} {config : EngineConfig}
    (read : ofEnvironment scope environment = .ok config) :
    config.validate = .ok () ∧ config.eventCapacity = standard.eventCapacity := by
  unfold ofEnvironment at read
  obtain ⟨poll, _, read⟩ := Store.bind_eq_ok read
  obtain ⟨batch, _, read⟩ := Store.bind_eq_ok read
  obtain ⟨normal, _, read⟩ := Store.bind_eq_ok read
  obtain ⟨longRunning, _, read⟩ := Store.bind_eq_ok read
  obtain ⟨timeout, _, read⟩ := Store.bind_eq_ok read
  obtain ⟨backoff, _, read⟩ := Store.bind_eq_ok read
  obtain ⟨maxFailures, _, read⟩ := Store.bind_eq_ok read
  obtain ⟨_, valid, same⟩ := Store.bind_eq_ok read
  obtain rfl := Except.ok.inj same
  exact ⟨valid, rfl⟩

theorem fits_iff_of_ofEnvironment {scope : String} {environment : Environment}
    {config : EngineConfig} (read : ofEnvironment scope environment = .ok config) :
    config.Fits ↔ config.PoolsFit := by
  refine ⟨Fits.toPoolsFit, fun fit => ⟨fit, ?_⟩⟩
  rw [(of_ofEnvironment read).2]
  decide

/-- An environment can ask for a pool that cannot be made. The engine is opened, its first start
breaks, and the second is refused because a dispatcher were running. -/
theorem start_stranded :
    let environment : Environment := fun name =>
      if name = "J_NORMAL_CONCURRENCY" then some "2305843009213693952" else none
    ∃ config opened,
      ofEnvironment "J" environment = .ok config ∧ config.validate = .ok () ∧
        Engine.start? "jobs" ⟨[]⟩ config () = .succeeded opened ∧
        opened.isDispatching = false ∧ opened.start.1 = .broke ∧
        opened.start.2.isDispatching = true ∧ opened.start.2.dispatcher = none ∧
        opened.start.2.start.1 = .refused (.internal "dispatcher already running") := by
  intro environment
  have read : ofEnvironment "J" environment =
      .ok { standard with normalConcurrency := 2305843009213693952 } :=
    Store.ok_of_toOption (by decide +kernel)
  exact ⟨_, _, read, rfl, rfl, rfl, rfl, rfl, rfl, rfl⟩

end EngineConfig

end DurableJobs
