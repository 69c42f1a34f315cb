import DurableJobs.Proofs.Config.Numbers
import DurableJobs.Proofs.Store.Reading

/-!
What an environment makes of the configuration of an engine.

There are seven settings, each a number below a limit. A configuration is read from an environment
exactly if every setting that is there holds such a number and the configuration that they make passes
all checks. Otherwise the first setting that holds none is to blame or, if there is none such, the
first check that fails. Nothing else in the environment counts.
-/

set_option autoImplicit false

namespace DurableJobs

/-- The item is the first one of the list with the property. -/
def IsFirst {Item : Type} (list : List Item) (property : Item → Prop) (item : Item) : Prop :=
  ∃ earlier later, list = earlier ++ item :: later ∧ (∀ other ∈ earlier, ¬ property other) ∧
    property item

theorem IsFirst.mem {Item : Type} {list : List Item} {property : Item → Prop} {item : Item}
    (isFirst : IsFirst list property item) : item ∈ list := by
  obtain ⟨earlier, later, rfl, _⟩ := isFirst
  exact List.mem_append_right _ List.mem_cons_self

theorem IsFirst.holds {Item : Type} {list : List Item} {property : Item → Prop} {item : Item}
    (isFirst : IsFirst list property item) : property item := by
  obtain ⟨_, _, _, _, holds⟩ := isFirst
  exact holds

theorem isFirst_cons {Item : Type} {first item : Item} {rest : List Item}
    {property : Item → Prop} :
    IsFirst (first :: rest) property item ↔
      (property first ∧ item = first) ∨ (¬ property first ∧ IsFirst rest property item) := by
  constructor
  · rintro ⟨earlier, later, split, others, holds⟩
    cases earlier with
    | nil =>
        obtain ⟨rfl, _⟩ := List.cons.inj split
        exact .inl ⟨holds, rfl⟩
    | cons other earlier =>
        obtain ⟨rfl, isRest⟩ := List.cons.inj split
        exact .inr ⟨others first List.mem_cons_self, earlier, later, isRest,
          fun other member => others other (List.mem_cons_of_mem _ member), holds⟩
  · rintro (⟨holds, rfl⟩ | ⟨fails, earlier, later, rfl, others, holds⟩)
    · exact ⟨[], rest, rfl, by simp, holds⟩
    · exact ⟨first :: earlier, later, rfl, by simpa [fails] using others, holds⟩

theorem not_isFirst_nil {Item : Type} {property : Item → Prop} {item : Item} :
    ¬ IsFirst [] property item := by
  rintro ⟨earlier, later, split, _⟩
  simp at split

theorem exists_isFirst_or_forall {Item : Type} (list : List Item) (property : Item → Prop) :
    (∃ item, IsFirst list property item) ∨ ∀ item ∈ list, ¬ property item := by
  induction list with
  | nil => exact .inr (by simp)
  | cons first rest ih =>
      by_cases holds : property first
      · exact .inl ⟨first, isFirst_cons.mpr (.inl ⟨holds, rfl⟩)⟩
      · rcases ih with ⟨item, isFirst⟩ | none
        · exact .inl ⟨item, isFirst_cons.mpr (.inr ⟨holds, isFirst⟩)⟩
        · exact .inr (by simpa [holds] using none)

/-! ### Settings -/

inductive Setting where
  | pollInterval
  | batchSize
  | normalConcurrency
  | longRunningConcurrency
  | normalTimeout
  | retryBackoff
  | maxFailures

namespace Setting

/-- The settings in the order in which they are read. -/
def all : List Setting :=
  [ .pollInterval, .batchSize, .normalConcurrency, .longRunningConcurrency, .normalTimeout,
    .retryBackoff, .maxFailures ]

def name : Setting → String
  | .pollInterval => "POLL_INTERVAL_MS"
  | .batchSize => "BATCH_SIZE"
  | .normalConcurrency => "NORMAL_CONCURRENCY"
  | .longRunningConcurrency => "LONG_RUNNING_CONCURRENCY"
  | .normalTimeout => "NORMAL_TIMEOUT_MS"
  | .retryBackoff => "RETRY_BACKOFF_MS"
  | .maxFailures => "MAX_FAILURES"

/-- The numbers of the setting are below its limit. -/
def limit : Setting → Nat
  | .maxFailures => 0x100000000
  | _ => 0x10000000000000000

theorem mem_all (setting : Setting) : setting ∈ all := by
  cases setting <;> simp [all]

theorem limit_pos (setting : Setting) : 0 < setting.limit := by
  cases setting <;> decide

variable (setting : Setting) (scope : String) (environment : Environment)

def key : String := Environment.variableOf scope setting.name

def read : Except ConfigFault (Option Nat) :=
  environment.number? scope setting.name setting.limit

/-- The setting holds nothing, or it holds a number below its limit. -/
def Holds (number : Option Nat) : Prop :=
  match environment (setting.key scope) with
  | none => number = none
  | some text => ∃ core value, Text.Trims text.toList core ∧ Text.SpellsNumber core value ∧
      value < setting.limit ∧ number = some value

/-- The setting is there, but its text is no number below the limit. -/
def IsUnreadable : Prop :=
  ∃ text, environment (setting.key scope) = some text ∧
    ∀ core value, Text.Trims text.toList core → Text.SpellsNumber core value →
      setting.limit ≤ value

/-- The fault of a setting that is unreadable: its variable is named, and its text is shown as it is. -/
def Faults (fault : ConfigFault) : Prop :=
  ∃ text core reason, environment (setting.key scope) = some text ∧ Text.Trims text.toList core ∧
    reason.Explains setting.limit core ∧ fault = .unreadable (setting.key scope) text reason ∧
    fault.error =
      .config (setting.key scope ++ "=" ++ Text.quoted text ++ ": " ++ reason.message)

variable {setting scope environment}

theorem read_eq_ok_iff {number : Option Nat} :
    setting.read scope environment = .ok number ↔ setting.Holds scope environment number := by
  unfold read Environment.number? Holds key
  cases environment (Environment.variableOf scope setting.name) with
  | none => simp [eq_comm]
  | some text =>
      simp only [Text.trims_iff]
      cases result : numberOfText setting.limit (Text.trim text.toList) with
      | ok value =>
          obtain ⟨spelled, small⟩ := (numberOfText_eq_ok_iff setting.limit_pos).mp result
          constructor
          · rintro ⟨rfl⟩
            exact ⟨_, value, rfl, spelled, small, rfl⟩
          · rintro ⟨_, other, rfl, otherSpelled, otherSmall, rfl⟩
            rw [(numberOfText_eq_ok_iff setting.limit_pos).mpr ⟨otherSpelled, otherSmall⟩] at result
            rw [Except.ok.inj result]
      | error reason =>
          simp only [reduceCtorEq, false_iff]
          rintro ⟨_, other, rfl, spelled, small, rfl⟩
          cases result.symm.trans ((numberOfText_eq_ok_iff setting.limit_pos).mpr ⟨spelled, small⟩)

theorem read_eq_error_iff {fault : ConfigFault} :
    setting.read scope environment = .error fault ↔ setting.Faults scope environment fault := by
  unfold read Environment.number? Faults key
  cases environment (Environment.variableOf scope setting.name) with
  | none => simp
  | some text =>
      simp only [Option.some.injEq]
      cases result : numberOfText setting.limit (Text.trim text.toList) with
      | ok value =>
          simp only [reduceCtorEq, false_iff]
          rintro ⟨_, core, reason, rfl, trims, explains, _, _⟩
          rw [Text.trims_iff.mp trims,
            (numberOfText_eq_error_iff setting.limit_pos).mpr explains] at result
          cases result
      | error reason =>
          constructor
          · rintro ⟨rfl⟩
            exact ⟨text, _, reason, rfl, Text.trims_trim _,
              (numberOfText_eq_error_iff setting.limit_pos).mp result, rfl, rfl⟩
          · rintro ⟨_, core, other, rfl, trims, explains, rfl, _⟩
            rw [Text.trims_iff.mp trims,
              (numberOfText_eq_error_iff setting.limit_pos).mpr explains] at result
            rw [Except.error.inj result]

theorem isUnreadable_iff :
    setting.IsUnreadable scope environment ↔
      ∀ number, setting.read scope environment ≠ .ok number := by
  simp only [ne_eq, read_eq_ok_iff, IsUnreadable, Holds]
  cases environment (setting.key scope) with
  | none => simp
  | some text =>
      simp only [Option.some.injEq]
      constructor
      · rintro ⟨_, rfl, large⟩ _ ⟨core, value, trims, spelled, small, _⟩
        exact Nat.not_le_of_lt small (large core value trims spelled)
      · intro unread
        refine ⟨text, rfl, fun core value trims spelled => Nat.le_of_not_lt fun small => ?_⟩
        exact unread (some value) ⟨core, value, trims, spelled, small, rfl⟩

theorem IsUnreadable.exists_faults (unreadable : setting.IsUnreadable scope environment) :
    ∃ fault, setting.Faults scope environment fault := by
  cases failed : setting.read scope environment with
  | ok number => exact absurd failed (isUnreadable_iff.mp unreadable number)
  | error fault => exact ⟨fault, read_eq_error_iff.mp failed⟩

theorem Holds.lt_limit {number : Option Nat} (holds : setting.Holds scope environment number) :
    ∀ value ∈ number, value < setting.limit := by
  rintro value ⟨rfl⟩
  unfold Holds at holds
  cases isText : environment (setting.key scope) with
  | none => simp [isText] at holds
  | some text =>
      rw [isText] at holds
      obtain ⟨_, _, _, _, small, ⟨rfl⟩⟩ := holds
      exact small

/-- Either every setting can be read, or some setting is the first that is unreadable. -/
theorem exists_numbers_or_isFirst (scope : String) (environment : Environment) :
    (∃ number : Setting → Option Nat,
        ∀ setting : Setting, setting.Holds scope environment (number setting)) ∨
      ∃ setting, IsFirst all (fun other => other.IsUnreadable scope environment) setting := by
  rcases exists_isFirst_or_forall all (fun other => other.IsUnreadable scope environment) with
    isFirst | readable
  · exact .inr isFirst
  · have holds : ∀ setting : Setting, ∃ number, setting.Holds scope environment number := by
      intro setting
      have read := readable setting setting.mem_all
      simpa only [isUnreadable_iff, ne_eq, not_forall, not_not, read_eq_ok_iff] using read
    exact .inl ⟨fun setting => (holds setting).choose, fun setting => (holds setting).choose_spec⟩

theorem read_congr {other : Environment}
    (same : other (setting.key scope) = environment (setting.key scope)) :
    setting.read scope other = setting.read scope environment := by
  unfold key at same
  rw [read, read, Environment.number?, Environment.number?, same]

end Setting

/-! ### Configurations -/

/-- The duration is so many milliseconds. -/
def Duration.IsMillis (duration : Duration) (millis : Nat) : Prop :=
  duration.nanos = millis * 1000000

theorem Duration.isMillis_ofMillis {millis : Nat} (small : millis < 0x10000000000000000) :
    (Duration.ofMillis millis).IsMillis millis :=
  Duration.nanos_ofNanos_of_lt (by omega)

theorem Duration.IsMillis.unique {left right : Duration} {millis : Nat}
    (isLeft : left.IsMillis millis) (isRight : right.IsMillis millis) : left = right :=
  Duration.eq_of_nanos_eq (Eq.trans isLeft isRight.symm)

/-- A value is what the number of a setting means, or the standard if there is no number. -/
def Overrides {Value : Type} (number : Option Nat) (means : Value → Nat → Prop)
    (standard value : Value) : Prop :=
  match number with
  | none => value = standard
  | some number => means value number

theorem Overrides.unique {Value : Type} {number : Option Nat} {means : Value → Nat → Prop}
    {standard left right : Value}
    (functional : ∀ number, means left number → means right number → left = right)
    (isLeft : Overrides number means standard left) (isRight : Overrides number means standard right) :
    left = right := by
  cases number with
  | none => exact isLeft.trans isRight.symm
  | some number => exact functional number isLeft isRight

namespace EngineConfig

/-- The configuration is the standard one but for the settings that have a number. A time limit or a
number of failures of zero stands for none. -/
structure IsMadeOf (config : EngineConfig) (number : Setting → Option Nat) : Prop where
  pollInterval : Overrides (number .pollInterval) Duration.IsMillis standard.pollInterval
    config.pollInterval
  batchSize : Overrides (number .batchSize) Eq standard.batchSize config.batchSize
  normalConcurrency : Overrides (number .normalConcurrency) Eq standard.normalConcurrency
    config.normalConcurrency
  longRunningConcurrency : Overrides (number .longRunningConcurrency) Eq
    standard.longRunningConcurrency config.longRunningConcurrency
  normalTimeout : Overrides (number .normalTimeout)
    (fun limit millis =>
      if millis = 0 then limit = none else ∃ time, limit = some time ∧ time.IsMillis millis)
    standard.normalTimeout config.normalTimeout
  longRunningTimeout : config.longRunningTimeout = standard.longRunningTimeout
  backoff : Overrides (number .retryBackoff)
    (fun backoff millis => ∃ delay, backoff = .fixed delay ∧ delay.IsMillis millis)
    standard.retry.backoff config.retry.backoff
  maxFailures : Overrides (number .maxFailures)
    (fun limit count => limit = if count = 0 then none else some count)
    standard.retry.maxFailures config.retry.maxFailures
  recovery : config.recovery = standard.recovery
  eventCapacity : config.eventCapacity = standard.eventCapacity

def withNumbers (number : Setting → Option Nat) : EngineConfig :=
  { standard with
    pollInterval := ((number .pollInterval).map Duration.ofMillis).getD standard.pollInterval
    batchSize := (number .batchSize).getD standard.batchSize
    normalConcurrency := (number .normalConcurrency).getD standard.normalConcurrency
    longRunningConcurrency := (number .longRunningConcurrency).getD standard.longRunningConcurrency
    normalTimeout :=
      match (number .normalTimeout).map Duration.ofMillis with
      | none => standard.normalTimeout
      | some limit => if limit.isZero then none else some limit
    retry :=
      { backoff :=
          (((number .retryBackoff).map Duration.ofMillis).map Backoff.fixed).getD
            standard.retry.backoff
        maxFailures :=
          match number .maxFailures with
          | none => standard.retry.maxFailures
          | some limit => if limit = 0 then none else some limit } }

/-- The numbers leave nothing open. -/
theorem IsMadeOf.unique {left right : EngineConfig} {number : Setting → Option Nat}
    (isLeft : left.IsMadeOf number) (isRight : right.IsMadeOf number) : left = right := by
  have counts : ∀ {left right : Nat} (number : Nat), left = number → right = number → left = right :=
    fun _ isLeft isRight => isLeft.trans isRight.symm
  have pollInterval := isLeft.pollInterval.unique
    (fun _ => Duration.IsMillis.unique) isRight.pollInterval
  have batchSize := isLeft.batchSize.unique counts isRight.batchSize
  have normalConcurrency := isLeft.normalConcurrency.unique counts isRight.normalConcurrency
  have longRunningConcurrency :=
    isLeft.longRunningConcurrency.unique counts isRight.longRunningConcurrency
  have normalTimeout := isLeft.normalTimeout.unique (fun millis isLeft isRight => by
    split at isLeft
    · next none =>
        rw [if_pos none] at isRight
        exact isLeft.trans isRight.symm
    · next some =>
        rw [if_neg some] at isRight
        obtain ⟨first, isFirst, firstMillis⟩ := isLeft
        obtain ⟨second, isSecond, secondMillis⟩ := isRight
        rw [isFirst, isSecond, firstMillis.unique secondMillis]) isRight.normalTimeout
  have backoff := isLeft.backoff.unique (fun millis isLeft isRight => by
    obtain ⟨first, isFirst, firstMillis⟩ := isLeft
    obtain ⟨second, isSecond, secondMillis⟩ := isRight
    rw [isFirst, isSecond, firstMillis.unique secondMillis]) isRight.backoff
  have maxFailures := isLeft.maxFailures.unique
    (fun _ isLeft isRight => isLeft.trans isRight.symm) isRight.maxFailures
  have longRunningTimeout := isLeft.longRunningTimeout.trans isRight.longRunningTimeout.symm
  have recovery := isLeft.recovery.trans isRight.recovery.symm
  have eventCapacity := isLeft.eventCapacity.trans isRight.eventCapacity.symm
  obtain ⟨_, _, _, _, _, _, ⟨_, _⟩, _, _⟩ := left
  obtain ⟨_, _, _, _, _, _, ⟨_, _⟩, _, _⟩ := right
  simp_all

theorem isMadeOf_withNumbers {number : Setting → Option Nat}
    (small : ∀ setting, ∀ value ∈ number setting, value < setting.limit) :
    (withNumbers number).IsMadeOf number where
  pollInterval := by
    simp only [withNumbers]
    cases isNumber : number .pollInterval with
    | none => rfl
    | some millis => exact Duration.isMillis_ofMillis (small .pollInterval millis isNumber)
  batchSize := by simp only [withNumbers]; cases number .batchSize <;> rfl
  normalConcurrency := by simp only [withNumbers]; cases number .normalConcurrency <;> rfl
  longRunningConcurrency := by
    simp only [withNumbers]; cases number .longRunningConcurrency <;> rfl
  normalTimeout := by
    simp only [withNumbers]
    cases isNumber : number .normalTimeout with
    | none => rfl
    | some millis =>
        have isMillis := Duration.isMillis_ofMillis (small .normalTimeout millis isNumber)
        by_cases none : millis = 0
        · subst none
          rfl
        · have positive : (Duration.ofMillis millis).isZero = false := by
            rw [Duration.isZero, isMillis, beq_eq_false_iff_ne]
            omega
          simp only [Overrides, Option.map_some, positive, if_neg none]
          exact ⟨_, rfl, isMillis⟩
  longRunningTimeout := rfl
  backoff := by
    simp only [withNumbers]
    cases isNumber : number .retryBackoff with
    | none => rfl
    | some millis =>
        exact ⟨_, rfl, Duration.isMillis_ofMillis (small .retryBackoff millis isNumber)⟩
  maxFailures := by simp only [withNumbers]; cases number .maxFailures <;> rfl
  recovery := rfl
  eventCapacity := rfl

/-! ### Checks -/

/-- What a configuration has to be, and the fault of one that is not, with what it says. -/
structure Check where
  Passes : EngineConfig → Prop
  fault : ConfigFault
  message : String

/-- The checks in the order in which they are made. -/
def checks : List Check :=
  [ ⟨fun config => config.batchSize ≠ 0, .noBatch, "dispatch_batch_size must be at least 1"⟩,
    ⟨fun config => config.normalConcurrency ≠ 0 ∧ config.longRunningConcurrency ≠ 0, .noSlot,
      "executor pools need at least one slot"⟩,
    ⟨fun config => config.pollInterval.nanos ≠ 0, .noInterval, "poll_interval must be positive"⟩,
    ⟨fun config => config.eventCapacity ≠ 0, .noEvents, "event_capacity must be at least 1"⟩ ]

theorem Check.error_eq {check : Check} (member : check ∈ checks) :
    check.fault.error = .config check.message := by
  simp only [checks, List.mem_cons, List.not_mem_nil, or_false] at member
  rcases member with rfl | rfl | rfl | rfl <;> rfl

theorem validate_eq_error_iff {config : EngineConfig} {fault : ConfigFault} :
    config.validate = .error fault ↔
      ∃ check, IsFirst checks (fun other => ¬ other.Passes config) check ∧ fault = check.fault := by
  simp only [checks, isFirst_cons, not_isFirst_nil, validate, Duration.isZero, beq_iff_eq]
  by_cases noBatch : config.batchSize = 0
  · simp [noBatch, eq_comm]
  by_cases noSlot : config.normalConcurrency = 0 ∨ config.longRunningConcurrency = 0
  · simp [noBatch, noSlot, ← not_or, eq_comm]
  by_cases noInterval : config.pollInterval.nanos = 0
  · simp [noBatch, noSlot, noInterval, ← not_or, eq_comm]
  by_cases noEvents : config.eventCapacity = 0
  · simp [noBatch, noSlot, noInterval, noEvents, ← not_or, eq_comm]
  · simp [noBatch, noSlot, noInterval, noEvents, ← not_or]

theorem error_of_check {config : EngineConfig} {fault : ConfigFault}
    (refused : (do config.validate; return config) = .error fault) :
    config.validate = .error fault := by
  cases result : config.validate with
  | ok done => simp [result, bind, Except.bind, pure, Except.pure] at refused
  | error other =>
      rw [result] at refused
      rw [Except.error.inj refused]

theorem validate_eq_ok_iff {config : EngineConfig} :
    config.validate = .ok () ↔ ∀ check ∈ checks, check.Passes config := by
  rcases exists_isFirst_or_forall checks (fun check => ¬ check.Passes config) with
    ⟨check, isFirst⟩ | passes
  · have failed := validate_eq_error_iff.mpr ⟨check, isFirst, rfl⟩
    exact iff_of_false (by simp [failed]) fun passes => isFirst.holds (passes check isFirst.mem)
  · refine iff_of_true ?_ fun check member => not_not.mp (passes check member)
    cases result : config.validate with
    | ok done => rfl
    | error fault =>
        obtain ⟨check, isFirst, _⟩ := validate_eq_error_iff.mp result
        exact absurd isFirst.holds (passes check isFirst.mem)

/-! ### Reading -/

section Reading

variable {scope : String} {environment other : Environment}

theorem ofEnvironment_of_reads {number : Setting → Option Nat}
    (reads : ∀ setting : Setting, setting.read scope environment = .ok (number setting)) :
    ofEnvironment scope environment = (do
      (withNumbers number).validate
      return withNumbers number) := by
  have poll := reads .pollInterval
  have batch := reads .batchSize
  have normal := reads .normalConcurrency
  have longRunning := reads .longRunningConcurrency
  have timeout := reads .normalTimeout
  have backoff := reads .retryBackoff
  have maxFailures := reads .maxFailures
  simp only [Setting.read, Setting.name, Setting.limit] at poll batch normal longRunning
  simp only [Setting.read, Setting.name, Setting.limit] at timeout backoff maxFailures
  simp only [ofEnvironment, Environment.millis?, poll, batch, normal, longRunning, timeout, backoff,
    maxFailures]
  rfl

theorem ofEnvironment_of_isFirst {setting : Setting} {fault : ConfigFault}
    (first : IsFirst Setting.all (fun other => ∀ number, other.read scope environment ≠ .ok number)
      setting)
    (failed : setting.read scope environment = .error fault) :
    ofEnvironment scope environment = .error fault := by
  simp only [Setting.all, isFirst_cons, not_isFirst_nil, not_forall, not_not, and_false, or_false]
    at first
  rcases first with ⟨_, rfl⟩ | ⟨⟨poll, isPoll⟩, ⟨_, rfl⟩ | ⟨⟨batch, isBatch⟩, ⟨_, rfl⟩ |
    ⟨⟨normal, isNormal⟩, ⟨_, rfl⟩ | ⟨⟨longRunning, isLongRunning⟩, ⟨_, rfl⟩ |
    ⟨⟨timeout, isTimeout⟩, ⟨_, rfl⟩ | ⟨⟨backoff, isBackoff⟩, ⟨_, rfl⟩⟩⟩⟩⟩⟩⟩
  all_goals
    simp only [Setting.read, Setting.name, Setting.limit] at *
    simp_all [ofEnvironment, Environment.millis?, bind, Except.bind, pure, Except.pure]

theorem ofEnvironment_of_holds {config : EngineConfig} {number : Setting → Option Nat}
    (holds : ∀ setting : Setting, setting.Holds scope environment (number setting))
    (made : config.IsMadeOf number) :
    ofEnvironment scope environment = (do
      config.validate
      return config) := by
  obtain rfl := made.unique (isMadeOf_withNumbers fun setting => (holds setting).lt_limit)
  exact ofEnvironment_of_reads fun setting => Setting.read_eq_ok_iff.mpr (holds setting)

theorem ofEnvironment_of_faults {setting : Setting} {fault : ConfigFault}
    (first : IsFirst Setting.all (fun other => other.IsUnreadable scope environment) setting)
    (faults : setting.Faults scope environment fault) :
    ofEnvironment scope environment = .error fault := by
  simp only [Setting.isUnreadable_iff] at first
  exact ofEnvironment_of_isFirst first (Setting.read_eq_error_iff.mpr faults)

/-- Only the settings in the scope count. -/
theorem ofEnvironment_congr
    (same : ∀ setting : Setting, other (setting.key scope) = environment (setting.key scope)) :
    ofEnvironment scope other = ofEnvironment scope environment := by
  have reads : ∀ setting : Setting, setting.read scope other = setting.read scope environment :=
    fun setting => Setting.read_congr (same setting)
  rcases Setting.exists_numbers_or_isFirst scope environment with ⟨number, holds⟩ | ⟨setting, first⟩
  · have read := fun setting => Setting.read_eq_ok_iff.mpr (holds setting)
    have otherRead := fun setting => (reads setting).trans (read setting)
    rw [ofEnvironment_of_reads read, ofEnvironment_of_reads otherRead]
  · simp only [Setting.isUnreadable_iff] at first
    have firstOther := first
    simp only [← reads] at firstOther
    cases failed : setting.read scope environment with
    | ok number => exact absurd failed (first.holds number)
    | error fault =>
        rw [ofEnvironment_of_isFirst first failed,
          ofEnvironment_of_isFirst firstOther ((reads setting).trans failed)]

end Reading

/-- A configuration is read exactly if every setting that is there holds a number below its limit and
what they make passes the checks. Otherwise the first unreadable setting is reported, and if there is
none the first check that fails. -/
theorem ofEnvironment_answers (scope : String) (environment : Environment) :
    (∀ config, ofEnvironment scope environment = .ok config ↔
      (∃ number : Setting → Option Nat,
        (∀ setting : Setting, setting.Holds scope environment (number setting)) ∧
          config.IsMadeOf number) ∧
      ∀ check ∈ checks, check.Passes config) ∧
    (∀ fault, ofEnvironment scope environment = .error fault ↔
      (∃ setting, IsFirst Setting.all (fun other => other.IsUnreadable scope environment) setting ∧
        setting.Faults scope environment fault) ∨
      ∃ (number : Setting → Option Nat) (config : EngineConfig) (check : Check),
        (∀ setting : Setting, setting.Holds scope environment (number setting)) ∧
          config.IsMadeOf number ∧ IsFirst checks (fun other => ¬ other.Passes config) check ∧
          fault = check.fault ∧ fault.error = .config check.message) ∧
    ∀ other : Environment,
      (∀ setting : Setting, other (setting.key scope) = environment (setting.key scope)) →
        ofEnvironment scope other = ofEnvironment scope environment := by
  refine ⟨fun config => ?_, fun fault => ?_, fun other => ofEnvironment_congr⟩
  · constructor
    · intro read
      rcases Setting.exists_numbers_or_isFirst scope environment with
        ⟨number, holds⟩ | ⟨setting, first⟩
      · have made := isMadeOf_withNumbers fun setting => (holds setting).lt_limit
        rw [ofEnvironment_of_holds holds made] at read
        obtain ⟨_, valid, ⟨rfl⟩⟩ := Store.bind_eq_ok read
        exact ⟨⟨number, holds, made⟩, validate_eq_ok_iff.mp valid⟩
      · obtain ⟨fault, faults⟩ := first.holds.exists_faults
        cases read.symm.trans (ofEnvironment_of_faults first faults)
    · rintro ⟨⟨number, holds, made⟩, passes⟩
      rw [ofEnvironment_of_holds holds made, validate_eq_ok_iff.mpr passes]
      rfl
  · constructor
    · intro refused
      rcases Setting.exists_numbers_or_isFirst scope environment with
        ⟨number, holds⟩ | ⟨setting, first⟩
      · have made := isMadeOf_withNumbers fun setting => (holds setting).lt_limit
        rw [ofEnvironment_of_holds holds made] at refused
        obtain ⟨check, isFirst, isFault⟩ := validate_eq_error_iff.mp (error_of_check refused)
        have message := Check.error_eq isFirst.mem
        exact .inr ⟨number, _, check, holds, made, isFirst, isFault, isFault ▸ message⟩
      · obtain ⟨other, faults⟩ := first.holds.exists_faults
        obtain rfl := Except.error.inj (refused.symm.trans (ofEnvironment_of_faults first faults))
        exact .inl ⟨setting, first, faults⟩
    · rintro (⟨setting, first, faults⟩ | ⟨number, config, check, holds, made, isFirst, isFault, _⟩)
      · exact ofEnvironment_of_faults first faults
      · rw [ofEnvironment_of_holds holds made, validate_eq_error_iff.mpr ⟨check, isFirst, isFault⟩]
        rfl

/-- A padded number counts, a zero time limit is none, and the variables of another scope count for
nothing. -/
theorem ofEnvironment_padded :
    let environment : Environment := fun name =>
      if name = "J_NORMAL_CONCURRENCY" then some " +16\t"
      else if name = "J_NORMAL_TIMEOUT_MS" then some "0" else none
    let other : Environment := fun name =>
      if name = "J_AI_BATCH_SIZE" then some "x" else environment name
    (∀ setting : Setting, other (setting.key "J") = environment (setting.key "J")) ∧
      ofEnvironment "J" other = ofEnvironment "J" environment ∧
      ofEnvironment "J" environment =
        .ok { standard with normalConcurrency := 16, normalTimeout := none } := by
  intro environment other
  have same : ∀ setting : Setting, other (setting.key "J") = environment (setting.key "J") := by
    intro setting
    cases setting <;> decide
  exact ⟨same, (ofEnvironment_answers "J" environment).2.2 other same,
    Store.ok_of_toOption (by decide +kernel)⟩

end EngineConfig

end DurableJobs
