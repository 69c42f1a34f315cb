import DurableJobs.Proofs.Config.Settings

/-!
Configurations side by side.

The variable of a setting is the scope, an underscore and the name of the setting, and scopes and
names may have underscores themselves. But no name ends in an underscore followed by another name, so
a variable belongs to one scope at most, even where one scope continues another.
-/

set_option autoImplicit false

namespace DurableJobs

/-- The settings of a writer. -/
def WriterConfig.settingNames : List String :=
  ["DB_PATH", "WRITER_IDLE_TIMEOUT_MS", "BUSY_TIMEOUT_MS"]

namespace Environment

/-- The settings that are read in a scope. -/
def settingNames : List String :=
  WriterConfig.settingNames ++ Setting.all.map Setting.name

theorem mem_settingNames_of_writer {setting : String}
    (member : setting ∈ WriterConfig.settingNames) : setting ∈ settingNames :=
  List.mem_append_left _ member

theorem name_mem_settingNames (setting : Setting) : setting.name ∈ settingNames :=
  List.mem_append_right _ (List.mem_map_of_mem setting.mem_all)

theorem toList_variableOf (scope setting : String) :
    (variableOf scope setting).toList = scope.toList ++ '_' :: setting.toList := by
  simp [variableOf]

/-- No name of a setting ends in an underscore and the name of a setting. -/
theorem not_underscored_suffix :
    ∀ long ∈ settingNames, ∀ short ∈ settingNames, ¬ '_' :: short.toList <:+ long.toList := by
  decide

theorem suffix_of_underscored {gap long short : List Char}
    (split : '_' :: long = gap ++ '_' :: short) : gap = [] ∨ '_' :: short <:+ long := by
  cases gap with
  | nil => exact .inl rfl
  | cons first rest =>
      obtain ⟨_, isLong⟩ := List.cons.inj split
      exact .inr ⟨rest, isLong.symm⟩

/-- A variable names its scope. -/
theorem scope_eq_of_variableOf_eq {scope other left right : String} (isLeft : left ∈ settingNames)
    (isRight : right ∈ settingNames) (same : variableOf scope left = variableOf other right) :
    scope = other := by
  have characters := congrArg String.toList same
  rw [toList_variableOf, toList_variableOf] at characters
  refine String.toList_inj.mp ?_
  rcases List.append_eq_append_iff.mp characters with ⟨gap, isOther, split⟩ | ⟨gap, isScope, split⟩
  · rcases suffix_of_underscored split with rfl | suffix
    · rw [isOther, List.append_nil]
    · exact absurd suffix (not_underscored_suffix left isLeft right isRight)
  · rcases suffix_of_underscored split with rfl | suffix
    · rw [isScope, List.append_nil]
    · exact absurd suffix (not_underscored_suffix right isRight left isLeft)

/-- The environments are alike but for the settings in the scope. -/
def DifferOnlyIn (scope : String) (left right : Environment) : Prop :=
  ∀ key, left key ≠ right key → ∃ setting ∈ settingNames, key = variableOf scope setting

theorem DifferOnlyIn.eq_elsewhere {scope other setting : String} {left right : Environment}
    (confined : DifferOnlyIn other left right) (apart : scope ≠ other)
    (isSetting : setting ∈ settingNames) :
    left (variableOf scope setting) = right (variableOf scope setting) := by
  refine Decidable.not_not.mp fun differ => ?_
  obtain ⟨_, isOther, same⟩ := confined _ differ
  exact apart (scope_eq_of_variableOf_eq isSetting isOther same)

end Environment

open Environment (variableOf DifferOnlyIn)

theorem WriterConfig.ofEnvironment_congr {name scope : String} {left right : Environment}
    (same : ∀ setting ∈ settingNames,
      left (variableOf scope setting) = right (variableOf scope setting)) :
    ofEnvironment name scope left = ofEnvironment name scope right := by
  have path := same "DB_PATH" (by simp [settingNames])
  have idle := same "WRITER_IDLE_TIMEOUT_MS" (by simp [settingNames])
  have busy := same "BUSY_TIMEOUT_MS" (by simp [settingNames])
  simp only [ofEnvironment, Environment.millis?, Environment.number?, path, idle, busy]

/-- What is set in one scope makes no difference to what is configured in another. -/
theorem Environment.configured_apart (name : String) {scope other : String} (apart : scope ≠ other)
    {left right : Environment} (confined : DifferOnlyIn other left right) :
    WriterConfig.ofEnvironment name scope left = WriterConfig.ofEnvironment name scope right ∧
      EngineConfig.ofEnvironment scope left = EngineConfig.ofEnvironment scope right := by
  constructor
  · exact WriterConfig.ofEnvironment_congr fun setting isSetting =>
      confined.eq_elsewhere apart (mem_settingNames_of_writer isSetting)
  · exact EngineConfig.ofEnvironment_congr fun setting =>
      confined.eq_elsewhere apart (name_mem_settingNames setting)

/-- One scope may continue the other. -/
theorem Environment.configured_apart_continued :
    let left : Environment := fun key =>
      if key = "DOG_JOBS_DB_PATH" then some "main.db"
      else if key = "DOG_JOBS_AI_DB_PATH" then some "ai.db"
      else if key = "DOG_JOBS_AI_BATCH_SIZE" then some "many" else none
    let right : Environment := fun key =>
      if key = "DOG_JOBS_DB_PATH" then some "main.db" else none
    "DOG_JOBS" ≠ "DOG_JOBS_AI" ∧ DifferOnlyIn "DOG_JOBS_AI" left right ∧
      (WriterConfig.ofEnvironment "main" "DOG_JOBS" left =
          WriterConfig.ofEnvironment "main" "DOG_JOBS" right ∧
        EngineConfig.ofEnvironment "DOG_JOBS" left = EngineConfig.ofEnvironment "DOG_JOBS" right) ∧
      WriterConfig.ofEnvironment "main" "DOG_JOBS" left = .ok (WriterConfig.new "main" "main.db") ∧
      EngineConfig.ofEnvironment "DOG_JOBS" left = .ok EngineConfig.standard ∧
      (EngineConfig.ofEnvironment "DOG_JOBS_AI" left).toOption = none := by
  intro left right
  have apart : "DOG_JOBS" ≠ "DOG_JOBS_AI" := by decide
  have confined : DifferOnlyIn "DOG_JOBS_AI" left right := by
    intro key differ
    by_cases isPath : key = "DOG_JOBS_AI_DB_PATH"
    · exact ⟨"DB_PATH", by decide, isPath.trans (by decide)⟩
    by_cases isBatch : key = "DOG_JOBS_AI_BATCH_SIZE"
    · exact ⟨"BATCH_SIZE", by decide, isBatch.trans (by decide)⟩
    · exact absurd (by simp [left, right, isPath, isBatch]) differ
  refine ⟨apart, confined, Environment.configured_apart "main" apart confined,
    Store.ok_of_toOption (by decide +kernel), Store.ok_of_toOption (by decide +kernel),
    by decide +kernel⟩

end DurableJobs
