import DurableJobs.Error
import DurableJobs.Retry
import DurableJobs.Text.Blank
import DurableJobs.Text.Quoted

/-!
Configuration of a writer and of an engine, by defaults and by variables of an environment.

The variables of one configuration share a scope: the variable of a setting is the scope, an
underscore and the name of the setting. So several stores can be configured side by side. The first
variable that cannot be read, in a fixed order, is the one reported; limits are checked after all
variables were read.
-/

set_option autoImplicit false

namespace DurableJobs

abbrev Environment := String → Option String

inductive NumberFault where
  | empty
  | invalidDigit
  | tooLarge
deriving DecidableEq

namespace NumberFault

def message : NumberFault → String
  | .empty => "cannot parse integer from empty string"
  | .invalidDigit => "invalid digit found in string"
  | .tooLarge => "number too large to fit in target type"

end NumberFault

/-- Appends digits to a number. Of an invalid digit and a number too large, the one met first
counts. -/
def appendDecimal (limit : Nat) : Nat → List Char → Except NumberFault Nat
  | value, [] => .ok value
  | value, character :: rest =>
      if character.isDigit then
        let larger := value * 10 + (character.toNat - 48)
        if larger < limit then appendDecimal limit larger rest else .error .tooLarge
      else .error .invalidDigit

/-- The number below the limit that a text spells, perhaps after a plus. -/
def numberOfText (limit : Nat) (characters : List Char) : Except NumberFault Nat :=
  match characters with
  | [] => .error .empty
  | ['+'] => .error .invalidDigit
  | '+' :: digits => appendDecimal limit 0 digits
  | digits => appendDecimal limit 0 digits

inductive ConfigFault where
  | unset (key : String)
  | unreadable (key value : String) (fault : NumberFault)
  | noBatch
  | noSlot
  | noInterval
  | noEvents
  /-- Tracing was asked for, which is not part of the engine. -/
  | noTracing
deriving DecidableEq

namespace ConfigFault

def message : ConfigFault → String
  | .unset key => key ++ " is not set"
  | .unreadable key value fault =>
      key ++ "=" ++ Text.quoted value ++ ": " ++ fault.message
  | .noBatch => "dispatch_batch_size must be at least 1"
  | .noSlot => "executor pools need at least one slot"
  | .noInterval => "poll_interval must be positive"
  | .noEvents => "event_capacity must be at least 1"
  | .noTracing => "init_tracing requires the `tracing-basic` feature"

def error (fault : ConfigFault) : EngineError := .config fault.message

end ConfigFault

namespace Environment

def variableOf (scope setting : String) : String :=
  scope ++ "_" ++ setting

/-- The number below the limit that a variable holds, blanks around it ignored. -/
def number? (environment : Environment) (scope setting : String) (limit : Nat) :
    Except ConfigFault (Option Nat) :=
  match environment (variableOf scope setting) with
  | none => .ok none
  | some value =>
      match numberOfText limit (Text.trim value.toList) with
      | .ok number => .ok (some number)
      | .error fault => .error (.unreadable (variableOf scope setting) value fault)

def millis? (environment : Environment) (scope setting : String) :
    Except ConfigFault (Option Duration) := do
  return (← environment.number? scope setting 0x10000000000000000).map Duration.ofMillis

end Environment

/-! ### Writers -/

structure WriterConfig where
  name : String
  path : String
  /-- How long a worker waits for work before it gives its connection back. -/
  idleTimeout : Duration
  busyTimeout : Duration
deriving DecidableEq

namespace WriterConfig

def new (name path : String) : WriterConfig :=
  ⟨name, path, Duration.ofSeconds 10, Duration.ofSeconds 5⟩

def ofEnvironment (name scope : String) (environment : Environment) :
    Except ConfigFault WriterConfig := do
  match environment (Environment.variableOf scope "DB_PATH") with
  | none => .error (.unset (Environment.variableOf scope "DB_PATH"))
  | some path =>
      let standard := new name path
      let idle ← environment.millis? scope "WRITER_IDLE_TIMEOUT_MS"
      let busy ← environment.millis? scope "BUSY_TIMEOUT_MS"
      return { standard with
        idleTimeout := idle.getD standard.idleTimeout
        busyTimeout := busy.getD standard.busyTimeout }

end WriterConfig

/-! ### Engines -/

/-- When records found running at the start are tried again. -/
inductive Recovery where
  | immediately
  | withBackoff
deriving DecidableEq

structure EngineConfig where
  pollInterval : Duration
  batchSize : Nat
  normalConcurrency : Nat
  longRunningConcurrency : Nat
  normalTimeout : Option Duration
  longRunningTimeout : Option Duration
  retry : RetryPolicy
  recovery : Recovery
  eventCapacity : Nat
deriving DecidableEq

namespace EngineConfig

def standard : EngineConfig where
  pollInterval := Duration.ofSeconds 1
  batchSize := 32
  normalConcurrency := 8
  longRunningConcurrency := 2
  normalTimeout := some (Duration.ofSeconds 300)
  longRunningTimeout := none
  retry := RetryPolicy.standard
  recovery := .immediately
  eventCapacity := 1024

def validate (config : EngineConfig) : Except ConfigFault Unit :=
  if config.batchSize = 0 then .error .noBatch
  else if config.normalConcurrency = 0 ∨ config.longRunningConcurrency = 0 then .error .noSlot
  else if config.pollInterval.isZero then .error .noInterval
  else if config.eventCapacity = 0 then .error .noEvents
  else .ok ()

/-- The settings of an environment over the standard ones; a time limit or a number of failures of
zero stands for none. -/
def ofEnvironment (scope : String) (environment : Environment) :
    Except ConfigFault EngineConfig := do
  let poll ← environment.millis? scope "POLL_INTERVAL_MS"
  let batch ← environment.number? scope "BATCH_SIZE" 0x10000000000000000
  let normal ← environment.number? scope "NORMAL_CONCURRENCY" 0x10000000000000000
  let longRunning ← environment.number? scope "LONG_RUNNING_CONCURRENCY" 0x10000000000000000
  let timeout ← environment.millis? scope "NORMAL_TIMEOUT_MS"
  let backoff ← environment.millis? scope "RETRY_BACKOFF_MS"
  let maxFailures ← environment.number? scope "MAX_FAILURES" 0x100000000
  let config : EngineConfig :=
    { standard with
      pollInterval := poll.getD standard.pollInterval
      batchSize := batch.getD standard.batchSize
      normalConcurrency := normal.getD standard.normalConcurrency
      longRunningConcurrency := longRunning.getD standard.longRunningConcurrency
      normalTimeout :=
        match timeout with
        | none => standard.normalTimeout
        | some limit => if limit.isZero then none else some limit
      retry :=
        { backoff := (backoff.map Backoff.fixed).getD standard.retry.backoff
          maxFailures :=
            match maxFailures with
            | none => standard.retry.maxFailures
            | some limit => if limit = 0 then none else some limit } }
  config.validate
  return config

end EngineConfig

end DurableJobs
