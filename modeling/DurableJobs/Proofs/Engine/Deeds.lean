import DurableJobs.Proofs.Engine.Custody

/-!
Courses of engines over one database, across restarts.

A process may die at any moment and leave its database behind; whatever else its engine held is lost,
and the next engine is opened on that database, perhaps with other executors or another
configuration. A deed is a move or such a restart, a course any sequence of them.
-/

set_option autoImplicit false

namespace DurableJobs

def Attempt.value? {Value : Type} : Attempt Value → Option Value
  | .succeeded value => some value
  | _ => none

theorem Attempt.eq_succeeded {Value : Type} {attempt : Attempt Value} {value : Value}
    (isValue : attempt.value? = some value) : attempt = .succeeded value := by
  cases attempt with
  | succeeded other => rw [Option.some.inj isValue]
  | refused error => cases isValue
  | broke => cases isValue

namespace Engine

inductive Deed (Business : Type) : Type 1 where
  | move (move : Move Business)
  | reopen (registry : Registry) (config : EngineConfig)

namespace Deed

variable {Business : Type}

/-- The programs that the deed runs touch the job table by enqueuing only. -/
def LeavesJobs : Deed Business → Prop
  | .move made => made.LeavesJobs
  | .reopen _ _ => True

end Deed

variable {Business : Type}

/-- The engine that is opened on the database when the process of this one has died. -/
def reopen? (engine : Engine Business) (registry : Registry) (config : EngineConfig) :
    Option (Engine Business) :=
  match start? engine.writerName registry config engine.database.business with
  | .succeeded opened => some { opened with database := engine.database }
  | _ => none

def perform? (engine : Engine Business) : Deed Business → Option (Engine Business)
  | .move move => engine.step move
  | .reopen registry config => engine.reopen? registry config

/-- The engine after some deeds, if each of them can be done in its turn. -/
def course? (engine : Engine Business) : List (Deed Business) → Option (Engine Business)
  | [] => some engine
  | deed :: rest => (engine.perform? deed).bind fun after => after.course? rest

section Courses

variable {engine middle after : Engine Business}

theorem course?_append (engine : Engine Business) (first second : List (Deed Business)) :
    engine.course? (first ++ second) = (engine.course? first).bind fun after =>
      after.course? second := by
  induction first generalizing engine with
  | nil => rfl
  | cons deed rest ih =>
      rw [List.cons_append, course?, course?]
      cases engine.perform? deed with
      | none => rfl
      | some after => exact ih after

theorem course?_concat {past : List (Deed Business)} {deed : Deed Business}
    (came : engine.course? past = some middle) (done : middle.perform? deed = some after) :
    engine.course? (past ++ [deed]) = some after := by
  simp [course?_append, came, course?, done]

/-- No move changes the configuration. -/
theorem config_of_step {move : Move Business} (taken : engine.step move = some after) :
    after.config = engine.config :=
  (settings_of_step taken).2

theorem start?_eq {writerName : String} {registry : Registry} {config : EngineConfig}
    {business : Business} {refusal? : Business → Business → Option StoreError}
    (opened : start? writerName registry config business refusal? = .succeeded after) :
    after.registry = registry ∧ after.config = config ∧
      after.database = ⟨Store.Table.empty, business, refusal?⟩ ∧
      after.telemetry = Telemetry.empty := by
  unfold start? at opened
  split at opened
  · cases opened
  · split at opened
    · cases opened
    · cases opened
      exact ⟨rfl, rfl, rfl, rfl⟩

/-- A restart keeps the database and nothing else. -/
theorem reopen?_cases {registry : Registry} {config : EngineConfig}
    (reopened : engine.reopen? registry config = some after) :
    after.Fresh ∧ after.registry = registry ∧ after.config = config ∧
      after.database = engine.database := by
  unfold reopen? at reopened
  cases opened : start? engine.writerName registry config engine.database.business with
  | refused error => simp [opened] at reopened
  | broke => simp [opened] at reopened
  | succeeded fresh =>
      rw [opened] at reopened
      obtain rfl := Option.some.inj reopened
      obtain ⟨isRegistry, isConfig, _, _⟩ := start?_eq opened
      exact ⟨fresh_of_start? opened engine.database, isRegistry, isConfig, rfl⟩

theorem orderly_of_start? {writerName : String} {registry : Registry} {config : EngineConfig}
    {business : Business} {refusal? : Business → Business → Option StoreError}
    (opened : start? writerName registry config business refusal? = .succeeded engine) :
    Orderly engine := by
  have fresh := fresh_of_start? opened engine.database
  refine .fresh fresh ?_
  rw [(start?_eq opened).2.2.1]
  exact Store.Table.consistent_empty

theorem Orderly.perform {deed : Deed Business} (orderly : Orderly engine)
    (leavesJobs : deed.LeavesJobs) (done : engine.perform? deed = some after) : Orderly after := by
  cases deed with
  | move move => exact orderly.moved move leavesJobs done
  | reopen registry config =>
      obtain ⟨fresh, _, _, database⟩ := reopen?_cases done
      exact .fresh fresh (database ▸ orderly.kept.owned.consistent)

theorem Orderly.course {deeds : List (Deed Business)} (orderly : Orderly engine)
    (leaveJobs : ∀ deed ∈ deeds, deed.LeavesJobs) (came : engine.course? deeds = some after) :
    Orderly after := by
  induction deeds generalizing engine with
  | nil => exact Option.some.inj came ▸ orderly
  | cons deed rest ih =>
      obtain ⟨middle, done, isRest⟩ := Option.bind_eq_some_iff.mp came
      exact ih (orderly.perform (leaveJobs deed List.mem_cons_self) done)
        (fun other member => leaveJobs other (List.mem_cons_of_mem _ member)) isRest

end Courses

theorem consistent_sample : sample.database.jobs.Consistent :=
  (Store.Table.consistent_empty.enqueue_reaches _ _).consistent Store.Table.consistent_empty

end Engine

end DurableJobs
