import DurableJobs.Text.Quoted

/-!
Effects that follow a commit.

A transactional execution may leave cache keys to invalidate and actions to run once its
transaction has committed. All keys go to the invalidator in one call, before the actions; then the
actions run one after the other. A call or an action that breaks stops none of the later ones.
-/

set_option autoImplicit false

namespace DurableJobs

/-- An action, known by its label, and whether it breaks when it is run. -/
structure Action where
  label : String
  breaks : Bool
deriving DecidableEq

structure AfterCommit where
  keys : List String
  actions : List Action
deriving DecidableEq

/-- What takes the keys: nothing comes of it, or they are noted, perhaps before it breaks. -/
inductive Invalidator where
  | idle
  | noting (breaks : Bool)
deriving DecidableEq

def Invalidator.breaks : Invalidator → Bool
  | .idle => false
  | .noting breaks => breaks

inductive Happening where
  | invalidated (keys : List String)
  | ran (action : Action)
deriving DecidableEq

/-- A call or an action begins, or it ends, perhaps because it broke. -/
inductive Moment where
  | began (happening : Happening)
  | ended (happening : Happening) (broke : Bool)
deriving DecidableEq

def Moment.begun? : Moment → Option Happening
  | .began happening => some happening
  | .ended _ _ => none

/-- What has come to pass, and whether it broke. -/
structure Passage where
  moments : List Moment
  isBroken : Bool
deriving DecidableEq

namespace Passage

def still : Passage := ⟨[], false⟩

/-- A call or an action that is waited for. If it breaks, it breaks while it is waited for: a call that
breaks before there is anything to wait for is not represented. -/
def await (happening : Happening) (breaks : Bool) : Passage :=
  ⟨[.began happening, .ended happening breaks], breaks⟩

/-- The passage with its break caught, if it broke. -/
def caught (passage : Passage) : Passage :=
  { passage with isBroken := false }

/-- One passage and then another, which is not come to if the first one broke. -/
def andThen (first second : Passage) : Passage :=
  if first.isBroken then first else ⟨first.moments ++ second.moments, second.isBroken⟩

/-- The calls and the actions that were begun. -/
def begun (passage : Passage) : List Happening :=
  passage.moments.filterMap Moment.begun?

end Passage

namespace AfterCommit

def none : AfterCommit := ⟨[], []⟩

def invalidate (effects : AfterCommit) (key : String) : AfterCommit :=
  { effects with keys := effects.keys ++ [key] }

def andThen (effects : AfterCommit) (action : Action) : AfterCommit :=
  { effects with actions := effects.actions ++ [action] }

/-- Both effects, the right ones after the left ones. -/
def merge (left right : AfterCommit) : AfterCommit :=
  ⟨left.keys ++ right.keys, left.actions ++ right.actions⟩

def isEmpty (effects : AfterCommit) : Bool :=
  effects.keys.isEmpty && effects.actions.isEmpty

def invalidateKeys (effects : AfterCommit) (invalidator : Invalidator) : Passage :=
  if effects.keys.isEmpty then .still
  else (Passage.await (.invalidated effects.keys) invalidator.breaks).caught

def runActions : List Action → Passage
  | [] => .still
  | action :: rest => (Passage.await (.ran action) action.breaks).caught.andThen (runActions rest)

/-- How the effects come to pass. -/
def passage (effects : AfterCommit) (invalidator : Invalidator) : Passage :=
  (effects.invalidateKeys invalidator).andThen (runActions effects.actions)

/-- The calls and the actions that the effects begin, with whatever invalidator. -/
def run (effects : AfterCommit) : List Happening :=
  (effects.passage .idle).begun

def text (effects : AfterCommit) : String :=
  "AfterCommit \x7b invalidate: [" ++
    String.intercalate ", " (effects.keys.map Text.quoted) ++ "], actions: " ++
    toString effects.actions.length ++ " \x7d"

end AfterCommit

namespace Happening

/-- The notes that a happening leaves, a breaking one made before it breaks. -/
def notes (invalidator : Invalidator) : Happening → List String
  | .invalidated keys =>
      match invalidator with
      | .idle => []
      | .noting _ => keys.map ("invalidate " ++ ·)
  | .ran action => [(if action.breaks then "panic " else "then ") ++ action.label]

end Happening

end DurableJobs
