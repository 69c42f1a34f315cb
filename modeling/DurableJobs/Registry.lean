import DurableJobs.Error
import DurableJobs.Text.Quoted

/-!
Which job types an engine executes, and how.

A transactional executor runs inside the transaction that settles its record; a normal or a
long-running one runs outside, in the pool of its kind. Each type has one executor: the first that
was registered.
-/

set_option autoImplicit false

namespace DurableJobs

inductive ExecutorKind where
  | transactional
  | normal
  | longRunning
deriving DecidableEq

namespace ExecutorKind

def all : List ExecutorKind := [.transactional, .normal, .longRunning]

def name : ExecutorKind → String
  | .transactional => "transactional"
  | .normal => "normal"
  | .longRunning => "long_running"

def ofName? (name : String) : Option ExecutorKind :=
  all.find? fun kind => kind.name == name

def title : ExecutorKind → String
  | .transactional => "Transactional"
  | .normal => "Normal"
  | .longRunning => "LongRunning"

end ExecutorKind

/-- The registered types in the order of their registration. -/
structure Registry where
  entries : List (String × ExecutorKind)
deriving DecidableEq

namespace Registry

def empty : Registry := ⟨[]⟩

def kindOf (registry : Registry) (jobType : String) : Option ExecutorKind :=
  (registry.entries.find? fun entry => entry.1 == jobType).map (·.2)

def isRegistered (registry : Registry) (jobType : String) : Bool :=
  (registry.kindOf jobType).isSome

def register (registry : Registry) (jobType : String) (kind : ExecutorKind) :
    Except EngineError Registry :=
  if registry.isRegistered jobType then .error (.alreadyRegistered jobType)
  else .ok ⟨registry.entries ++ [(jobType, kind)]⟩

def typesOf (registry : Registry) (kind : ExecutorKind) : List String :=
  (registry.entries.filter fun entry => entry.2 == kind).map (·.1)

def insertSorted (text : String) : List String → List String
  | [] => [text]
  | other :: rest => if text ≤ other then text :: other :: rest else other :: insertSorted text rest

def sorted : List String → List String
  | [] => []
  | text :: rest => insertSorted text (sorted rest)

def types (registry : Registry) : List String :=
  sorted (registry.entries.map (·.1))

def size (registry : Registry) : Nat := registry.entries.length

def text (registry : Registry) : String :=
  let entries := registry.entries.map fun entry => Text.quoted entry.1 ++ ": " ++ entry.2.title
  "\x7b" ++ String.intercalate ", " entries ++ "\x7d"

end Registry

end DurableJobs
