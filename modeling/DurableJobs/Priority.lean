/-!
How urgent a job is.

Ready jobs are started from critical down to low, the older one first within a priority.
-/

set_option autoImplicit false

namespace DurableJobs

inductive Priority where
  | low
  | normal
  | high
  | critical
deriving DecidableEq

instance : Inhabited Priority := ⟨.normal⟩

namespace Priority

def all : List Priority := [.low, .normal, .high, .critical]

/-- The number that the store keeps; a more urgent job has the larger one. -/
def number : Priority → Nat
  | .low => 1
  | .normal => 2
  | .high => 3
  | .critical => 4

def ofNumber? (number : Int) : Option Priority :=
  all.find? fun priority => (priority.number : Int) == number

def name : Priority → String
  | .low => "low"
  | .normal => "normal"
  | .high => "high"
  | .critical => "critical"

/-- The priority of a name in letters of either case. Every letter that becomes one of these names'
in lower case is an ASCII letter. -/
def ofName? (name : String) : Option Priority :=
  all.find? fun priority => priority.name == name.toLower

/-- The priority of a name, or the text of the error that it has none. -/
def parse (name : String) : Except String Priority :=
  match ofName? name with
  | some priority => .ok priority
  | none => .error ("Invalid priority: " ++ name)

instance : LE Priority := ⟨fun left right => left.number ≤ right.number⟩

instance (left right : Priority) : Decidable (left ≤ right) :=
  inferInstanceAs (Decidable (left.number ≤ right.number))

theorem ofNumber?_number (priority : Priority) :
    ofNumber? priority.number = some priority := by
  cases priority <;> decide

theorem ofName?_name (priority : Priority) : ofName? priority.name = some priority := by
  cases priority <;> decide +kernel

theorem parse_name (priority : Priority) : parse priority.name = .ok priority := by
  simp [parse, ofName?_name]

end Priority

end DurableJobs
