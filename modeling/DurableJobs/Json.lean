import DurableJobs.Bytes

/-!
JSON values.

The fields of an object are kept in order; an object that stands for a set of names keeps them
sorted, with `insert`. Numbers are whole where the format's 64-bit integers reach and doubles
elsewhere.
-/

set_option autoImplicit false

namespace DurableJobs

inductive Json where
  | null
  | boolean (value : Bool)
  | integer (value : Int)
  | double (value : Float)
  | text (value : String)
  | array (items : List Json)
  | object (fields : List (String × Json))
deriving BEq, Inhabited

namespace Json

/-- Sets a field, keeping names sorted and each name once. -/
def insertField {Value : Type} (name : String) (value : Value) :
    List (String × Value) → List (String × Value)
  | [] => [(name, value)]
  | (other, held) :: rest =>
      if name < other then (name, value) :: (other, held) :: rest
      else if name = other then (name, value) :: rest
      else (other, held) :: insertField name value rest

def field? (value : Json) (name : String) : Option Json :=
  match value with
  | .object fields => (fields.find? fun entry => entry.1 == name).map (·.2)
  | _ => none

def text? : Json → Option String
  | .text value => some value
  | _ => none

def integer? : Json → Option Int
  | .integer value => some value
  | _ => none

def boolean? : Json → Option Bool
  | .boolean value => some value
  | _ => none

def array? : Json → Option (List Json)
  | .array items => some items
  | _ => none

def natural? : Json → Option Nat
  | .integer value => if 0 ≤ value then some value.toNat else none
  | _ => none

def ofOption {Value : Type} (encode : Value → Json) : Option Value → Json
  | none => .null
  | some value => encode value

end Json

end DurableJobs
