import DurableJobs.Store.Number

/-!
The values that a column of the store can hold, their order, and what a column makes of a value.

A column for integers turns a text that spells a number into that number, and a double that is a
whole number into that integer; a column for texts turns an integer into its text; a column for
blobs takes what it is given.
-/

set_option autoImplicit false

namespace DurableJobs.Store

inductive Cell where
  | null
  | integer (value : Int)
  | real (value : Double)
  | text (value : String)
  | blob (bytes : Bytes)
deriving DecidableEq

inductive CellKind where
  | null
  | integer
  | real
  | text
  | blob
deriving DecidableEq

namespace CellKind

def name : CellKind → String
  | .null => "Null"
  | .integer => "Integer"
  | .real => "Real"
  | .text => "Text"
  | .blob => "Blob"

end CellKind

namespace Cell

def kind : Cell → CellKind
  | .null => .null
  | .integer _ => .integer
  | .real _ => .real
  | .text _ => .text
  | .blob _ => .blob

def ofText? : Option String → Cell
  | none => .null
  | some value => .text value

def ofNumber : Number → Cell
  | .integer value => .integer value
  | .double value => .real value

/-! ### Order -/

def compareBytes : Bytes → Bytes → Ordering
  | [], [] => .eq
  | [], _ :: _ => .lt
  | _ :: _, [] => .gt
  | left :: leftRest, right :: rightRest =>
      if left < right then .lt
      else if right < left then .gt
      else compareBytes leftRest rightRest

/-- Nulls come first, then numbers by size, texts by code point and blobs by byte. -/
def compare : Cell → Cell → Ordering
  | .null, .null => .eq
  | .null, _ => .lt
  | .integer _, .null => .gt
  | .integer left, .integer right => Ord.compare left right
  | .integer left, .real right => Ord.compare (left * Double.one) right.units
  | .integer _, _ => .lt
  | .real _, .null => .gt
  | .real left, .integer right => Ord.compare left.units (right * Double.one)
  | .real left, .real right => Ord.compare left.units right.units
  | .real _, _ => .lt
  | .text _, .blob _ => .lt
  | .text left, .text right => Ord.compare left right
  | .text _, _ => .gt
  | .blob left, .blob right => compareBytes left right
  | .blob _, _ => .gt

/-! ### Columns -/

/-- A value as a column for integers keeps it. -/
def forIntegers : Cell → Cell
  | .text value =>
      match (Numeral.ofBytes (Bytes.ofText value)).number? with
      | some number => ofNumber number.normalized
      | none => .text value
  | .real value => ofNumber (Number.double value).normalized
  | cell => cell

def forTexts : Cell → Cell
  | .integer value => .text (toString value)
  | cell => cell

/-- The number that arithmetic takes a cell for. -/
def number? : Cell → Option Number
  | .null => none
  | .integer value => some (.integer value)
  | .real value => some (.double value)
  | .text value => some (Numeral.ofBytes (Bytes.ofText value)).leadingNumber
  | .blob bytes => some (Numeral.ofBytes bytes).leadingNumber

/-- One more than the number that a cell is taken for, as a column for integers keeps it. -/
def increment (cell : Cell) : Cell :=
  match cell.number? with
  | none => .null
  | some number => ofNumber number.increment.normalized

end Cell

end DurableJobs.Store
