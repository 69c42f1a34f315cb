import DurableJobs.Text.Quoted
import DurableJobs.Decimal.Shortest

/-!
What can be wrong with a JSON text, and where.

A fault names its cause and the place up to which the text was read: the line, counted from one,
and the bytes read in it.
-/

set_option autoImplicit false

namespace DurableJobs.Json

/-- The kind of value that was met where another was wanted. -/
inductive Found where
  | null
  | boolean (value : Bool)
  | integer (value : Int)
  | double (value : Float)
  | text (value : String)
  | sequence
  | map

namespace Found

def description : Found → String
  | .null => "null"
  | .boolean value => "boolean `" ++ (if value then "true" else "false") ++ "`"
  | .integer value => "integer `" ++ toString value ++ "`"
  | .double value => "floating point `" ++ Decimal.doubleText value ++ "`"
  | .text value => "string " ++ Text.quoted value
  | .sequence => "sequence"
  | .map => "map"

end Found

inductive Cause where
  | valueEnds
  | objectEnds
  | listEnds
  | stringEnds
  | expectedValue
  | expectedName
  | expectedColon
  | expectedObjectMark
  | expectedListMark
  | keyNotText
  | trailingComma
  | trailingCharacters
  | invalidNumber
  | numberOutOfRange
  | invalidEscape
  | invalidCodePoint
  | hexEscapeEnds
  | loneSurrogate
  | controlCharacter
  | tooDeep
  | invalidType (found : Found) (wanted : String)
  | invalidValue (found : Found) (wanted : String)
  | invalidLength (length : Nat) (wanted : String)
  | missingField (name : String)
  | duplicateField (name : String)
  | unknownName (name : String)
  | unreadable (what : String)

namespace Cause

def message : Cause → String
  | .valueEnds => "EOF while parsing a value"
  | .objectEnds => "EOF while parsing an object"
  | .listEnds => "EOF while parsing a list"
  | .stringEnds => "EOF while parsing a string"
  | .expectedValue => "expected value"
  | .expectedName => "expected ident"
  | .expectedColon => "expected `:`"
  | .expectedObjectMark => "expected `,` or `\x7d`"
  | .expectedListMark => "expected `,` or `]`"
  | .keyNotText => "key must be a string"
  | .trailingComma => "trailing comma"
  | .trailingCharacters => "trailing characters"
  | .invalidNumber => "invalid number"
  | .numberOutOfRange => "number out of range"
  | .invalidEscape => "invalid escape"
  | .invalidCodePoint => "invalid unicode code point"
  | .hexEscapeEnds => "unexpected end of hex escape"
  | .loneSurrogate => "lone leading surrogate in hex escape"
  | .controlCharacter => "control character (\\u0000-\\u001F) found while parsing a string"
  | .tooDeep => "recursion limit exceeded"
  | .invalidType found wanted => "invalid type: " ++ found.description ++ ", expected " ++ wanted
  | .invalidValue found wanted => "invalid value: " ++ found.description ++ ", expected " ++ wanted
  | .invalidLength length wanted =>
      "invalid length " ++ toString length ++ ", expected " ++ wanted
  | .missingField name => "missing field `" ++ name ++ "`"
  | .duplicateField name => "duplicate field `" ++ name ++ "`"
  | .unknownName name => "unknown name `" ++ name ++ "`"
  | .unreadable what => "unreadable " ++ what

end Cause

structure Fault where
  cause : Cause
  line : Nat
  column : Nat

namespace Fault

def message (fault : Fault) : String :=
  fault.cause.message ++ " at line " ++ toString fault.line ++ " column " ++ toString fault.column

end Fault

end DurableJobs.Json
