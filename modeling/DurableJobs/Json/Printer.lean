import DurableJobs.Json
import DurableJobs.Decimal.Shortest
import DurableJobs.Text.Quoted

/-!
JSON text without blanks.

Strings escape the quote, the backslash and the controls, by a letter where there is one; every
other byte stands for itself. A double that is no number is written `null`.
-/

set_option autoImplicit false

namespace DurableJobs.Json

def ascii (text : String) : Bytes :=
  Bytes.ofText text

def hexDigit (digit : UInt8) : UInt8 :=
  if digit < 10 then 48 + digit else 87 + digit

def escaped (byte : UInt8) : Bytes :=
  if byte = 34 then [92, 34]
  else if byte = 92 then [92, 92]
  else if byte = 8 then [92, 98]
  else if byte = 9 then [92, 116]
  else if byte = 10 then [92, 110]
  else if byte = 12 then [92, 102]
  else if byte = 13 then [92, 114]
  else if byte < 32 then [92, 117, 48, 48, hexDigit (byte / 16), hexDigit (byte % 16)]
  else [byte]

def printText (text : String) : Bytes :=
  34 :: (Bytes.ofText text).flatMap escaped ++ [34]

def printNatural (value : Nat) : Bytes :=
  (Nat.toDigits 10 value).map fun digit => UInt8.ofNat digit.toNat

def printInteger (value : Int) : Bytes :=
  if value < 0 then 45 :: printNatural value.natAbs else printNatural value.natAbs

def printDouble (value : Float) : Bytes :=
  if value.isFinite then ascii (Decimal.doubleText value) else ascii "null"

mutual

def print : Json → Bytes
  | .null => ascii "null"
  | .boolean value => if value then ascii "true" else ascii "false"
  | .integer value => printInteger value
  | .double value => printDouble value
  | .text value => printText value
  | .array items => 91 :: printItems items ++ [93]
  | .object fields => 123 :: printFields fields ++ [125]

def printItems : List Json → Bytes
  | [] => []
  | [item] => print item
  | item :: rest => print item ++ 44 :: printItems rest

def printFields : List (String × Json) → Bytes
  | [] => []
  | [(name, value)] => printText name ++ 58 :: print value
  | (name, value) :: rest => printText name ++ 58 :: print value ++ 44 :: printFields rest

end

def render (value : Json) : String :=
  (Bytes.toText? value.print).getD ""

end DurableJobs.Json
