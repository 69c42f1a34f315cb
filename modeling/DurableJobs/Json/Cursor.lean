import DurableJobs.Json
import DurableJobs.Json.Fault

/-!
The place that a reader has reached in a JSON text, and the tokens read there: blanks, names,
numbers and strings.

The bytes of a text are given by their codes. The marks are 34 for the quote, 44 for the comma, 58
for the colon, 91 and 93 for the brackets and 123 and 125 for the braces; in numbers 43 is the plus,
45 the minus, 46 the point, and 69 and 101 are the letters of an exponent; in strings 92 is the
backslash.
-/

set_option autoImplicit false

namespace DurableJobs.Json

/-- The bytes still to read, and the place: lines begun, and bytes read in the last of them. -/
structure Cursor where
  rest : Bytes
  line : Nat
  column : Nat
deriving DecidableEq

abbrev Reading (Value : Type) := Except Fault (Value × Cursor)

def restOfNull : Bytes := [117, 108, 108]

def restOfTrue : Bytes := [114, 117, 101]

def restOfFalse : Bytes := [97, 108, 115, 101]

namespace Cursor

def start (bytes : Bytes) : Cursor := ⟨bytes, 1, 0⟩

/-- The place after the next byte; the end stays where it is. -/
def advance (cursor : Cursor) : Cursor :=
  match cursor.rest with
  | [] => cursor
  | byte :: rest =>
      if byte = 10 then ⟨rest, cursor.line + 1, 0⟩ else ⟨rest, cursor.line, cursor.column + 1⟩

def advanceBy : Nat → Cursor → Cursor
  | 0, cursor => cursor
  | count + 1, cursor => advanceBy count cursor.advance

def fault (cursor : Cursor) (cause : Cause) : Fault :=
  ⟨cause, cursor.line, cursor.column⟩

def faultNext (cursor : Cursor) (cause : Cause) : Fault :=
  cursor.advance.fault cause

def skipBlanksFrom : Bytes → Nat → Nat → Cursor
  | [], line, column => ⟨[], line, column⟩
  | byte :: rest, line, column =>
      if byte = 10 then skipBlanksFrom rest (line + 1) 0
      else if byte = 32 || byte = 9 || byte = 13 then skipBlanksFrom rest line (column + 1)
      else ⟨byte :: rest, line, column⟩

def skipBlanks (cursor : Cursor) : Cursor :=
  skipBlanksFrom cursor.rest cursor.line cursor.column

def nameRest : Bytes → Cursor → Except Fault Cursor
  | [], cursor => .ok cursor
  | wanted :: more, cursor =>
      match cursor.rest with
      | [] => .error (cursor.fault .valueEnds)
      | byte :: _ =>
          if byte = wanted then nameRest more cursor.advance
          else .error (cursor.advance.fault .expectedName)

/-! ### Numbers -/

def isDigit (byte : UInt8) : Bool := 48 ≤ byte && byte ≤ 57

def skipDigits (cursor : Cursor) : Cursor :=
  let count := (cursor.rest.takeWhile isDigit).length
  ⟨cursor.rest.drop count, cursor.line, cursor.column + count⟩

def digitsAt (cursor : Cursor) : List Nat :=
  (cursor.rest.takeWhile isDigit).map fun byte => byte.toNat - 48

/-- Appends digits to a number as long as it stays below 2^64; also how many digits were taken. -/
def appendDigits : Nat → List Nat → Nat × Nat
  | value, [] => (value, 0)
  | value, digit :: rest =>
      if value * 10 + digit < 0x10000000000000000 then
        let (result, taken) := appendDigits (value * 10 + digit) rest
        (result, taken + 1)
      else (value, 0)

def powerOfTen (exponent : Nat) : Float := Float.ofScientific 1 false exponent

/-- Divides by a power of ten, in steps that a double can hold. -/
def divideByPower : Nat → Float → Nat → Float
  | 0, value, _ => value
  | rounds + 1, value, exponent =>
      if exponent ≤ 308 then value / powerOfTen exponent
      else if value == 0 then value
      else divideByPower rounds (value / powerOfTen 308) (exponent - 308)

def doubleOfParts? (significand : Nat) (exponent : Int) : Option Float :=
  let value := significand.toUInt64.toFloat
  if 0 ≤ exponent then
    if exponent ≤ 308 then
      let scaled := value * powerOfTen exponent.toNat
      if scaled.isInf then none else some scaled
    else if value == 0 then some value else none
  else some (divideByPower 8 value (-exponent).toNat)

def withSign (positive : Bool) (value : Float) : Float :=
  if positive then value else -value

def finishDouble (positive : Bool) (significand : Nat) (exponent : Int) (cursor : Cursor) :
    Reading Json :=
  match doubleOfParts? significand exponent with
  | some value => .ok (.double (withSign positive value), cursor)
  | none => .error (cursor.fault .numberOutOfRange)

/-- How many leading digits there are before their value passes 2^31 - 1; nothing if it never
does. -/
def exponentOverflow? : Nat → Nat → List Nat → Option Nat
  | _, _, [] => none
  | value, count, digit :: rest =>
      if value * 10 + digit ≤ 0x7fffffff then exponentOverflow? (value * 10 + digit) (count + 1) rest
      else some (count + 1)

def exponent (positive : Bool) (significand : Nat) (scale : Int) (cursor : Cursor) :
    Reading Json :=
  let afterLetter := cursor.advance
  let (positiveExponent, place) :=
    match afterLetter.rest with
    | 43 :: _ => (true, afterLetter.advance)
    | 45 :: _ => (false, afterLetter.advance)
    | _ => (true, afterLetter)
  match place.rest with
  | [] => .error (place.fault .valueEnds)
  | byte :: _ =>
      if isDigit byte then
        let digits := digitsAt place
        match exponentOverflow? 0 0 digits with
        | some count =>
            if significand != 0 && positiveExponent then
              .error ((place.advanceBy count).fault .numberOutOfRange)
            else .ok (.double (withSign positive 0), skipDigits place)
        | none =>
            let magnitude : Nat := digits.foldl (fun value digit => value * 10 + digit) 0
            finishDouble positive significand
              (if positiveExponent then scale + (magnitude : Int) else scale - (magnitude : Int))
              (skipDigits place)
      else .error (place.advance.fault .invalidNumber)

def fraction (positive : Bool) (significand : Nat) (scale : Int) (cursor : Cursor) :
    Reading Json :=
  let place := cursor.advance
  match digitsAt place with
  | [] =>
      match place.rest with
      | [] => .error (place.fault .valueEnds)
      | _ :: _ => .error (place.faultNext .invalidNumber)
  | digits =>
      let (extended, taken) := appendDigits significand digits
      let after := skipDigits place
      match after.rest with
      | 101 :: _ | 69 :: _ => exponent positive extended (scale - taken) after
      | _ => finishDouble positive extended (scale - taken) after

def number (positive : Bool) (cursor : Cursor) : Reading Json :=
  match cursor.rest with
  | [] => .error (cursor.fault .valueEnds)
  | first :: _ =>
      if isDigit first then
        let digits := digitsAt cursor
        if first = 48 && 1 < digits.length then .error (cursor.advance.faultNext .invalidNumber)
        else
          let (significand, taken) := appendDigits 0 digits
          let scale : Int := digits.length - taken
          let after := skipDigits cursor
          match after.rest with
          | 46 :: _ => fraction positive significand scale after
          | 101 :: _ | 69 :: _ => exponent positive significand scale after
          | _ =>
              if scale != 0 then finishDouble positive significand scale after
              else if positive then .ok (.integer significand, after)
              else if significand = 0 || 0x8000000000000000 < significand then
                .ok (.double (-significand.toUInt64.toFloat), after)
              else .ok (.integer (-significand), after)
      else .error (cursor.advance.fault .invalidNumber)

/-! ### Strings -/

def hexValue? (byte : UInt8) : Option Nat :=
  if 48 ≤ byte && byte ≤ 57 then some (byte.toNat - 48)
  else if 97 ≤ byte && byte ≤ 102 then some (byte.toNat - 87)
  else if 65 ≤ byte && byte ≤ 70 then some (byte.toNat - 55)
  else none

def hexEscape (cursor : Cursor) : Except Fault (Nat × Cursor) :=
  match cursor.rest with
  | first :: second :: third :: fourth :: _ =>
      let after := cursor.advanceBy 4
      match hexValue? first, hexValue? second, hexValue? third, hexValue? fourth with
      | some a, some b, some c, some d => .ok (((a * 16 + b) * 16 + c) * 16 + d, after)
      | _, _, _, _ => .error (after.fault .invalidEscape)
  | _ => .error ((cursor.advanceBy cursor.rest.length).fault .stringEnds)

def utf8 (codePoint : Nat) : Bytes :=
  Bytes.ofText (String.singleton (Char.ofNat codePoint))

/-- The second half of a surrogate pair, from its backslash on. -/
def lowSurrogate (high : Nat) (cursor : Cursor) : Except Fault (Bytes × Cursor) :=
  match cursor.rest with
  | [] => .error (cursor.fault .stringEnds)
  | 92 :: [] => .error (cursor.advance.fault .stringEnds)
  | 92 :: 117 :: _ =>
      match hexEscape (cursor.advanceBy 2) with
      | .error fault => .error fault
      | .ok (low, after) =>
          if 0xDC00 ≤ low && low ≤ 0xDFFF then
            .ok (utf8 ((high - 0xD800) * 1024 + (low - 0xDC00) + 0x10000), after)
          else .error (after.fault .loneSurrogate)
  | 92 :: _ => .error ((cursor.advanceBy 2).fault .hexEscapeEnds)
  | _ => .error (cursor.advance.fault .hexEscapeEnds)

def escape (cursor : Cursor) : Except Fault (Bytes × Cursor) :=
  match cursor.rest with
  | [] => .error (cursor.fault .stringEnds)
  | 34 :: _ => .ok ([34], cursor.advance)
  | 92 :: _ => .ok ([92], cursor.advance)
  | 47 :: _ => .ok ([47], cursor.advance)
  | 98 :: _ => .ok ([8], cursor.advance)
  | 102 :: _ => .ok ([12], cursor.advance)
  | 110 :: _ => .ok ([10], cursor.advance)
  | 114 :: _ => .ok ([13], cursor.advance)
  | 116 :: _ => .ok ([9], cursor.advance)
  | 117 :: _ =>
      match hexEscape cursor.advance with
      | .error fault => .error fault
      | .ok (code, after) =>
          if 0xDC00 ≤ code && code ≤ 0xDFFF then .error (after.fault .loneSurrogate)
          else if 0xD800 ≤ code && code ≤ 0xDBFF then lowSurrogate code after
          else .ok (utf8 code, after)
  | _ :: _ => .error (cursor.advance.fault .invalidEscape)

/-- The bytes of a string up to its closing quote, with the escapes resolved. Each round takes a
byte at least, so that the number of bytes left bounds the rounds. -/
def stringBytes : Nat → Cursor → Reading Bytes
  | 0, cursor => .error (cursor.fault .stringEnds)
  | rounds + 1, cursor =>
      match cursor.rest with
      | [] => .error (cursor.fault .stringEnds)
      | 34 :: _ => .ok ([], cursor.advance)
      | 92 :: _ =>
          match escape cursor.advance with
          | .error fault => .error fault
          | .ok (bytes, after) =>
              match stringBytes rounds after with
              | .error fault => .error fault
              | .ok (more, final) => .ok (bytes ++ more, final)
      | byte :: _ =>
          if byte < 32 then .error (cursor.advance.fault .controlCharacter)
          else
            match stringBytes rounds cursor.advance with
            | .error fault => .error fault
            | .ok (more, final) => .ok (byte :: more, final)

/-- A string, read after its opening quote. Bytes that are no UTF-8 are reported at the first of
them, its place counted back from the end of the string as if no escapes had been resolved. -/
def string (cursor : Cursor) : Reading String :=
  match stringBytes (cursor.rest.length + 1) cursor with
  | .error fault => .error fault
  | .ok (bytes, after) =>
      match Bytes.toText? bytes with
      | some spelling => .ok (spelling, after)
      | none =>
          let taken := cursor.rest.length - after.rest.length
          let illFormed := bytes.length - Bytes.wellFormedLength bytes
          .error ((cursor.advanceBy (taken - illFormed)).fault .invalidCodePoint)

end Cursor

end DurableJobs.Json
