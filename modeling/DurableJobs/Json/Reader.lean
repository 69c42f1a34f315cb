import DurableJobs.Json.Cursor

/-!
Readers of typed values from JSON text.

A reader takes the number of brackets that may still be opened and the place in the text. The first
fault in the order of the text is the one reported: a value of the wrong type is a fault as soon as
it was met, whatever follows. Objects and arrays of the wrong type are reported where they begin,
other values where they end.
-/

set_option autoImplicit false

namespace DurableJobs.Json

/-- Reads a value where so many brackets, counting the one that is refused, may be opened. -/
abbrev Reader (Value : Type) := Nat → Cursor → Reading Value

/-- How many brackets a text may open inside each other, plus one. -/
def depthLimit : Nat := 128

namespace Reader

def wrongType (wanted : String) (cursor : Cursor) : Fault :=
  let fault := fun (found : Found) (place : Cursor) => place.fault (.invalidType found wanted)
  let afterName := fun (letters : Bytes) (found : Found) =>
    match Cursor.nameRest letters cursor.advance with
    | .ok after => fault found after
    | .error earlier => earlier
  let afterNumber := fun (reading : Reading Json) =>
    match reading with
    | .ok (.integer value, after) => fault (.integer value) after
    | .ok (.double value, after) => fault (.double value) after
    | .ok (_, after) => fault .null after
    | .error earlier => earlier
  match cursor.rest with
  | [] => cursor.faultNext .expectedValue
  | 110 :: _ => afterName restOfNull .null
  | 116 :: _ => afterName restOfTrue (.boolean true)
  | 102 :: _ => afterName restOfFalse (.boolean false)
  | 45 :: _ => afterNumber (cursor.advance.number false)
  | 34 :: _ =>
      match cursor.advance.string with
      | .ok (spelling, after) => fault (.text spelling) after
      | .error earlier => earlier
  | 91 :: _ => fault .sequence cursor
  | 123 :: _ => fault .map cursor
  | byte :: _ =>
      if Cursor.isDigit byte then afterNumber (cursor.number true)
      else cursor.faultNext .expectedValue

def atValue {Value : Type} (read : UInt8 → Cursor → Reading Value) (cursor : Cursor) :
    Reading Value :=
  let place := cursor.skipBlanks
  match place.rest with
  | [] => .error (place.fault .valueEnds)
  | byte :: _ => read byte place

def enter (depth : Nat) (cursor : Cursor) : Except Fault Nat :=
  match depth with
  | inner + 2 => .ok (inner + 1)
  | _ => .error (cursor.faultNext .tooDeep)

def text : Reader String := fun _ =>
  atValue fun byte place =>
    if byte = 34 then place.advance.string else .error (wrongType "a string" place)

def boolean : Reader Bool := fun _ =>
  atValue fun byte place =>
    if byte = 116 then (Cursor.nameRest restOfTrue place.advance).map fun after => (true, after)
    else if byte = 102 then
      (Cursor.nameRest restOfFalse place.advance).map fun after => (false, after)
    else .error (wrongType "a boolean" place)

def unit : Reader Unit := fun _ =>
  atValue fun byte place =>
    if byte = 110 then (Cursor.nameRest restOfNull place.advance).map fun after => ((), after)
    else .error (wrongType "unit" place)

def integer (low high : Int) (wanted : String) : Reader Int := fun _ =>
  atValue fun byte place =>
    if byte = 45 || Cursor.isDigit byte then
      let reading := if byte = 45 then place.advance.number false else place.number true
      match reading with
      | .error fault => .error fault
      | .ok (.integer value, after) =>
          if low ≤ value ∧ value ≤ high then .ok (value, after)
          else .error (after.fault (.invalidValue (.integer value) wanted))
      | .ok (.double value, after) => .error (after.fault (.invalidType (.double value) wanted))
      | .ok (_, after) => .error (after.fault .invalidNumber)
    else .error (wrongType wanted place)

def int64 : Reader Int := integer (-0x8000000000000000) 0x7fffffffffffffff "i64"

def map {Value Result : Type} (convert : Value → Result) (read : Reader Value) : Reader Result :=
  fun depth cursor => (read depth cursor).map fun (value, after) => (convert value, after)

def natural (limit : Nat) (wanted : String) : Reader Nat :=
  map Int.toNat (integer 0 (limit - 1) wanted)

def nat64 : Reader Nat := natural 0x10000000000000000 "u64"

def nat32 : Reader Nat := natural 0x100000000 "u32"

def byte : Reader UInt8 := map UInt8.ofNat (natural 256 "u8")

def optional {Value : Type} (read : Reader Value) : Reader (Option Value) := fun depth cursor =>
  let place := cursor.skipBlanks
  match place.rest with
  | 110 :: _ => (Cursor.nameRest restOfNull place.advance).map fun after => (none, after)
  | _ => (read depth place).map fun (value, after) => (some value, after)

/-! ### Arrays and objects -/

/-- Whether another item follows; the place is then in front of it, else at the closing bracket. -/
def nextItem (first : Bool) (cursor : Cursor) : Reading Bool :=
  let place := cursor.skipBlanks
  match place.rest with
  | [] => .error (place.fault .listEnds)
  | 93 :: _ => .ok (false, place)
  | byte :: _ =>
      if first then .ok (true, place)
      else if byte = 44 then
        let after := place.advance.skipBlanks
        match after.rest with
        | [] => .error (after.fault .valueEnds)
        | 93 :: _ => .error (after.faultNext .trailingComma)
        | _ => .ok (true, after)
      else .error (place.faultNext .expectedListMark)

/-- Whether another field follows; the place is then at the quote of its name, else at the closing
brace. -/
def nextField (first : Bool) (cursor : Cursor) : Reading Bool :=
  let place := cursor.skipBlanks
  match place.rest with
  | [] => .error (place.fault .objectEnds)
  | 125 :: _ => .ok (false, place)
  | byte :: _ =>
      if first then
        if byte = 34 then .ok (true, place) else .error (place.faultNext .keyNotText)
      else if byte = 44 then
        let after := place.advance.skipBlanks
        match after.rest with
        | [] => .error (after.fault .valueEnds)
        | 34 :: _ => .ok (true, after)
        | 125 :: _ => .error (after.faultNext .trailingComma)
        | _ => .error (after.faultNext .keyNotText)
      else .error (place.faultNext .expectedObjectMark)

def colon (cursor : Cursor) : Except Fault Cursor :=
  let place := cursor.skipBlanks
  match place.rest with
  | [] => .error (place.fault .objectEnds)
  | 58 :: _ => .ok place.advance
  | _ => .error (place.faultNext .expectedColon)

/-- The place after a closing bracket, and whether there was one; a comma is read with it. -/
def closeArray (cursor : Cursor) : Except Fault Cursor × Cursor :=
  let place := cursor.skipBlanks
  match place.rest with
  | [] => (.error (place.fault .listEnds), place)
  | 93 :: _ => (.ok place.advance, place.advance)
  | 44 :: _ =>
      let after := place.advance.skipBlanks
      match after.rest with
      | 93 :: _ => (.error (after.faultNext .trailingComma), after)
      | _ => (.error (after.faultNext .trailingCharacters), after)
  | _ => (.error (place.faultNext .trailingCharacters), place)

def closeObject (cursor : Cursor) : Except Fault Cursor × Cursor :=
  let place := cursor.skipBlanks
  match place.rest with
  | [] => (.error (place.fault .objectEnds), place)
  | 125 :: _ => (.ok place.advance, place.advance)
  | 44 :: _ => (.error (place.faultNext .trailingComma), place)
  | _ => (.error (place.faultNext .trailingCharacters), place)

/-- The items up to the closing bracket. Each round takes a byte at least, so that the number of
bytes left bounds the rounds. -/
def items {Value : Type} (read : Cursor → Reading Value) :
    Nat → Bool → Cursor → Reading (List Value)
  | 0, _, cursor => .error (cursor.fault .listEnds)
  | rounds + 1, first, cursor =>
      match nextItem first cursor with
      | .error fault => .error fault
      | .ok (false, place) => .ok ([], place)
      | .ok (true, place) =>
          match read place with
          | .error fault => .error fault
          | .ok (value, after) =>
              match items read rounds false after with
              | .error fault => .error fault
              | .ok (more, final) => .ok (value :: more, final)

def fieldName (cursor : Cursor) : Reading String :=
  cursor.advance.string

def entries {Value : Type} (read : Cursor → Reading Value) :
    Nat → Bool → Cursor → Reading (List (String × Value))
  | 0, _, cursor => .error (cursor.fault .objectEnds)
  | rounds + 1, first, cursor =>
      match nextField first cursor with
      | .error fault => .error fault
      | .ok (false, place) => .ok ([], place)
      | .ok (true, place) =>
          match fieldName place with
          | .error fault => .error fault
          | .ok (key, afterKey) =>
              match colon afterKey with
              | .error fault => .error fault
              | .ok afterColon =>
                  match read afterColon with
                  | .error fault => .error fault
                  | .ok (value, after) =>
                      match entries read rounds false after with
                      | .error fault => .error fault
                      | .ok (more, final) => .ok ((key, value) :: more, final)

def withClosing {Value : Type} (value : Value) (closing : Except Fault Cursor × Cursor) :
    Reading Value :=
  closing.1.map fun after => (value, after)

def list {Value : Type} (read : Reader Value) : Reader (List Value) := fun depth =>
  atValue fun byte place =>
    if byte = 91 then
      match enter depth place with
      | .error fault => .error fault
      | .ok inner =>
          match items (read inner) (place.rest.length + 1) true place.advance with
          | .error fault => .error fault
          | .ok (values, after) => withClosing values (closeArray after)
    else .error (wrongType "a sequence" place)

/-- Any value. In an object the last of several fields of one name counts. -/
def value : Reader Json
  | 0 => fun cursor => .error (cursor.faultNext .tooDeep)
  | depth + 1 =>
      atValue fun byte place =>
        if byte = 110 then
          (Cursor.nameRest restOfNull place.advance).map fun after => (.null, after)
        else if byte = 116 then
          (Cursor.nameRest restOfTrue place.advance).map fun after => (.boolean true, after)
        else if byte = 102 then
          (Cursor.nameRest restOfFalse place.advance).map fun after =>
            (.boolean false, after)
        else if byte = 45 then place.advance.number false
        else if Cursor.isDigit byte then place.number true
        else if byte = 34 then
          (place.advance.string).map fun (spelling, after) => (.text spelling, after)
        else if byte = 91 then
          if depth = 0 then .error (place.faultNext .tooDeep)
          else
            match items (value depth) (place.rest.length + 1) true place.advance with
            | .error fault => .error fault
            | .ok (values, after) => withClosing (.array values) (closeArray after)
        else if byte = 123 then
          if depth = 0 then .error (place.faultNext .tooDeep)
          else
            match entries (value depth) (place.rest.length + 1) true place.advance with
            | .error fault => .error fault
            | .ok (fields, after) =>
                withClosing
                  (.object (fields.foldl (fun held entry => insertField entry.1 entry.2 held) []))
                  (closeObject after)
        else .error (place.faultNext .expectedValue)

/-! ### Values that are passed over -/

def skipEscape (cursor : Cursor) : Except Fault Cursor :=
  match cursor.rest with
  | [] => .error (cursor.fault .stringEnds)
  | byte :: _ =>
      if byte = 117 then (cursor.advance.hexEscape).map (·.2)
      else if byte ∈ [34, 92, 47, 98, 102, 110, 114, 116] then .ok cursor.advance
      else .error (cursor.advance.fault .invalidEscape)

def skipString : Nat → Cursor → Except Fault Cursor
  | 0, cursor => .error (cursor.fault .stringEnds)
  | rounds + 1, cursor =>
      match cursor.rest with
      | [] => .error (cursor.fault .stringEnds)
      | 34 :: _ => .ok cursor.advance
      | 92 :: _ =>
          match skipEscape cursor.advance with
          | .error fault => .error fault
          | .ok after => skipString rounds after
      | byte :: _ =>
          if byte < 32 then .error (cursor.fault .controlCharacter)
          else skipString rounds cursor.advance

def skipDigits (cursor : Cursor) : Cursor :=
  cursor.advanceBy (cursor.rest.takeWhile Cursor.isDigit).length

def startsWithDigit (cursor : Cursor) : Bool :=
  match cursor.rest with
  | byte :: _ => Cursor.isDigit byte
  | [] => false

def skipExponent (cursor : Cursor) : Except Fault Cursor :=
  let afterLetter := cursor.advance
  let place :=
    match afterLetter.rest with
    | 43 :: _ | 45 :: _ => afterLetter.advance
    | _ => afterLetter
  if startsWithDigit place then .ok (skipDigits place)
  else .error (place.advance.fault .invalidNumber)

def skipFraction (cursor : Cursor) : Except Fault Cursor :=
  let place := cursor.advance
  if startsWithDigit place then
    let after := skipDigits place
    match after.rest with
    | 101 :: _ | 69 :: _ => skipExponent after
    | _ => .ok after
  else .error (place.faultNext .invalidNumber)

def skipNumber (cursor : Cursor) : Except Fault Cursor :=
  match cursor.rest with
  | 48 :: _ =>
      if startsWithDigit cursor.advance then .error (cursor.advance.faultNext .invalidNumber)
      else afterWhole cursor.advance
  | _ =>
      if startsWithDigit cursor then afterWhole (skipDigits cursor)
      else .error (cursor.advance.fault .invalidNumber)
where
  afterWhole (cursor : Cursor) : Except Fault Cursor :=
    match cursor.rest with
    | 46 :: _ => skipFraction cursor
    | 101 :: _ | 69 :: _ => skipExponent cursor
    | _ => .ok cursor

/-- Leaves closed brackets; the place is then in front of the next value, and the brackets still
open are given, or none if the outermost value ended. The flag tells whether an item came before. -/
def leave : Nat → Bool → List UInt8 → Cursor → Reading (List UInt8)
  | 0, _, _, cursor => .error (cursor.fault .valueEnds)
  | _ + 1, _, [], cursor => .ok ([], cursor)
  | rounds + 1, afterItem, bracket :: outer, cursor =>
      let place := cursor.skipBlanks
      let isArray := bracket = 91
      match place.rest with
      | [] => .error (place.fault (if isArray then .listEnds else .objectEnds))
      | byte :: _ =>
          if byte = 44 && afterItem then .ok (bracket :: outer, place.advance)
          else if byte = (if isArray then 93 else 125) then
            leave rounds true outer place.advance
          else if afterItem then
            .error (place.faultNext (if isArray then .expectedListMark else .expectedObjectMark))
          else .ok (bracket :: outer, place)

def skipName (rounds : Nat) (cursor : Cursor) : Except Fault Cursor :=
  let place := cursor.skipBlanks
  match place.rest with
  | [] => .error (place.fault .objectEnds)
  | 34 :: _ =>
      match skipString rounds place.advance with
      | .error fault => .error fault
      | .ok after => colon after
  | _ => .error (place.faultNext .keyNotText)

/-- Passes over values until the outermost one ends. Each round takes a byte at least, so that the
number of bytes left bounds the rounds, here and for what is passed over in a round. -/
def skipValues : Nat → List UInt8 → Cursor → Except Fault Cursor
  | 0, _, cursor => .error (cursor.fault .valueEnds)
  | rounds + 1, brackets, cursor =>
      let place := cursor.skipBlanks
      let goOn := fun (afterItem : Bool) (brackets : List UInt8) (after : Cursor) =>
        match leave (rounds + 1) afterItem brackets after with
        | .error fault => Except.error fault
        | .ok ([], final) => .ok final
        | .ok (bracket :: outer, next) =>
            if bracket = 123 then
              match skipName (rounds + 1) next with
              | .error fault => .error fault
              | .ok afterName => skipValues rounds (bracket :: outer) afterName
            else skipValues rounds (bracket :: outer) next
      let afterScalar := fun (reading : Except Fault Cursor) =>
        match reading with
        | .error fault => Except.error fault
        | .ok after => goOn true brackets after
      match place.rest with
      | [] => .error (place.fault .valueEnds)
      | byte :: _ =>
          if byte = 110 then afterScalar (Cursor.nameRest restOfNull place.advance)
          else if byte = 116 then afterScalar (Cursor.nameRest restOfTrue place.advance)
          else if byte = 102 then afterScalar (Cursor.nameRest restOfFalse place.advance)
          else if byte = 45 then afterScalar (skipNumber place.advance)
          else if Cursor.isDigit byte then afterScalar (skipNumber place)
          else if byte = 34 then afterScalar (skipString (rounds + 1) place.advance)
          else if byte = 91 || byte = 123 then goOn false (byte :: brackets) place.advance
          else .error (place.faultNext .expectedValue)

def skip (cursor : Cursor) : Except Fault Cursor :=
  skipValues (cursor.rest.length + 1) [] cursor

/-! ### Records and variants -/

/-- A field of a record under construction. A record may also be given as an array; a field that
such an array lacks is then taken from `whenShort`, or missed. -/
structure Field (Draft : Type) where
  name : String
  isSet : Draft → Bool
  read : Reader (Draft → Draft)
  whenShort : Option (Draft → Draft)

def field {Draft Value : Type} (name : String) (get : Draft → Option Value)
    (set : Draft → Value → Draft) (read : Reader Value) : Field Draft where
  name := name
  isSet := fun draft => (get draft).isSome
  read := map (fun value draft => set draft value) read
  whenShort := none

def required {Value : Type} (name : String) : Option Value → Except Cause Value
  | some value => .ok value
  | none => .error (.missingField name)

/-- What a reader of records knows of their type. -/
structure Shape (Draft Value : Type) where
  /-- How the type is named where one is wanted. -/
  wanted : String
  fields : List (Field Draft)
  blank : Draft
  finish : Draft → Except Cause Value
  allowsUnknown : Bool

namespace Shape

variable {Draft Value : Type}

def elementCount (shape : Shape Draft Value) : String :=
  let count := shape.fields.length
  shape.wanted ++ " with " ++ toString count ++ (if count = 1 then " element" else " elements")

def readFields (shape : Shape Draft Value) (depth : Nat) :
    Nat → Bool → Draft → Cursor → Reading Draft
  | 0, _, _, cursor => .error (cursor.fault .objectEnds)
  | rounds + 1, first, draft, cursor =>
      match nextField first cursor with
      | .error fault => .error fault
      | .ok (false, place) => .ok (draft, place)
      | .ok (true, place) =>
          match fieldName place with
          | .error fault => .error fault
          | .ok (key, afterKey) =>
              match shape.fields.find? fun field => field.name == key with
              | none =>
                  if shape.allowsUnknown then
                    match colon afterKey with
                    | .error fault => .error fault
                    | .ok afterColon =>
                        match skip afterColon with
                        | .error fault => .error fault
                        | .ok after => readFields shape depth rounds false draft after
                  else .error ((closeObject afterKey).2.fault (.unknownName key))
              | some field =>
                  if field.isSet draft then
                    .error ((closeObject afterKey).2.fault (.duplicateField key))
                  else
                    match colon afterKey with
                    | .error fault => .error fault
                    | .ok afterColon =>
                        match field.read depth afterColon with
                        | .error fault => .error fault
                        | .ok (change, after) =>
                            readFields shape depth rounds false (change draft) after

def readElements (shape : Shape Draft Value) (depth : Nat) :
    Nat → List (Field Draft) → Draft → Cursor → Reading Draft
  | _, [], draft, cursor => .ok (draft, cursor)
  | count, field :: rest, draft, cursor =>
      match nextItem (count == 0) cursor with
      | .error fault => .error fault
      | .ok (false, place) =>
          match field.whenShort with
          | some change => readElements shape depth count rest (change draft) place
          | none =>
              .error ((closeArray place).2.fault (.invalidLength count shape.elementCount))
      | .ok (true, place) =>
          match field.read depth place with
          | .error fault => .error fault
          | .ok (change, after) => readElements shape depth (count + 1) rest (change draft) after

def finishAt (shape : Shape Draft Value) (draft : Draft)
    (closing : Except Fault Cursor × Cursor) : Reading Value :=
  match shape.finish draft with
  | .error cause => .error (closing.2.fault cause)
  | .ok value => closing.1.map fun after => (value, after)

/-- Reads a record, as an object or as an array of its fields. -/
def reader (shape : Shape Draft Value) : Reader Value := fun depth =>
  atValue fun byte place =>
    if byte = 91 then
      match enter depth place with
      | .error fault => .error fault
      | .ok inner =>
          match readElements shape inner 0 shape.fields shape.blank place.advance with
          | .error fault => .error fault
          | .ok (draft, after) => shape.finishAt draft (closeArray after)
    else if byte = 123 then
      match enter depth place with
      | .error fault => .error fault
      | .ok inner =>
          match readFields shape inner (place.rest.length + 1) true shape.blank place.advance with
          | .error fault => .error fault
          | .ok (draft, after) => shape.finishAt draft (closeObject after)
    else .error (wrongType shape.wanted place)

end Shape

def parsed {Value : Type} (what : String) (parse : String → Option Value) : Reader Value :=
  fun depth cursor =>
    match text depth cursor with
    | .error fault => .error fault
    | .ok (spelling, after) =>
        match parse spelling with
        | some value => .ok (value, after)
        | none => .error (after.fault (.unreadable what))

/-- A variant without content: its name, or an object from its name to `null`. -/
def variant {Value : Type} (variants : List (String × Value)) : Reader Value := fun depth =>
  atValue fun byte place =>
    let choose := fun (reading : Reading String) =>
      match reading with
      | .error fault => Except.error fault
      | .ok (key, after) =>
          match variants.find? fun entry => entry.1 == key with
          | some entry => .ok (entry.2, after)
          | none => .error (after.fault (.unknownName key))
    if byte = 34 then choose (fieldName place)
    else if byte = 123 then
      match enter depth place with
      | .error fault => .error fault
      | .ok inner =>
          match choose (text inner place.advance) with
          | .error fault => .error fault
          | .ok (value, afterKey) =>
              match colon afterKey with
              | .error fault => .error fault
              | .ok afterColon =>
                  match unit inner afterColon with
                  | .error fault => .error fault
                  | .ok (_, after) => withClosing value (closeObject after)
    else .error (place.faultNext .expectedValue)

/-- A variant with content: an object from its name to the content. -/
def tagged {Value : Type} (variants : List (String × Reader Value)) : Reader Value := fun depth =>
  atValue fun byte place =>
    if byte = 123 then
      match enter depth place with
      | .error fault => .error fault
      | .ok inner =>
          match text inner place.advance with
          | .error fault => .error fault
          | .ok (key, afterKey) =>
              match variants.find? fun entry => entry.1 == key with
              | none => .error (afterKey.fault (.unknownName key))
              | some entry =>
                  match colon afterKey with
                  | .error fault => .error fault
                  | .ok afterColon =>
                      match entry.2 inner afterColon with
                      | .error fault => .error fault
                      | .ok (value, after) => withClosing value (closeObject after)
    else .error (place.faultNext .expectedValue)

/-- Reads a text that holds one value and nothing after it. -/
def run {Value : Type} (read : Reader Value) (bytes : Bytes) : Except Fault Value :=
  match read depthLimit (Cursor.start bytes) with
  | .error fault => .error fault
  | .ok (value, after) =>
      let final := after.skipBlanks
      match final.rest with
      | [] => .ok value
      | _ :: _ => .error (final.faultNext .trailingCharacters)

end Reader

def parse (bytes : Bytes) : Except Fault Json :=
  Reader.value.run bytes

end DurableJobs.Json
