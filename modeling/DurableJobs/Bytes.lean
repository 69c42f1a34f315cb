/-!
Byte strings, and the texts they spell in UTF-8.

A payload is a list of bytes that only its executor understands; a text becomes bytes by its UTF-8
encoding, and bytes become a text exactly when they are well formed.
-/

set_option autoImplicit false

namespace DurableJobs

abbrev Bytes := List UInt8

namespace Bytes

/-- The UTF-8 encoding of a text. -/
def ofText (text : String) : Bytes :=
  text.toUTF8.data.toList

/-- The text that well-formed UTF-8 spells. -/
def toText? (bytes : Bytes) : Option String :=
  String.fromUTF8? bytes.toByteArray

def isContinuation (byte : UInt8) : Bool :=
  0x80 ≤ byte && byte ≤ 0xBF

/-- The length of the well-formed character that the bytes begin with. -/
def leadingCharacter? : Bytes → Option Nat
  | [] => none
  | first :: rest =>
      if first < 0x80 then some 1
      else if 0xC2 ≤ first && first ≤ 0xDF then
        match rest with
        | second :: _ => if isContinuation second then some 2 else none
        | [] => none
      else if 0xE0 ≤ first && first ≤ 0xEF then
        match rest with
        | second :: third :: _ =>
            let secondFits :=
              if first = 0xE0 then 0xA0 ≤ second && second ≤ 0xBF
              else if first = 0xED then 0x80 ≤ second && second ≤ 0x9F
              else isContinuation second
            if secondFits && isContinuation third then some 3 else none
        | _ => none
      else if 0xF0 ≤ first && first ≤ 0xF4 then
        match rest with
        | second :: third :: fourth :: _ =>
            let secondFits :=
              if first = 0xF0 then 0x90 ≤ second && second ≤ 0xBF
              else if first = 0xF4 then 0x80 ≤ second && second ≤ 0x8F
              else isContinuation second
            if secondFits && isContinuation third && isContinuation fourth then some 4 else none
        | _ => none
      else none

def wellFormedLengthWithin : Nat → Bytes → Nat
  | 0, _ => 0
  | rounds + 1, bytes =>
      match leadingCharacter? bytes with
      | some width => width + wellFormedLengthWithin rounds (bytes.drop width)
      | none => 0

def wellFormedLength (bytes : Bytes) : Nat :=
  wellFormedLengthWithin bytes.length bytes

theorem toText?_ofText (text : String) : toText? (ofText text) = some text := by
  have same : (ofText text).toByteArray = text.toUTF8 := by
    apply ByteArray.ext
    simp [ofText]
  rw [toText?, same]
  simp only [String.fromUTF8?, String.toUTF8_eq_toByteArray, dif_pos text.isValidUTF8]
  rfl

end Bytes

end DurableJobs
