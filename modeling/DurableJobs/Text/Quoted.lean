import DurableJobs.Text.Unprintable

/-!
The quoted form of a text, as messages show it: between double quotes, with the quote, the
backslash and the common controls escaped by a letter and every other unprintable character by its
code point.
-/

set_option autoImplicit false

namespace DurableJobs.Text

def lowerHex (value : Nat) : String :=
  String.ofList (Nat.toDigits 16 value)

def codePointEscape (character : Char) : List Char :=
  "\\u\x7b".toList ++ (lowerHex character.toNat).toList ++ ['\x7d']

def quotedCharacter (character : Char) : List Char :=
  match character with
  | '\x00' => ['\\', '0']
  | '\t' => ['\\', 't']
  | '\n' => ['\\', 'n']
  | '\r' => ['\\', 'r']
  | '"' => ['\\', '"']
  | '\\' => ['\\', '\\']
  | _ => if isUnprintable character then codePointEscape character else [character]

def quoted (text : String) : String :=
  String.ofList ('"' :: text.toList.flatMap quotedCharacter ++ ['"'])

end DurableJobs.Text
