/-!
Universally unique identifiers: 128-bit values.

An identifier is written in one way, as lower-case digits in groups of 8, 4, 4, 4 and 12, and read
in four: 32 digits, the grouped form, the grouped form in braces, and the grouped form after
`urn:uuid:`. The digits and the letters of `urn:uuid:` may be of either case, each on its own.
-/

set_option autoImplicit false

namespace DurableJobs

structure Uuid where
  value : Nat
  lt_limit : value < 0x100000000000000000000000000000000
deriving DecidableEq

namespace Uuid

def zero : Uuid := ⟨0, by decide⟩

/-- The identifier whose value is the number modulo 2^128. -/
def ofNat (value : Nat) : Uuid :=
  ⟨value % 0x100000000000000000000000000000000, Nat.mod_lt _ (by decide)⟩

def digits (id : Uuid) : List Nat :=
  (List.range 32).map fun place => id.value / Nat.pow 16 (31 - place) % 16

def digitCharacter (digit : Nat) : Char :=
  if digit < 10 then Char.ofNat (48 + digit) else Char.ofNat (87 + digit)

def digitValue? (character : Char) : Option Nat :=
  if '0' ≤ character ∧ character ≤ '9' then some (character.toNat - 48)
  else if 'a' ≤ character ∧ character ≤ 'f' then some (character.toNat - 87)
  else if 'A' ≤ character ∧ character ≤ 'F' then some (character.toNat - 55)
  else none

/-- The characters in groups of 8, 4, 4, 4 and 12, with hyphens between. -/
def grouped (characters : List Char) : List Char :=
  characters.take 8 ++ '-' :: (characters.drop 8).take 4 ++ '-' :: (characters.drop 12).take 4 ++
    '-' :: (characters.drop 16).take 4 ++ '-' :: characters.drop 20

def ungrouped? (characters : List Char) : Option (List Char) :=
  if characters.length = 36 ∧ characters[8]? = some '-' ∧ characters[13]? = some '-' ∧
      characters[18]? = some '-' ∧ characters[23]? = some '-' then
    some (characters.take 8 ++ (characters.drop 9).take 4 ++ (characters.drop 14).take 4 ++
      (characters.drop 19).take 4 ++ characters.drop 24)
  else none

def text (id : Uuid) : String :=
  String.ofList (grouped (id.digits.map digitCharacter))

def ofDigits? (characters : List Char) : Option Uuid := do
  let digits ← characters.mapM digitValue?
  if digits.length = 32 then
    some (ofNat (digits.foldl (fun value digit => value * 16 + digit) 0))
  else none

def urnScheme : List Char :=
  "urn:uuid:".toList

def ofText? (text : String) : Option Uuid :=
  let characters := text.toList
  match characters.length with
  | 32 => ofDigits? characters
  | 36 => (ungrouped? characters).bind ofDigits?
  | 38 =>
      if characters.head? = some '{' ∧ characters.getLast? = some '}' then
        (ungrouped? ((characters.drop 1).take 36)).bind ofDigits?
      else none
  | 45 =>
      if (characters.take 9).map Char.toLower = urnScheme then
        (ungrouped? (characters.drop 9)).bind ofDigits?
      else none
  | _ => none

end Uuid

end DurableJobs
