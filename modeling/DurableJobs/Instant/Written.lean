import DurableJobs.Instant
import DurableJobs.Instant.Calendar
import DurableJobs.Text.Blank

/-!
The written form of an instant: date, `T`, time of day, `Z`.

Writing uses no fraction for a whole second and else the fewest of three, six or nine digits that
are exact; a year outside 0 to 9999 carries its sign. Reading is more generous: blanks around the
parts, single-digit months to seconds, a blank or `t` for the `T`, any fraction, and an offset from
universal time, which is subtracted. The sixtieth second of a minute is its leap second.
-/

set_option autoImplicit false

namespace DurableJobs.Instant

def yearText (year : Int) : List Char :=
  if 0 ≤ year ∧ year ≤ 9999 then Text.padded 4 year.toNat
  else (if year < 0 then '-' else '+') :: Text.padded 4 year.natAbs

def secondFraction (nanos : Nat) : List Char :=
  if nanos = 0 then []
  else if nanos % 1000000 = 0 then '.' :: Text.padded 3 (nanos / 1000000)
  else if nanos % 1000 = 0 then '.' :: Text.padded 6 (nanos / 1000)
  else '.' :: Text.padded 9 nanos

def written (instant : Instant) : String :=
  let date := Date.ofDays (instant.second / 86400)
  let secondOfDay := (instant.second % 86400).toNat
  let second := secondOfDay % 60 + instant.fraction / 1000000000
  String.ofList <|
    yearText date.year ++ '-' :: Text.padded 2 date.month ++ '-' :: Text.padded 2 date.day ++
      'T' :: Text.padded 2 (secondOfDay / 3600) ++ ':' :: Text.padded 2 (secondOfDay / 60 % 60) ++
      ':' :: Text.padded 2 second ++ secondFraction (instant.fraction % 1000000000) ++ ['Z']

/-- A number of one or more digits, at most `limit`, after blanks. -/
def readNumber? (limit : Nat) (characters : List Char) : Option (Nat × List Char) :=
  match Text.leadingDigits limit (Text.trimStart characters) with
  | (_, 0, _) => none
  | (value, _, rest) => some (value, rest)

/-- A year: four digits at most without a sign, any number of them after one. -/
def readYear? (characters : List Char) : Option (Int × List Char) :=
  match Text.trimStart characters with
  | '-' :: rest => signed (-1) rest
  | '+' :: rest => signed 1 rest
  | unsigned => (readNumber? 4 unsigned).map fun (value, rest) => ((value : Int), rest)
where
  signed (sign : Int) (characters : List Char) : Option (Int × List Char) :=
    match Text.leadingDigits characters.length characters with
    | (_, 0, _) => none
    | (value, _, rest) => some (sign * value, rest)

def readMark? (mark : Char) (characters : List Char) : Option (List Char) :=
  match Text.trimStart characters with
  | first :: rest => if first = mark then some rest else none
  | [] => none

/-- The fraction of a second in nanoseconds; digits after the ninth are skipped. -/
def readFraction? (characters : List Char) : Option (Nat × List Char) :=
  match characters with
  | '.' :: digits =>
      match Text.leadingDigits 9 digits with
      | (_, 0, _) => none
      | (value, count, rest) => some (value * Nat.pow 10 (9 - count), rest.dropWhile Char.isDigit)
  | _ => some (0, characters)

def isOffsetGap (character : Char) : Bool :=
  character = ':' || Text.isBlank character

def readTwoDigits? (characters : List Char) : Option (Nat × List Char) :=
  match Text.leadingDigits 2 characters with
  | (value, 2, rest) => some (value, rest)
  | _ => none

def readOffset? (characters : List Char) : Option (Int × List Char) :=
  match Text.trimStart characters with
  | 'Z' :: rest => some (0, rest)
  | 'z' :: rest => some (0, rest)
  | first :: rest =>
      if (first = 'U' || first = 'u') then
        match rest with
        | second :: third :: after =>
            if (second = 'T' || second = 't') && (third = 'C' || third = 'c') then some (0, after)
            else none
        | _ => none
      else if first = '+' then signed 1 rest
      else if first = '-' || first = '\u2212' then signed (-1) rest
      else none
  | [] => none
where
  signed (sign : Int) (characters : List Char) : Option (Int × List Char) :=
    match readTwoDigits? characters with
    | none => none
    | some (hours, rest) =>
        match readTwoDigits? (rest.dropWhile isOffsetGap) with
        | none => none
        | some (minutes, rest) =>
            if hours < 24 ∧ minutes < 60 then
              some (sign * (hours * 3600 + minutes * 60 : Nat), rest)
            else none

def ofWritten? (text : String) : Option Instant := do
  let (year, rest) ← readYear? text.toList
  let rest ← readMark? '-' rest
  let (month, rest) ← readNumber? 2 rest
  let rest ← readMark? '-' rest
  let (day, rest) ← readNumber? 2 rest
  let date : Date := ⟨year, month, day⟩
  let rest ← match rest with
    | first :: rest => if first = 'T' || first = 't' || first = ' ' then some rest else none
    | [] => none
  let (hour, rest) ← readNumber? 2 rest
  let rest ← readMark? ':' rest
  let (minute, rest) ← readNumber? 2 rest
  let rest ← readMark? ':' rest
  let (second, rest) ← readNumber? 2 rest
  let (nanos, rest) ← readFraction? rest
  let (offset, rest) ← readOffset? rest
  let secondOfDay : Nat := hour * 3600 + minute * 60 + min second 59
  if date.isValid && -262143 ≤ year && year ≤ 262142 && hour < 24 && minute < 60 && second ≤ 60 &&
      (Text.trimStart rest).isEmpty then
    ofParts? (date.days * 86400 + secondOfDay - offset)
      (if second = 60 then 1000000000 + nanos else nanos)
  else none

end DurableJobs.Instant
