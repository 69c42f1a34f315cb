/-!
Numbers written in base ten.
-/

set_option autoImplicit false

namespace DurableJobs.Text

def decimal (value : Nat) : List Char :=
  Nat.toDigits 10 value

def padded (width value : Nat) : List Char :=
  let digits := decimal value
  List.replicate (width - digits.length) '0' ++ digits

def withoutTrailingZeros (digits : List Char) : List Char :=
  (digits.reverse.dropWhile (· == '0')).reverse

/-- The digits after a decimal point, led by the point; nothing for a whole number. -/
def fraction (width value : Nat) : List Char :=
  if value = 0 then [] else '.' :: withoutTrailingZeros (padded width value)

/-- The digits that the text begins with, at most `limit` of them: their value, their number, and
the rest of the text. -/
def leadingDigits (limit : Nat) (characters : List Char) : Nat × Nat × List Char :=
  let digits := (characters.take limit).takeWhile Char.isDigit
  (Nat.ofDigitChars 10 digits 0, digits.length, characters.drop digits.length)

end DurableJobs.Text
