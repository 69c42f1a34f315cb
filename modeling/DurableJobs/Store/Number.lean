import DurableJobs.Bytes

/-!
Numbers as the store counts with them, and the numerals that spell them.

A number is an integer of 64 bits or a double. A numeral is a sign, digits with or without a point,
and an exponent of ten, with blanks around it; it spells an integer if it has neither point nor
exponent and the integer fits, and else the nearest double. Arithmetic takes a text for the longest
numeral that it begins with.
-/

set_option autoImplicit false

namespace DurableJobs.Store

/-- A double, counted in the least positive one, of which all doubles are multiples. Numbers beyond
all doubles are taken for 2^1024. -/
structure Double where
  units : Int
deriving DecidableEq

namespace Double

def one : Nat := Nat.pow 2 1074

/-- The double nearest to a quotient; of two, the one with an even significand of 53 bits. -/
def nearest (isNegative : Bool) (numerator denominator : Nat) : Double :=
  let exact := numerator * one
  let spareBits := (exact / denominator).log2 - 52
  let step := Nat.pow 2 spareBits
  let count := exact / (step * denominator)
  let rest := exact % (step * denominator)
  let goesDown := 2 * rest < step * denominator || (2 * rest = step * denominator && count % 2 = 0)
  let rounded := (if goesDown then count else count + 1) * step
  let magnitude : Int := min rounded (Nat.pow 2 1024 * one)
  ⟨if isNegative then -magnitude else magnitude⟩

def ofInt (value : Int) : Double :=
  nearest (value < 0) value.natAbs 1

def increment (double : Double) : Double :=
  let sum := double.units + one
  nearest (sum < 0) sum.natAbs one

def toFloat (double : Double) : Float :=
  let spareBits := double.units.natAbs.log2 - 52
  let magnitude := (double.units.natAbs / Nat.pow 2 spareBits).toFloat.scaleB (spareBits - 1074)
  if double.units < 0 then -magnitude else magnitude

end Double

inductive Number where
  | integer (value : Int)
  | double (value : Double)
deriving DecidableEq

/-! ### Numerals -/

def isInt64 (value : Int) : Bool :=
  -0x8000000000000000 ≤ value && value < 0x8000000000000000

/-- The parts of the numeral that a text begins with. -/
structure Numeral where
  isNegative : Bool
  whole : List UInt8
  decimals : Option (List UInt8)
  /-- The sign of the exponent and its digits, if there is a mark for one. -/
  exponent : Option (Bool × List UInt8)
  isAll : Bool

namespace Numeral

def isPad (byte : UInt8) : Bool :=
  byte = 32 || (9 ≤ byte && byte ≤ 13)

def isDigit (byte : UInt8) : Bool :=
  48 ≤ byte && byte ≤ 57

/-- A sign, if there is one, and what follows: 43 is the plus and 45 the minus. -/
def sign : Bytes → Bool × Bytes
  | 45 :: rest => (true, rest)
  | 43 :: rest => (false, rest)
  | rest => (false, rest)

/-- Reads the parts in order: 46 is the point, and 69 and 101 are the marks of an exponent. -/
def ofBytes (bytes : Bytes) : Numeral :=
  let (isNegative, unsigned) := sign (bytes.dropWhile isPad)
  let whole := unsigned.takeWhile isDigit
  let (decimals, afterDecimals) :=
    match unsigned.dropWhile isDigit with
    | 46 :: rest => (some (rest.takeWhile isDigit), rest.dropWhile isDigit)
    | rest => (none, rest)
  let (exponent, afterExponent) :=
    match afterDecimals with
    | 69 :: rest | 101 :: rest =>
        let (isDown, digits) := sign rest
        (some (isDown, digits.takeWhile isDigit), digits.dropWhile isDigit)
    | rest => (none, rest)
  { isNegative, whole, decimals, exponent, isAll := afterExponent.all isPad }

def hasDigits (numeral : Numeral) : Bool :=
  !numeral.whole.isEmpty || numeral.decimals.any fun digits => !digits.isEmpty

def hasSoundExponent (numeral : Numeral) : Bool :=
  numeral.exponent.all fun exponent => !exponent.2.isEmpty

def isInteger (numeral : Numeral) : Bool :=
  numeral.decimals.isNone && numeral.exponent.isNone

def integer (numeral : Numeral) : Int :=
  let magnitude : Int := numeral.whole.foldl (fun value digit => value * 10 + (digit.toNat - 48)) 0
  if numeral.isNegative then -magnitude else magnitude

/-- Appends digits to a significand as long as it is small; the second count is of the digits that
were left out. -/
def appendDigits (significand : Nat) (digits : List UInt8) : Nat × Nat :=
  digits.foldl
    (fun (value, left) digit =>
      if value < 1844674407370955160 then (value * 10 + (digit.toNat - 48), left)
      else (value, left + 1))
    (significand, 0)

/-- The exponent of ten; one of more than five digits counts as 10000. -/
def exponentValue (numeral : Numeral) : Int :=
  match numeral.exponent with
  | none => 0
  | some (isDown, digits) =>
      let magnitude : Nat := digits.foldl
        (fun value digit => if value < 10000 then value * 10 + (digit.toNat - 48) else 10000) 0
      if isDown then -(magnitude : Int) else magnitude

def double (numeral : Numeral) : Double :=
  let decimals := numeral.decimals.getD []
  let (significand, leftOfWhole) := appendDigits 0 numeral.whole
  let (significand, leftOfDecimals) := appendDigits significand decimals
  let scale : Int :=
    leftOfWhole + leftOfDecimals - decimals.length + numeral.exponentValue
  Double.nearest numeral.isNegative (significand * Nat.pow 10 scale.toNat)
    (Nat.pow 10 (-scale).toNat)

def number? (numeral : Numeral) : Option Number :=
  if numeral.isAll && numeral.hasDigits && numeral.hasSoundExponent then
    if numeral.isInteger && isInt64 numeral.integer then some (.integer numeral.integer)
    else some (.double numeral.double)
  else none

/-- The number that arithmetic takes the text for. An exponent without digits ends the numeral
before it, unless there was a point; a text without digits is taken for zero. -/
def leadingNumber (numeral : Numeral) : Number :=
  let isDouble := numeral.hasDigits &&
    (numeral.decimals.isSome || (numeral.exponent.isSome && numeral.hasSoundExponent))
  if isDouble || !isInt64 numeral.integer then .double numeral.double
  else .integer numeral.integer

end Numeral

namespace Number

def increment : Number → Number
  | .integer value =>
      if isInt64 (value + 1) then .integer (value + 1) else .double (Double.ofInt value).increment
  | .double value => .double value.increment

/-- The number as an integer, if it is one and strictly between the least and the largest. -/
def normalized : Number → Number
  | .integer value => .integer value
  | .double value =>
      let whole := value.units / Double.one
      if value.units % Double.one = 0 && -0x8000000000000000 < whole && whole < 0x7fffffffffffffff
      then .integer whole
      else .double value

end Number

end DurableJobs.Store
