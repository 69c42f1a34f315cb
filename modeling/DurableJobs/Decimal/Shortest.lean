import DurableJobs.Text.Digits

/-!
The shortest decimal that reads back as a given double.

A double is a whole number times a power of two, and the reals that round to it form an interval
around it, whose ends belong to it exactly if that whole number is even. For one digit, two digits
and so on the two neighbours of the value on that decimal grid are tested, in exact arithmetic: the
first grid with a neighbour inside the interval gives the digits, and of two the nearer one.
-/

set_option autoImplicit false

namespace DurableJobs.Decimal

/-- A positive double: `significand * 2 ^ exponent`. -/
structure Binary where
  significand : Nat
  exponent : Int
  /-- The value is the least of its binade, so that the gap below is half as wide. -/
  leastOfBinade : Bool

/-- A decimal: `digits * 10 ^ exponent`. -/
structure Scientific where
  digits : Nat
  exponent : Int
deriving DecidableEq

def Binary.ofBits (bits : Nat) : Binary :=
  let fraction : Nat := bits % 0x10000000000000
  let exponentField : Nat := bits / 0x10000000000000 % 0x800
  if exponentField = 0 then ⟨fraction, -1074, false⟩
  else ⟨fraction + 0x10000000000000, exponentField - 1075, fraction == 0 && exponentField != 1⟩

/-- The number of digits before the decimal point of `numerator / denominator`; for a value below
one, minus the number of zeros after the point. -/
def digitsBeforePoint (numerator denominator : Nat) : Int :=
  if denominator ≤ numerator then (Nat.toDigits 10 (numerator / denominator)).length
  else 1 - zeros 400 0
where
  zeros : Nat → Nat → Nat
    | 0, count => count
    | rounds + 1, count =>
        if denominator ≤ numerator * Nat.pow 10 count then count else zeros rounds (count + 1)

/-- A neighbour of the value on the grid of the multiples of `10 ^ exponent`, if one lies in the
interval of the reals that round to the value. -/
def Binary.onGrid? (binary : Binary) (exponent : Int) : Option Nat :=
  let quarter := binary.exponent - 2
  let up := Nat.pow 2 quarter.toNat * Nat.pow 10 (-exponent).toNat
  let unit := Nat.pow 2 (-quarter).toNat * Nat.pow 10 exponent.toNat
  let value := 4 * binary.significand * up
  let low := (4 * binary.significand - (if binary.leastOfBinade then 1 else 2)) * up
  let high := (4 * binary.significand + 2) * up
  let inside := fun (candidate : Nat) =>
    if binary.significand % 2 = 0 then low ≤ candidate * unit && candidate * unit ≤ high
    else low < candidate * unit && candidate * unit < high
  let below := value / unit
  let above := below + 1
  if inside below && inside above then
    let toBelow := value - below * unit
    let toAbove := above * unit - value
    some (if toBelow < toAbove || (toBelow = toAbove && below % 2 = 0) then below else above)
  else if inside below then some below
  else if inside above then some above
  else none

def stripZeros : Nat → Nat → Int → Scientific
  | 0, digits, exponent => ⟨digits, exponent⟩
  | rounds + 1, digits, exponent =>
      if digits != 0 && digits % 10 = 0 then stripZeros rounds (digits / 10) (exponent + 1)
      else ⟨digits, exponent⟩

def Binary.shortest (binary : Binary) : Scientific :=
  let point := digitsBeforePoint (binary.significand * Nat.pow 2 binary.exponent.toNat)
    (Nat.pow 2 (-binary.exponent).toNat)
  let found := (List.range 17).findSome? fun (more : Nat) =>
    let exponent := point - (more + 1 : Nat)
    (binary.onGrid? exponent).map fun digits => stripZeros 17 digits exponent
  found.getD ⟨0, 0⟩

/-- How a double is written: without an exponent from 10^-5 to below 10^16, with a digit after the
point in any case; otherwise in scientific notation with a signed exponent. -/
def doubleText (value : Float) : String :=
  let bits := value.toBits.toNat
  let sign := if 0x8000000000000000 ≤ bits then "-" else ""
  let magnitude := bits % 0x8000000000000000
  if magnitude = 0 then sign ++ "0.0"
  else
    let decimal := (Binary.ofBits magnitude).shortest
    let digits := Text.decimal decimal.digits
    let leading : Int := digits.length + decimal.exponent - 1
    let body :=
      if -5 ≤ leading ∧ leading ≤ 15 then
        if leading < 0 then
          '0' :: '.' :: List.replicate (-leading - 1).toNat '0' ++ digits
        else
          let whole := leading.toNat + 1
          if digits.length ≤ whole then
            digits ++ List.replicate (whole - digits.length) '0' ++ ['.', '0']
          else digits.take whole ++ '.' :: digits.drop whole
      else
        let fraction := if digits.length ≤ 1 then [] else '.' :: digits.drop 1
        digits.take 1 ++ fraction ++ 'e' :: (if leading < 0 then '-' else '+') ::
          Text.decimal leading.natAbs
    sign ++ String.ofList body

end DurableJobs.Decimal
