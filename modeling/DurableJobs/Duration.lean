import DurableJobs.Text.Digits

/-!
Spans of time: whole nanoseconds, up to the last nanosecond before 2^64 seconds.

Arithmetic saturates at that upper end instead of overflowing.
-/

set_option autoImplicit false

namespace DurableJobs

structure Duration where
  nanos : Nat
  lt_limit : nanos < 0x10000000000000000 * 1000000000
deriving DecidableEq

namespace Duration

def longest : Duration := ⟨0x10000000000000000 * 1000000000 - 1, by decide⟩

/-- As many nanoseconds as fit. -/
def ofNanos (nanos : Nat) : Duration :=
  ⟨min nanos (0x10000000000000000 * 1000000000 - 1), by omega⟩

def ofMillis (millis : Nat) : Duration := ofNanos (millis * 1000000)

def ofSeconds (seconds : Nat) : Duration := ofNanos (seconds * 1000000000)

def ofParts? (seconds nanos : Nat) : Option Duration :=
  if fits : seconds * 1000000000 + nanos < 0x10000000000000000 * 1000000000 then
    some ⟨seconds * 1000000000 + nanos, fits⟩
  else none

def zero : Duration := ofNanos 0

def seconds (duration : Duration) : Nat := duration.nanos / 1000000000

def subsecNanos (duration : Duration) : Nat := duration.nanos % 1000000000

def millis (duration : Duration) : Nat := duration.nanos / 1000000

def isZero (duration : Duration) : Bool := duration.nanos == 0

instance : LE Duration := ⟨fun left right => left.nanos ≤ right.nanos⟩

instance : LT Duration := ⟨fun left right => left.nanos < right.nanos⟩

instance (left right : Duration) : Decidable (left ≤ right) :=
  inferInstanceAs (Decidable (left.nanos ≤ right.nanos))

instance (left right : Duration) : Decidable (left < right) :=
  inferInstanceAs (Decidable (left.nanos < right.nanos))

instance : Min Duration := ⟨fun left right => if left ≤ right then left else right⟩

def times (duration : Duration) (factor : Nat) : Duration :=
  ofNanos (duration.nanos * factor)

def add (left right : Duration) : Duration :=
  ofNanos (left.nanos + right.nanos)

def half (duration : Duration) : Duration :=
  ofNanos (duration.nanos / 2)

/-- The text of a duration: in the largest of the four units in which it is at least one, exactly,
without trailing zeros. -/
def text (duration : Duration) : String :=
  let inUnit := fun (width : Nat) (unit : String) =>
    String.ofList (Text.decimal (duration.nanos / Nat.pow 10 width) ++
      Text.fraction width (duration.nanos % Nat.pow 10 width)) ++ unit
  if 1000000000 ≤ duration.nanos then inUnit 9 "s"
  else if 1000000 ≤ duration.nanos then inUnit 6 "ms"
  else if 1000 ≤ duration.nanos then inUnit 3 "µs"
  else inUnit 0 "ns"

theorem eq_of_nanos_eq {left right : Duration} (same : left.nanos = right.nanos) :
    left = right := by
  cases left; cases right; simp_all

theorem nanos_ofNanos_of_lt {nanos : Nat} (fits : nanos < 0x10000000000000000 * 1000000000) :
    (ofNanos nanos).nanos = nanos := by
  simp only [ofNanos]; omega

theorem nanos_min (left right : Duration) :
    (min left right).nanos = min left.nanos right.nanos := by
  show (if left ≤ right then left else right).nanos = _
  split
  · next le => exact (Nat.min_eq_left le).symm
  · next notLe => exact (Nat.min_eq_right (Nat.le_of_not_le notLe)).symm

end Duration

end DurableJobs
