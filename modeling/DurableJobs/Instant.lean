import DurableJobs.Duration

/-!
Instants of universal time.

An instant is a second since the start of 1970, from the first one of the year -262143 to the last
one of 262142, and the nanoseconds gone by in it. The last second of a minute may be followed by a
leap second, whose nanoseconds are counted on in it from 10^9; so the leap second comes before the
next second, though it has the same count of nanoseconds since the start of 1970. Clocks and the
store know no leap seconds. The store keeps whole milliseconds, so an instant is written there
rounded down.
-/

set_option autoImplicit false

namespace DurableJobs

structure Instant where
  second : Int
  fraction : Nat
  min_le : -8334601228800 ≤ second
  le_max : second ≤ 8210266876799
  fraction_lt : fraction < 1000000000 ∨ (second % 60 = 59 ∧ fraction < 2000000000)
deriving DecidableEq

namespace Instant

def ofParts? (second : Int) (fraction : Nat) : Option Instant :=
  if fits : (-8334601228800 ≤ second ∧ second ≤ 8210266876799) ∧
      (fraction < 1000000000 ∨ (second % 60 = 59 ∧ fraction < 2000000000)) then
    some ⟨second, fraction, fits.1.1, fits.1.2, fits.2⟩
  else none

/-- The instant a number of nanoseconds after the start of 1970, outside of leap seconds. -/
def ofNanos? (nanos : Int) : Option Instant :=
  ofParts? (nanos / 1000000000) (nanos % 1000000000).toNat

def ofMillis? (millis : Int) : Option Instant :=
  ofNanos? (millis * 1000000)

/-- The last representable instant outside of leap seconds. -/
def latest : Instant := ⟨8210266876799, 999999999, by decide, by decide, .inl (by decide)⟩

def epoch : Instant := ⟨0, 0, by decide, by decide, .inl (by decide)⟩

def isLeap (instant : Instant) : Bool := 1000000000 ≤ instant.fraction

def nanos (instant : Instant) : Int := instant.second * 1000000000 + instant.fraction

def millis (instant : Instant) : Int := instant.nanos / 1000000

instance : LE Instant :=
  ⟨fun left right =>
    left.second < right.second ∨ (left.second = right.second ∧ left.fraction ≤ right.fraction)⟩

instance : LT Instant :=
  ⟨fun left right =>
    left.second < right.second ∨ (left.second = right.second ∧ left.fraction < right.fraction)⟩

instance (left right : Instant) : Decidable (left ≤ right) :=
  inferInstanceAs (Decidable (left.second < right.second ∨
    (left.second = right.second ∧ left.fraction ≤ right.fraction)))

instance (left right : Instant) : Decidable (left < right) :=
  inferInstanceAs (Decidable (left.second < right.second ∨
    (left.second = right.second ∧ left.fraction < right.fraction)))

/-- The instant a delay later, the delay taken in whole milliseconds; the last instant if there is
no later one. -/
def after (start : Instant) (delay : Duration) : Instant :=
  (ofNanos? (start.nanos + delay.millis * 1000000)).getD latest

/-- The time left until an instant, zero once it has passed. -/
def timeLeft (instant now : Instant) : Duration :=
  Duration.ofNanos (instant.nanos - now.nanos).toNat

theorem ofParts?_of_instant (instant : Instant) :
    ofParts? instant.second instant.fraction = some instant := by
  rw [ofParts?, dif_pos ⟨⟨instant.min_le, instant.le_max⟩, instant.fraction_lt⟩]

theorem ofNanos?_nanos {instant : Instant} (regular : instant.isLeap = false) :
    ofNanos? instant.nanos = some instant := by
  have small : instant.fraction < 1000000000 := by
    simpa [isLeap] using regular
  have seconds : instant.nanos / 1000000000 = instant.second := by
    simp only [nanos]; omega
  have fractions : (instant.nanos % 1000000000).toNat = instant.fraction := by
    simp only [nanos]; omega
  rw [ofNanos?, seconds, fractions, ofParts?_of_instant]

theorem ofMillis?_millis_of_whole {instant : Instant} (regular : instant.isLeap = false)
    (whole : instant.nanos % 1000000 = 0) : ofMillis? instant.millis = some instant := by
  have same : instant.millis * 1000000 = instant.nanos := by
    simp only [millis]; omega
  rw [ofMillis?, same, ofNanos?_nanos regular]

theorem millis_le_millis {left right : Instant} (regular : left.isLeap = false)
    (le : left ≤ right) : left.millis ≤ right.millis := by
  have small : left.fraction < 1000000000 := by
    simpa [isLeap] using regular
  have order : left.second < right.second ∨
      (left.second = right.second ∧ left.fraction ≤ right.fraction) := le
  simp only [millis, nanos]; omega

end Instant

end DurableJobs
