import DurableJobs.Proofs.Instant
import DurableJobs.Retry

/-!
How long a backoff waits.

An exponential backoff waits for its base after the first failure and twice as long after every
further one, but never longer than its maximum. It stops doubling after 32 failures, whether or not
it has come to the maximum by then. A jittered delay is at least half as long and never longer, and
nothing on the way to it is too great for its word or for a duration.
-/

set_option autoImplicit false

namespace DurableJobs

namespace Duration

theorem nanos_times (duration : Duration) (factor : Nat) :
    (duration.times factor).nanos = min (duration.nanos * factor) longest.nanos := rfl

theorem nanos_half (duration : Duration) : duration.half.nanos = duration.nanos / 2 :=
  nanos_ofNanos_of_lt (Nat.lt_of_le_of_lt (Nat.div_le_self _ _) duration.lt_limit)

theorem half_le (duration : Duration) : duration.half ≤ duration :=
  Nat.le_trans (Nat.le_of_eq duration.nanos_half) (Nat.div_le_self _ _)

def ofMillis? (millis : Nat) : Option Duration :=
  if millis ≤ 0xffffffffffffffff then ofNanos? (millis * 1000000) else none

def add? (left right : Duration) : Option Duration := ofNanos? (left.nanos + right.nanos)

def sub? (left right : Duration) : Option Duration :=
  if right ≤ left then ofNanos? (left.nanos - right.nanos) else none

theorem le_add (left right : Duration) : left ≤ left.add right :=
  Nat.le_min.mpr ⟨Nat.le_add_right _ _, Nat.le_sub_one_of_lt left.lt_limit⟩

theorem ofMillis?_of_le {millis : Nat} (fits : millis ≤ 0xffffffffffffffff) :
    ofMillis? millis = some (ofMillis millis) := by
  have longest : longest.nanos = 0x10000000000000000 * 1000000000 - 1 := rfl
  rw [ofMillis?, if_pos fits, ofNanos?_of_le (by omega), ofMillis]

theorem add?_of_le {left right total : Duration} (fits : left.nanos + right.nanos ≤ total.nanos) :
    left.add? right = some (left.add right) := by
  have limit : total.nanos ≤ longest.nanos := Nat.le_sub_one_of_lt total.lt_limit
  rw [add?, ofNanos?_of_le (by omega), add]

theorem sub?_of_le {left right : Duration} (le : right ≤ left) :
    left.sub? right = some (ofNanos (left.nanos - right.nanos)) := by
  have limit : left.nanos ≤ longest.nanos := Nat.le_sub_one_of_lt left.lt_limit
  rw [sub?, if_pos le, ofNanos?_of_le (by omega)]

end Duration

namespace Backoff

variable (base max : Duration) (failures : Nat)

/-- The limit of a duration never cuts off what the maximum would leave. -/
theorem nanos_fullDelay (jitter : Bool) :
    ((exponential base max jitter).fullDelay failures).nanos =
      min (base.nanos * Nat.pow 2 (doublings failures)) max.nanos := by
  have fits : max.nanos ≤ Duration.longest.nanos := Nat.le_sub_one_of_lt max.lt_limit
  rw [fullDelay, Duration.nanos_min, Duration.nanos_times, Nat.min_assoc, Nat.min_eq_right fits]

theorem delayFor_of_unjittered (draw : Nat) :
    (exponential base max false).delayFor failures draw =
      (exponential base max false).fullDelay failures := rfl

/-- The delay doubles with every failure up to the maximum, if and only if there are no more than 32
failures, nothing to double, or a maximum that 31 doublings come to. -/
theorem doubles_iff (draw : Nat) :
    ((exponential base max false).delayFor failures draw).nanos =
        min (base.nanos * Nat.pow 2 (failures - 1)) max.nanos ↔
      failures ≤ 32 ∨ base.nanos = 0 ∨ max.nanos ≤ base.nanos * Nat.pow 2 31 := by
  rw [delayFor_of_unjittered, nanos_fullDelay]
  by_cases few : failures ≤ 32
  · have all : doublings failures = failures - 1 := Nat.min_eq_left (by omega)
    simp only [all, few, true_or]
  · have stopped : doublings failures = 31 := Nat.min_eq_right (by omega)
    have fewer : Nat.pow 2 31 < Nat.pow 2 (failures - 1) :=
      Nat.pow_lt_pow_right (by decide) (by omega)
    rw [stopped]
    simp only [few, false_or]
    constructor
    · intro same
      rcases Nat.eq_zero_or_pos base.nanos with none | positive
      · exact .inl none
      · have shorter : base.nanos * Nat.pow 2 31 < base.nanos * Nat.pow 2 (failures - 1) :=
          Nat.mul_lt_mul_of_pos_left fewer positive
        omega
    · rintro (none | reached)
      · rw [none, Nat.zero_mul, Nat.zero_mul]
      · have further : max.nanos ≤ base.nanos * Nat.pow 2 (failures - 1) :=
          Nat.le_trans reached (Nat.mul_le_mul_left base.nanos (Nat.le_of_lt fewer))
        rw [Nat.min_eq_right reached, Nat.min_eq_right further]

/-- A backoff from a millisecond to a hundred days waits for 25 days after the 33rd failure, as it
does after the one before. -/
theorem doubling_stops_short :
    ∃ (base max : Duration) (failures : Nat), 1 ≤ failures ∧ failures ≤ 0xffffffff ∧
      ∀ draw, ((exponential base max false).delayFor failures draw).nanos ≠
        min (base.nanos * Nat.pow 2 (failures - 1)) max.nanos := by
  refine ⟨Duration.ofMillis 1, Duration.ofSeconds 8640000, 33, by decide, by decide, ?_⟩
  intro draw
  rw [delayFor_of_unjittered]
  decide

/-! ### Bounds -/

theorem fullDelay_le_max (jitter : Bool) :
    (exponential base max jitter).fullDelay failures ≤ max :=
  Duration.min_le_right _ _

theorem min_le_fullDelay (jitter : Bool) :
    min base max ≤ (exponential base max jitter).fullDelay failures := by
  have once : base.nanos ≤ base.nanos * Nat.pow 2 (doublings failures) :=
    Nat.le_mul_of_pos_right _ (Nat.pow_pos (by decide))
  show (min base max).nanos ≤ _
  rw [nanos_fullDelay, Duration.nanos_min]
  omega

theorem fullDelay_le_fullDelay {failures more : Nat} (le : failures ≤ more) (jitter : Bool) :
    (exponential base max jitter).fullDelay failures ≤
      (exponential base max jitter).fullDelay more := by
  have oftener : doublings failures ≤ doublings more := by
    simp only [doublings]
    omega
  have longer : base.nanos * Nat.pow 2 (doublings failures) ≤
      base.nanos * Nat.pow 2 (doublings more) :=
    Nat.mul_le_mul_left _ (Nat.pow_le_pow_right (by decide) oftener)
  show Duration.nanos _ ≤ Duration.nanos _
  rw [nanos_fullDelay, nanos_fullDelay]
  omega

/-- However much is drawn, it fits into the upper half. -/
theorem half_add_drawn_le (full : Duration) (draw : Nat) :
    full.half.nanos + (Duration.ofMillis (min draw (spread full))).nanos ≤ full.nanos := by
  have few : min draw (spread full) ≤ (Duration.ofNanos (full.nanos - full.half.nanos)).millis :=
    Nat.le_trans (Nat.min_le_right _ _) (Nat.min_le_left _ _)
  have drawn : (Duration.ofMillis (min draw (spread full))).nanos ≤
      full.nanos - full.half.nanos := by
    calc (Duration.ofMillis (min draw (spread full))).nanos
        ≤ min draw (spread full) * 1000000 := Nat.min_le_left _ _
      _ ≤ (Duration.ofNanos (full.nanos - full.half.nanos)).millis * 1000000 :=
          Nat.mul_le_mul_right _ few
      _ ≤ (Duration.ofNanos (full.nanos - full.half.nanos)).nanos := Nat.div_mul_le_self _ _
      _ ≤ full.nanos - full.half.nanos := Nat.min_le_left _ _
  have half : full.half.nanos ≤ full.nanos := full.half_le
  omega

theorem delayFor_within (backoff : Backoff) (failures draw : Nat) :
    (backoff.fullDelay failures).nanos / 2 ≤ (backoff.delayFor failures draw).nanos ∧
      backoff.delayFor failures draw ≤ backoff.fullDelay failures := by
  cases isDrawn : backoff.isDrawn failures with
  | false =>
      have full : backoff.delayFor failures draw = backoff.fullDelay failures := by
        simp only [delayFor, isDrawn, Bool.false_eq_true, if_false]
      rw [full]
      exact ⟨Nat.div_le_self _ _, Nat.le_refl _⟩
  | true =>
      have jittered : backoff.delayFor failures draw = (backoff.fullDelay failures).half.add
          (.ofMillis (min draw (spread (backoff.fullDelay failures)))) := by
        simp only [delayFor, isDrawn, if_true]
      rw [jittered, ← Duration.nanos_half]
      exact ⟨Duration.le_add _ _, Nat.le_trans (Nat.min_le_left _ _) (half_add_drawn_le _ draw)⟩

/-! ### Without overflow

Two to the power of the doublings is a word of 32 bits, and the milliseconds that are drawn are one
of 64.
-/

def powerOfTwo? (exponent : Nat) : Option Nat :=
  if exponent < 32 then some (Nat.pow 2 exponent) else none

/-- A draw from the upper half of a delay. -/
def jittered? (full : Duration) (draw : Nat) : Option Duration := do
  let upper ← full.sub? full.half
  let drawn ← Duration.ofMillis? (min draw (min upper.millis 0xffffffffffffffff))
  full.half.add? drawn

/-- The delay, if nothing on the way to it overflows. To multiply the base saturates. -/
def delayFor? (backoff : Backoff) (failures draw : Nat) : Option Duration :=
  match backoff with
  | .fixed delay => some delay
  | .exponential base max jitter => do
      let factor ← powerOfTwo? (doublings failures)
      let full := min (base.times factor) max
      if jitter && !full.isZero then jittered? full draw else some full

theorem jittered?_eq (full : Duration) (draw : Nat) :
    jittered? full draw = some (full.half.add (.ofMillis (min draw (spread full)))) := by
  have few : min draw (spread full) ≤ 0xffffffffffffffff :=
    Nat.le_trans (Nat.min_le_right _ _) (Nat.min_le_right _ _)
  rw [jittered?, Duration.sub?_of_le full.half_le, Option.bind_eq_bind, Option.bind_some, ← spread,
    Duration.ofMillis?_of_le few, Option.bind_some,
    Duration.add?_of_le (half_add_drawn_le full draw)]

theorem delayFor?_eq (backoff : Backoff) (failures draw : Nat) :
    backoff.delayFor? failures draw = some (backoff.delayFor failures draw) := by
  cases backoff with
  | fixed delay => rfl
  | exponential base max jitter =>
      have factor : powerOfTwo? (doublings failures) = some (Nat.pow 2 (doublings failures)) :=
        if_pos (Nat.lt_of_le_of_lt (Nat.min_le_right _ _) (by decide))
      simp only [delayFor?, factor, Option.bind_eq_bind, Option.bind_some, jittered?_eq, delayFor,
        isDrawn, fullDelay]
      exact (apply_ite some _ _ _).symm

/-! ### What a delay is like -/

/-- How long the delay without jitter is, and what jitter makes of it. -/
structure Bounded (base max : Duration) (failures : Nat) (full : Duration) : Prop where
  computed : ∀ jitter draw, (exponential base max jitter).delayFor? failures draw =
    some ((exponential base max jitter).delayFor failures draw)
  least : min base max ≤ full
  most : full ≤ max
  growing : ∀ more draw, failures ≤ more →
    full ≤ (exponential base max false).delayFor more draw
  jittered : ∀ draw,
    full.nanos / 2 ≤ ((exponential base max true).delayFor failures draw).nanos ∧
      (exponential base max true).delayFor failures draw ≤ full
  retried : ∀ (draw : Nat) (now : Instant),
    now.after ((exponential base max true).delayFor failures draw) ≤ now.after max

/-- No delay overflows or is longer than the maximum, and jitter takes at most half of it away. -/
theorem delays_bounded (draw : Nat) :
    Bounded base max failures ((exponential base max false).delayFor failures draw) := by
  rw [delayFor_of_unjittered]
  refine
    { computed := fun jitter => delayFor?_eq _ failures
      least := min_le_fullDelay base max failures false
      most := fullDelay_le_max base max failures false
      growing := fun _ _ more => fullDelay_le_fullDelay base max more false
      jittered := delayFor_within (exponential base max true) failures
      retried := ?_ }
  intro draw now
  refine Instant.after_le_after (Int.le_refl _) ?_
  exact Nat.le_trans (delayFor_within _ failures draw).2 (fullDelay_le_max base max failures true)

end Backoff

end DurableJobs
