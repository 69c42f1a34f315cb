import DurableJobs.Duration

/-!
When a failed execution is tried again.

The delay is fixed, or it doubles with every failure up to a maximum. With jitter the delay is drawn
from its upper half, in steps of a millisecond, so that it is never longer than without.
-/

set_option autoImplicit false

namespace DurableJobs

inductive Backoff where
  | fixed (delay : Duration)
  | exponential (base max : Duration) (jitter : Bool)
deriving DecidableEq

namespace Backoff

/-- How often the base is doubled; no further than 31 times. -/
def doublings (failures : Nat) : Nat := min (failures - 1) 31

def fullDelay (backoff : Backoff) (failures : Nat) : Duration :=
  match backoff with
  | .fixed delay => delay
  | .exponential base max _ => min (base.times (Nat.pow 2 (doublings failures))) max

/-- How many milliseconds a draw may add to half of a delay. -/
def spread (delay : Duration) : Nat :=
  min ((Duration.ofNanos (delay.nanos - delay.half.nanos)).millis) 0xffffffffffffffff

def isDrawn (backoff : Backoff) (failures : Nat) : Bool :=
  match backoff with
  | .fixed _ => false
  | .exponential _ _ jitter => jitter && !(backoff.fullDelay failures).isZero

/-- The delay after so many failures. The draw is a number of milliseconds, taken no further than
the spread. -/
def delayFor (backoff : Backoff) (failures draw : Nat) : Duration :=
  let full := backoff.fullDelay failures
  if backoff.isDrawn failures then full.half.add (Duration.ofMillis (min draw (spread full)))
  else full

end Backoff

structure RetryPolicy where
  backoff : Backoff
  /-- How many failures there may be until a job is given up, if it ever is. -/
  maxFailures : Option Nat
deriving DecidableEq

namespace RetryPolicy

def standard : RetryPolicy := ⟨.fixed (Duration.ofSeconds 10), none⟩

def fixed (delay : Duration) : RetryPolicy := ⟨.fixed delay, none⟩

def exponential (base max : Duration) : RetryPolicy := ⟨.exponential base max true, none⟩

def withMaxFailures (policy : RetryPolicy) (limit : Nat) : RetryPolicy :=
  { policy with maxFailures := some limit }

def isExhausted (policy : RetryPolicy) (failures : Nat) : Bool :=
  match policy.maxFailures with
  | none => false
  | some limit => limit ≤ failures

end RetryPolicy

end DurableJobs
