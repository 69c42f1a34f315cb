import DurableJobs.Store.Row

/-!
Arithmetic of instants.

Outside of leap seconds an instant is its count of nanoseconds, and every count from that of the first
instant to that of the last one is an instant. A delay is added in whole milliseconds and ends at the
last instant if it does not fit. The store keeps an instant rounded down to its millisecond, and every
millisecond that it is given to keep it gives back.
-/

set_option autoImplicit false

namespace DurableJobs

namespace Duration

theorem min_le_left (left right : Duration) : min left right ≤ left :=
  Nat.le_trans (Nat.le_of_eq (nanos_min left right)) (Nat.min_le_left _ _)

theorem min_le_right (left right : Duration) : min left right ≤ right :=
  Nat.le_trans (Nat.le_of_eq (nanos_min left right)) (Nat.min_le_right _ _)

theorem ofNanos_le_ofNanos {left right : Nat} (le : left ≤ right) : ofNanos left ≤ ofNanos right :=
  Nat.le_min.mpr ⟨Nat.le_trans (Nat.min_le_left _ _) le, Nat.min_le_right _ _⟩

theorem millis_le_millis {left right : Duration} (le : left ≤ right) : left.millis ≤ right.millis :=
  Nat.div_le_div_right le

/-- The duration of so many nanoseconds, if there is one. -/
def ofNanos? (nanos : Nat) : Option Duration := ofParts? 0 nanos

theorem ofNanos?_of_le {nanos : Nat} (fits : nanos ≤ longest.nanos) :
    ofNanos? nanos = some (ofNanos nanos) := by
  have less : nanos < 0x10000000000000000 * 1000000000 := Nat.lt_succ_of_le fits
  rw [ofNanos?, ofParts?, dif_pos (by omega)]
  refine congrArg some (eq_of_nanos_eq ?_)
  rw [nanos_ofNanos_of_lt less]
  exact Nat.zero_add nanos

end Duration

theorem Store.Row.readInstant_of_ofMillis? {index : Nat} {column : String} {millis : Int}
    {instant : Instant} (isInstant : Instant.ofMillis? millis = some instant) :
    readInstant index column (.integer millis) = .ok instant := by
  have isMillis : readInteger index column (.integer millis) = .ok millis := rfl
  simp [readInstant, bind, Except.bind, pure, Except.pure, isMillis, isInstant]

namespace Instant

/-! ### Order -/

theorem le_iff {left right : Instant} :
    left ≤ right ↔ left.second < right.second ∨
      (left.second = right.second ∧ left.fraction ≤ right.fraction) :=
  Iff.rfl

theorem lt_iff {left right : Instant} :
    left < right ↔ left.second < right.second ∨
      (left.second = right.second ∧ left.fraction < right.fraction) :=
  Iff.rfl

theorem lt_iff_not_le {left right : Instant} : left < right ↔ ¬ right ≤ left := by
  rw [lt_iff, le_iff]
  omega

theorem lt_asymm {left right : Instant} (less : left < right) : ¬ right < left := by
  rw [lt_iff] at less ⊢
  omega

theorem lt_or_eq_or_gt (left right : Instant) : left < right ∨ left = right ∨ right < left := by
  by_cases same : left.second = right.second ∧ left.fraction = right.fraction
  · cases left
    cases right
    simp only at same
    simp [same]
  · rw [lt_iff, lt_iff]
    omega

theorem le_iff_nanos_le {left right : Instant} (leftRegular : left.isLeap = false)
    (rightRegular : right.isLeap = false) : left ≤ right ↔ left.nanos ≤ right.nanos := by
  simp only [isLeap, decide_eq_false_iff_not] at leftRegular rightRegular
  simp only [le_iff, nanos]
  omega

/-! ### Counts of nanoseconds -/

theorem nanos_eq_of_ofNanos? {nanos : Int} {instant : Instant}
    (isInstant : ofNanos? nanos = some instant) :
    instant.isLeap = false ∧ instant.nanos = nanos := by
  simp only [ofNanos?, ofParts?] at isInstant
  split at isInstant <;> cases isInstant
  simp only [isLeap, decide_eq_false_iff_not, Instant.nanos]
  omega

theorem ofNanos?_eq_none_iff {nanos : Int} :
    ofNanos? nanos = none ↔ nanos < -8334601228800000000000 ∨ latest.nanos < nanos := by
  have last : latest.nanos = 8210266876799999999999 := rfl
  rw [ofNanos?, ofParts?, dite_eq_right_iff, last]
  simp only [reduceCtorEq, imp_false]
  omega

theorem exists_ofNanos? {nanos : Int} (least : -8334601228800000000000 ≤ nanos)
    (greatest : nanos ≤ latest.nanos) : ∃ instant, ofNanos? nanos = some instant := by
  refine Option.ne_none_iff_exists'.mp fun none => ?_
  rcases ofNanos?_eq_none_iff.mp none with less | more <;> omega

theorem nanos_ge (instant : Instant) : -8334601228800000000000 ≤ instant.nanos := by
  have least := instant.min_le
  simp only [nanos]
  omega

theorem nanos_lt (instant : Instant) : instant.nanos < 8210266876801000000000 := by
  have greatest := instant.le_max
  have small := instant.fraction_lt
  simp only [nanos]
  omega

theorem nanos_le_latest {instant : Instant} (regular : instant.isLeap = false) :
    instant.nanos ≤ latest.nanos := by
  have last : latest.nanos = 8210266876799999999999 := rfl
  have greatest := instant.le_max
  simp only [isLeap, decide_eq_false_iff_not] at regular
  rw [last, nanos]
  omega

/-! ### Milliseconds -/

theorem nanos_of_ofMillis? {millis : Int} {instant : Instant}
    (isInstant : ofMillis? millis = some instant) : instant.nanos = millis * 1000000 :=
  (nanos_eq_of_ofNanos? isInstant).2

theorem isLeap_of_ofMillis? {millis : Int} {instant : Instant}
    (isInstant : ofMillis? millis = some instant) : instant.isLeap = false :=
  (nanos_eq_of_ofNanos? isInstant).1

theorem millis_of_ofMillis? {millis : Int} {instant : Instant}
    (isInstant : ofMillis? millis = some instant) : instant.millis = millis := by
  rw [Instant.millis, nanos_of_ofMillis? isInstant, Int.mul_ediv_cancel _ (by decide)]

/-- What the store keeps of an instant tells whether it has come. -/
theorem le_iff_of_ofMillis? {millis : Int} {instant now : Instant}
    (isInstant : ofMillis? millis = some instant) (regular : now.isLeap = false) :
    instant ≤ now ↔ millis ≤ now.millis := by
  rw [le_iff_nanos_le (isLeap_of_ofMillis? isInstant) regular, nanos_of_ofMillis? isInstant,
    Instant.millis]
  omega

theorem lt_iff_of_ofMillis? {first second : Int} {left right : Instant}
    (isLeft : ofMillis? first = some left) (isRight : ofMillis? second = some right) :
    left < right ↔ first < second := by
  rw [lt_iff_not_le, le_iff_of_ofMillis? isRight (isLeap_of_ofMillis? isLeft),
    millis_of_ofMillis? isLeft, Int.not_le]

theorem eq_iff_of_ofMillis? {first second : Int} {left right : Instant}
    (isLeft : ofMillis? first = some left) (isRight : ofMillis? second = some right) :
    left = right ↔ first = second := by
  constructor
  · rintro rfl
    rw [← millis_of_ofMillis? isLeft, millis_of_ofMillis? isRight]
  · rintro rfl
    exact Option.some.inj (isLeft.symm.trans isRight)

theorem ofMillis?_eq_none_iff {millis : Int} :
    ofMillis? millis = none ↔ millis < -8334601228800000 ∨ 8210266876799999 < millis := by
  have last : latest.nanos = 8210266876799999999999 := rfl
  rw [ofMillis?, ofNanos?_eq_none_iff, last]
  omega

/-- Between two instants the store loses no millisecond. -/
theorem exists_ofMillis?_of_between {now later : Instant} {millis stored : Int}
    (isLater : ofMillis? stored = some later) (above : now.millis ≤ millis) (below : millis ≤ stored) :
    ∃ instant, ofMillis? millis = some instant := by
  have top := nanos_of_ofMillis? isLater
  have greatest := nanos_le_latest (isLeap_of_ofMillis? isLater)
  have least := now.nanos_ge
  rw [Instant.millis] at above
  exact exists_ofNanos? (by omega) (by omega)

/-- The store can give the instant back, if only to the millisecond. -/
def IsStorable (instant : Instant) : Prop :=
  ∃ stored, ofMillis? instant.millis = some stored

theorem isStorable_of_regular {instant : Instant} (regular : instant.isLeap = false) :
    instant.IsStorable := by
  have least := instant.nanos_ge
  have greatest := nanos_le_latest regular
  refine exists_ofNanos? ?_ ?_ <;> rw [millis] <;> omega

/-- The instant is a whole number of milliseconds, outside of leap seconds. -/
def IsWhole (instant : Instant) : Prop := ∃ millis, ofMillis? millis = some instant

theorem IsWhole.ofMillis?_millis {instant : Instant} (whole : instant.IsWhole) :
    ofMillis? instant.millis = some instant := by
  obtain ⟨millis, isInstant⟩ := whole
  obtain ⟨regular, nanos⟩ := nanos_eq_of_ofNanos? isInstant
  exact ofMillis?_millis_of_whole regular (by omega)

theorem IsWhole.isStorable {instant : Instant} (whole : instant.IsWhole) : instant.IsStorable :=
  ⟨instant, whole.ofMillis?_millis⟩

theorem IsWhole.millis_mul {instant : Instant} (whole : instant.IsWhole) :
    instant.millis * 1000000 = instant.nanos := by
  obtain ⟨millis, isInstant⟩ := whole
  rw [millis_of_ofMillis? isInstant, nanos_of_ofMillis? isInstant]

/-! ### Delays -/

/-- A delay is added in whole milliseconds and ends at the last instant at the latest. -/
theorem nanos_after_eq_min (start : Instant) (delay : Duration) :
    (start.after delay).nanos = min (start.nanos + delay.millis * 1000000) latest.nanos := by
  have least := start.nanos_ge
  by_cases fits : start.nanos + delay.millis * 1000000 ≤ latest.nanos
  · obtain ⟨finish, isFinish⟩ := exists_ofNanos? (by omega) fits
    rw [after, isFinish, Option.getD_some, (nanos_eq_of_ofNanos? isFinish).2, Int.min_eq_left fits]
  · have further : latest.nanos < start.nanos + delay.millis * 1000000 := Int.not_le.mp fits
    rw [after, ofNanos?_eq_none_iff.mpr (.inr further), Option.getD_none,
      Int.min_eq_right (Int.le_of_lt further)]

theorem isLeap_after (start : Instant) (delay : Duration) : (start.after delay).isLeap = false := by
  rw [after]
  cases sum : ofNanos? (start.nanos + delay.millis * 1000000) with
  | none => rfl
  | some finish => exact (nanos_eq_of_ofNanos? sum).1

theorem isStorable_after (start : Instant) (delay : Duration) : (start.after delay).IsStorable :=
  isStorable_of_regular (isLeap_after start delay)

/-- A delay that ends within the representable instants is added in whole milliseconds. -/
theorem nanos_after {start : Instant} {delay : Duration}
    (fits : start.nanos + delay.nanos ≤ latest.nanos) :
    (start.after delay).nanos = start.nanos + delay.millis * 1000000 := by
  have whole : delay.millis * 1000000 ≤ delay.nanos := Nat.div_mul_le_self _ _
  rw [nanos_after_eq_min, Int.min_eq_left (by omega)]

/-- A delay ends on a whole millisecond, unless it does not fit. -/
theorem IsWhole.after {start : Instant} (whole : start.IsWhole) (delay : Duration) :
    (start.after delay).IsWhole ∨ start.after delay = latest := by
  obtain ⟨millis, isStart⟩ := whole
  obtain ⟨_, nanos⟩ := nanos_eq_of_ofNanos? isStart
  have sum : start.nanos + delay.millis * 1000000 = (millis + delay.millis) * 1000000 := by omega
  rw [Instant.after, sum]
  cases fits : ofNanos? ((millis + delay.millis) * 1000000) with
  | none => exact .inr rfl
  | some instant => exact .inl ⟨millis + delay.millis, fits⟩

/-- What the store keeps of the end of a delay. -/
theorem IsWhole.millis_after {start : Instant} (whole : start.IsWhole) {delay : Duration}
    (fits : start.nanos + delay.nanos ≤ latest.nanos) :
    (start.after delay).millis * 1000000 = start.nanos + delay.millis * 1000000 := by
  have start_eq := whole.millis_mul
  rw [Instant.millis, nanos_after fits]
  omega

theorem after_le_after {start later : Instant} (le : start.nanos ≤ later.nanos)
    {delay longer : Duration} (leDelay : delay ≤ longer) :
    start.after delay ≤ later.after longer := by
  have millis := Duration.millis_le_millis leDelay
  rw [le_iff_nanos_le (isLeap_after start delay) (isLeap_after later longer), nanos_after_eq_min,
    nanos_after_eq_min]
  omega

theorem le_after {start : Instant} (regular : start.isLeap = false) (delay : Duration) :
    start ≤ start.after delay := by
  have fits := nanos_le_latest regular
  rw [le_iff_nanos_le regular (isLeap_after start delay), nanos_after_eq_min]
  omega

/-! ### The time left -/

theorem timeLeft_le_timeLeft {earlier later : Instant} (le : earlier.nanos ≤ later.nanos)
    (now : Instant) : earlier.timeLeft now ≤ later.timeLeft now :=
  Duration.ofNanos_le_ofNanos (by omega)

/-- All spans between instants are durations. -/
theorem toNat_span_le (instant now : Instant) :
    (instant.nanos - now.nanos).toNat ≤ Duration.longest.nanos := by
  have longest : Duration.longest.nanos = 0x10000000000000000 * 1000000000 - 1 := rfl
  have top := instant.nanos_lt
  have bottom := now.nanos_ge
  omega

theorem nanos_timeLeft (instant now : Instant) :
    ((instant.timeLeft now).nanos : Int) = max (instant.nanos - now.nanos) 0 := by
  have fits := toNat_span_le instant now
  rw [timeLeft, Duration.nanos_ofNanos_of_lt (Nat.lt_succ_of_le fits), Int.toNat_eq_max]

/-! ### By way of words

Milliseconds are counted in signed words of 64 bits.
-/

/-- The end of a delay whose milliseconds are the greatest word if they do not fit. -/
def afterInWords (start : Instant) (delay : Duration) : Instant :=
  (ofNanos? (start.nanos + (min delay.millis 0x7fffffffffffffff : Nat) * 1000000)).getD latest

/-- The time left, if the span between the instants is no more milliseconds than a word holds. -/
def timeLeft? (instant now : Instant) : Option Duration :=
  if (instant.nanos - now.nanos).natAbs ≤ 0x7fffffffffffffff * 1000000 then
    Duration.ofNanos? (instant.nanos - now.nanos).toNat
  else none

/-- A delay that is cut off at the greatest word does not fit anyway. -/
theorem afterInWords_eq (start : Instant) (delay : Duration) :
    start.afterInWords delay = start.after delay := by
  have last : latest.nanos = 8210266876799999999999 := rfl
  have least := start.nanos_ge
  by_cases fits : delay.millis ≤ 0x7fffffffffffffff
  · rw [afterInWords, after, Nat.min_eq_left fits]
  · have cut : ofNanos? (start.nanos + (0x7fffffffffffffff : Nat) * 1000000) = none :=
      ofNanos?_eq_none_iff.mpr (.inr (by omega))
    have uncut : ofNanos? (start.nanos + delay.millis * 1000000) = none :=
      ofNanos?_eq_none_iff.mpr (.inr (by omega))
    rw [afterInWords, after, Nat.min_eq_right (by omega), cut, uncut]

theorem timeLeft?_eq (instant now : Instant) :
    instant.timeLeft? now = some (instant.timeLeft now) := by
  have counted : (instant.nanos - now.nanos).natAbs ≤ 0x7fffffffffffffff * 1000000 := by
    have instantWithin := And.intro instant.nanos_ge instant.nanos_lt
    have nowWithin := And.intro now.nanos_ge now.nanos_lt
    omega
  rw [timeLeft?, if_pos counted, Duration.ofNanos?_of_le (toNat_span_le instant now), timeLeft]

/-! ### What arithmetic comes to -/

/-- Where a delay ends, and how much of it is left at its two ends. -/
structure EndsAt (start : Instant) (delay : Duration) (finish : Instant) : Prop where
  inWords : start.afterInWords delay = finish
  isLeap : finish.isLeap = false
  nanos : finish.nanos = min (start.nanos + delay.millis * 1000000) latest.nanos
  le : start ≤ finish
  left : ∃ left, finish.timeLeft? start = some left ∧ finish.timeLeft start = left ∧
    (left.nanos : Int) = min (delay.millis * 1000000 : Int) (latest.nanos - start.nanos)
  passed : start.timeLeft? finish = some .zero ∧ start.timeLeft finish = .zero

/-- What the store keeps of an instant, and gives back: its millisecond. -/
structure KeptAs (instant stored : Instant) : Prop where
  isLeap : stored.isLeap = false
  nanos : stored.nanos = instant.nanos - instant.nanos % 1000000
  ofMillis? : ofMillis? instant.millis = some stored
  read : ∀ index column,
    Store.Row.readInstant index column (.integer instant.millis) = .ok stored

theorem endsAt_after {start : Instant} (regular : start.isLeap = false) (delay : Duration) :
    start.EndsAt delay (start.after delay) := by
  have finish := nanos_after_eq_min start delay
  have fits := nanos_le_latest regular
  refine
    { inWords := afterInWords_eq start delay
      isLeap := isLeap_after start delay
      nanos := finish
      le := le_after regular delay
      left := ⟨_, timeLeft?_eq _ _, rfl, ?_⟩
      passed := ?_ }
  · rw [nanos_timeLeft, finish]
    omega
  · have none : start.timeLeft (start.after delay) = .zero := by
      have nanos := nanos_timeLeft start (start.after delay)
      refine Duration.eq_of_nanos_eq (Int.ofNat_inj.mp ?_)
      rw [nanos, finish]
      show _ = 0
      omega
    exact ⟨(timeLeft?_eq _ _).trans (congrArg some none), none⟩

theorem exists_keptAs {instant : Instant} (regular : instant.isLeap = false) :
    ∃ stored, instant.KeptAs stored := by
  obtain ⟨stored, isStored⟩ := isStorable_of_regular regular
  refine ⟨stored,
    { isLeap := isLeap_of_ofMillis? isStored
      nanos := ?_
      ofMillis? := isStored
      read := fun _ _ => Store.Row.readInstant_of_ofMillis? isStored }⟩
  rw [nanos_of_ofMillis? isStored, millis]
  omega

/-- Delays saturate at the last instant, and instants are kept rounded down to the millisecond; both
keep the order. -/
theorem saturates_and_rounds_down {instant : Instant} (regular : instant.isLeap = false)
    (delay : Duration) :
    instant.EndsAt delay (instant.after delay) ∧
      (∃ stored, instant.KeptAs stored) ∧
      (∀ (later : Instant) (longer : Duration), later.isLeap = false → instant ≤ later →
        delay ≤ longer →
          instant.after delay ≤ later.after longer ∧ instant.millis ≤ later.millis) ∧
      ∀ millis, ofMillis? millis = none ↔ millis < -8334601228800000 ∨ 8210266876799999 < millis := by
  refine ⟨endsAt_after regular delay, exists_keptAs regular, ?_, fun _ => ofMillis?_eq_none_iff⟩
  intro later longer laterRegular le leDelay
  have nanos := (le_iff_nanos_le regular laterRegular).mp le
  exact ⟨after_le_after nanos leDelay, millis_le_millis regular le⟩

/-- From the last nanosecond before 1970 the longest delay ends at the last instant, and the store keeps
that nanosecond as the millisecond before 1970. -/
theorem saturates_and_rounds_down_longest :
    let instant : Instant := ⟨-1, 999999999, by decide, by decide, .inl (by decide)⟩
    instant.isLeap = false ∧ instant.EndsAt .longest latest ∧
      (∃ stored, instant.KeptAs stored ∧ stored.nanos = -1000000) ∧
      instant.after .longest ≤ epoch.after .longest ∧ instant.millis ≤ epoch.millis := by
  intro instant
  have regular : instant.isLeap = false := by decide
  have isLatest : instant.after .longest = latest := by decide
  obtain ⟨ends, ⟨stored, kept⟩, inOrder, _⟩ := saturates_and_rounds_down regular .longest
  refine ⟨regular, isLatest ▸ ends, ⟨stored, kept, ?_⟩, ?_⟩
  · rw [kept.nanos]
    decide
  · exact inOrder epoch .longest (by decide) (by decide) (Nat.le_refl _)

end Instant

end DurableJobs
