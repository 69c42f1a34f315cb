import DurableJobs.Store.Cell

/-!
The order of cells.

Cells are compared by their rank among the kinds of values, and cells of one rank by what they hold:
numbers by size, texts by code point, blobs by byte. So their order is total and transitive.
-/

set_option autoImplicit false

namespace DurableJobs.Store

namespace Cell

/-- The place of a cell among the kinds of values; all numbers have one. -/
def rank : Cell → Nat
  | .null => 0
  | .integer _ => 1
  | .real _ => 1
  | .text _ => 2
  | .blob _ => 3

/-- What a number counts in the least positive double. -/
def magnitude : Cell → Int
  | .integer value => value * Double.one
  | .real value => value.units
  | _ => 0

def letters : Cell → String
  | .text value => value
  | _ => ""

def octets : Cell → Bytes
  | .blob bytes => bytes
  | _ => []

theorem compareBytes_eq (left right : Bytes) : compareBytes left right = Ord.compare left right := by
  induction left generalizing right with
  | nil => cases right <;> rfl
  | cons first rest ih =>
      cases right with
      | nil => rfl
      | cons other others =>
          have cons : Ord.compare (first :: rest) (other :: others) =
              (Ord.compare first other).then (Ord.compare rest others) :=
            List.compareLex_cons_cons
          rw [compareBytes, cons, ih]
          split
          · next less => rw [Std.compare_eq_lt.mpr less, Ordering.lt_then]
          · next notLess =>
              split
              · next greater => rw [Std.compare_eq_gt.mpr greater, Ordering.gt_then]
              · next notGreater =>
                  have same : first = other :=
                    UInt8.le_antisymm (UInt8.not_lt.mp notGreater) (UInt8.not_lt.mp notLess)
                  rw [Std.compare_eq_iff_eq.mpr same, Ordering.eq_then]

/-- Whole numbers are compared as the doubles that they are, with nothing lost. -/
theorem compare_mul_one (left right : Int) :
    Ord.compare (left * Double.one) (right * Double.one) = Ord.compare left right := by
  have positive : (0 : Int) < Double.one := Int.natCast_pos.mpr (by decide +kernel)
  rcases Int.lt_trichotomy left right with less | rfl | greater
  · rw [Std.compare_eq_lt.mpr less,
      Std.compare_eq_lt.mpr (Int.mul_lt_mul_of_pos_right less positive)]
  · rw [Std.compare_self, Std.compare_self]
  · rw [Std.compare_eq_gt.mpr greater,
      Std.compare_eq_gt.mpr (Int.mul_lt_mul_of_pos_right greater positive)]

theorem compare_eq_lex (left right : Cell) :
    left.compare right =
      compareLex (compareOn rank)
        (compareLex (compareOn magnitude) (compareLex (compareOn letters) (compareOn octets)))
        left right := by
  cases left <;> cases right <;>
    simp only [compare, compareLex, compareOn, rank, magnitude, letters, octets, compare_mul_one,
      compareBytes_eq, Std.compare_self, Ordering.then_eq, Ordering.eq_then] <;> rfl

instance : Std.TransCmp compare := by
  have same : compare = compareLex (compareOn rank)
      (compareLex (compareOn magnitude) (compareLex (compareOn letters) (compareOn octets))) :=
    funext fun left => funext fun right => compare_eq_lex left right
  rw [same]
  infer_instance

end Cell

end DurableJobs.Store
