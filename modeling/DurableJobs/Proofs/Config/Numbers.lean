import DurableJobs.Config
import Mathlib.Data.List.TakeWhile

/-!
Numbers that texts hold.

A text holds a number if all of it but the blanks around it is digits, at least one, perhaps after a
plus. Such a text is read as that number, provided that the number is below the limit; of any other
text the reason is given why it is not.
-/

set_option autoImplicit false

namespace DurableJobs

namespace Text

/-- The core is the text without the blanks around it. -/
def Trims (text core : List Char) : Prop :=
  ∃ before after, text = before ++ core ++ after ∧
    (∀ character ∈ before, isBlank character = true) ∧
    (∀ character ∈ after, isBlank character = true) ∧
    (∀ character ∈ core.head?, isBlank character = false) ∧
    ∀ character ∈ core.getLast?, isBlank character = false

/-- The text is digits, at least one, perhaps after a plus. -/
def SpellsNumber (characters : List Char) (number : Nat) : Prop :=
  ∃ digits, (characters = digits ∨ characters = '+' :: digits) ∧ digits ≠ [] ∧
    (∀ digit ∈ digits, digit.isDigit = true) ∧ Nat.ofDigitChars 10 digits 0 = number

/-- The digits that the text begins with are too many already, whatever follows them. -/
def BeginsTooLarge (limit : Nat) (characters : List Char) : Prop :=
  ∃ digits rest, (characters = digits ++ rest ∨ characters = '+' :: digits ++ rest) ∧
    (∀ digit ∈ digits, digit.isDigit = true) ∧ limit ≤ Nat.ofDigitChars 10 digits 0

/-! ### Blanks -/

theorem dropWhile_isBlank_of_head {characters : List Char}
    (visible : ∀ character ∈ characters.head?, isBlank character = false) :
    characters.dropWhile isBlank = characters := by
  cases characters with
  | nil => rfl
  | cons first rest => simp [visible first rfl]

theorem head_of_trimStart (characters : List Char) :
    ∀ character ∈ (trimStart characters).head?, isBlank character = false := by
  intro character isHead
  have stopped := List.head?_dropWhile_not isBlank characters
  rw [Option.mem_def, trimStart] at isHead
  rw [isHead] at stopped
  exact stopped

theorem exists_of_trimStart (characters : List Char) :
    ∃ before, characters = before ++ trimStart characters ∧
      ∀ character ∈ before, isBlank character = true :=
  ⟨characters.takeWhile isBlank, List.takeWhile_append_dropWhile.symm,
    fun _ member => List.mem_takeWhile_imp member⟩

theorem trims_trim (text : List Char) : Trims text (trim text) := by
  obtain ⟨before, isText, blankBefore⟩ := exists_of_trimStart text
  obtain ⟨after, isRest, blankAfter⟩ := exists_of_trimStart (trimStart text).reverse
  have split : trimStart text = trim text ++ after.reverse := by
    rw [trim, ← List.reverse_append, ← isRest, List.reverse_reverse]
  refine ⟨before, after.reverse, ?_, blankBefore, by simpa using blankAfter, ?_, ?_⟩
  · rw [List.append_assoc, ← split]
    exact isText
  · intro character isHead
    refine head_of_trimStart text character ?_
    rw [split, List.head?_append, Option.mem_def.mp isHead, Option.some_or, Option.mem_def]
  · intro character isLast
    rw [trim, List.getLast?_reverse] at isLast
    exact head_of_trimStart _ character isLast

theorem trim_eq_of_trims {text core : List Char} (trims : Trims text core) : trim text = core := by
  obtain ⟨before, after, rfl, blankBefore, blankAfter, visibleHead, visibleLast⟩ := trims
  have blankReversed : ∀ character ∈ after.reverse, isBlank character = true := by
    simpa using blankAfter
  have started : trimStart (before ++ core ++ after) = (core ++ after).dropWhile isBlank := by
    rw [trimStart, List.append_assoc, List.dropWhile_append_of_pos blankBefore]
  rw [trim, started]
  cases core with
  | nil =>
      have none : after.dropWhile isBlank = [] := List.dropWhile_eq_nil_iff.mpr blankAfter
      rw [List.nil_append, none]
      rfl
  | cons first rest =>
      have kept : (first :: rest ++ after).dropWhile isBlank = first :: rest ++ after :=
        dropWhile_isBlank_of_head visibleHead
      rw [kept, trimStart, List.reverse_append, List.dropWhile_append_of_pos blankReversed,
        dropWhile_isBlank_of_head, List.reverse_reverse]
      rwa [List.head?_reverse]

theorem trims_iff {text core : List Char} : Trims text core ↔ trim text = core :=
  ⟨trim_eq_of_trims, fun isCore => isCore ▸ trims_trim text⟩

/-! ### Digits -/

theorem le_ofDigitChars (digits : List Char) (value : Nat) :
    value ≤ Nat.ofDigitChars 10 digits value := by
  induction digits generalizing value with
  | nil => exact Nat.le_refl value
  | cons digit rest ih =>
      rw [Nat.ofDigitChars_cons]
      exact Nat.le_trans (by omega) (ih _)

end Text

open Text (SpellsNumber BeginsTooLarge Trims)

theorem appendDecimal_eq {limit value : Nat} (small : value < limit) (characters : List Char) :
    appendDecimal limit value characters =
      if limit ≤ Nat.ofDigitChars 10 (characters.takeWhile Char.isDigit) value then
        .error .tooLarge
      else if characters.all Char.isDigit = true then
        .ok (Nat.ofDigitChars 10 characters value)
      else .error .invalidDigit := by
  induction characters generalizing value with
  | nil => simp [appendDecimal, Nat.ofDigitChars, small]
  | cons character rest ih =>
      rw [appendDecimal]
      by_cases isDigit : character.isDigit = true
      · have next : value * 10 + (character.toNat - 48) =
            10 * value + (character.toNat - '0'.toNat) := by
          rw [Nat.mul_comm]
          rfl
        simp only [isDigit, if_true, List.takeWhile_cons, Nat.ofDigitChars_cons, List.all_cons,
          Bool.true_and, next]
        by_cases fits : 10 * value + (character.toNat - '0'.toNat) < limit
        · rw [if_pos fits, ih fits]
        · have larger := Nat.le_trans (Nat.le_of_not_lt fits)
            (Text.le_ofDigitChars (rest.takeWhile Char.isDigit) _)
          rw [if_neg fits, if_pos larger]
      · simp [isDigit, Nat.ofDigitChars, small]

section Decimals

variable {limit value : Nat} (small : value < limit) {characters : List Char}

include small

theorem appendDecimal_eq_ok_iff {number : Nat} :
    appendDecimal limit value characters = .ok number ↔
      (∀ character ∈ characters, character.isDigit = true) ∧
        Nat.ofDigitChars 10 characters value = number ∧ number < limit := by
  rw [appendDecimal_eq small]
  by_cases digits : ∀ character ∈ characters, character.isDigit = true
  · rw [List.takeWhile_eq_self_iff.mpr digits, if_pos (List.all_eq_true.mpr digits)]
    split
    · next large => simp only [reduceCtorEq, false_iff]; omega
    · next fits => simp only [Except.ok.injEq]; grind
  · rw [if_neg fun areDigits => digits (List.all_eq_true.mp areDigits)]
    split <;> simp [digits]

theorem appendDecimal_eq_tooLarge_iff :
    appendDecimal limit value characters = .error .tooLarge ↔
      ∃ digits rest, characters = digits ++ rest ∧
        (∀ digit ∈ digits, digit.isDigit = true) ∧ limit ≤ Nat.ofDigitChars 10 digits value := by
  have large : appendDecimal limit value characters = .error .tooLarge ↔
      limit ≤ Nat.ofDigitChars 10 (characters.takeWhile Char.isDigit) value := by
    rw [appendDecimal_eq small]
    split
    · next large => simp [large]
    · next fits => split <;> simp [fits]
  rw [large]
  constructor
  · intro reached
    exact ⟨_, _, List.takeWhile_append_dropWhile.symm, fun _ => List.mem_takeWhile_imp, reached⟩
  · rintro ⟨digits, rest, rfl, areDigits, reached⟩
    rw [List.takeWhile_append_of_pos areDigits, Nat.ofDigitChars_append]
    exact Nat.le_trans reached (Text.le_ofDigitChars _ _)

theorem appendDecimal_ne_empty : appendDecimal limit value characters ≠ .error .empty := by
  rw [appendDecimal_eq small]
  split
  · simp
  · split <;> simp

end Decimals

/-! ### Signs -/

namespace Text

/-- The text without a plus in front. -/
def unsigned : List Char → List Char
  | '+' :: digits => digits
  | digits => digits

theorem isDigit_plus : ¬ '+'.isDigit = true := by
  decide

theorem spellsNumber_iff {characters : List Char} {number : Nat} :
    SpellsNumber characters number ↔
      unsigned characters ≠ [] ∧ (∀ digit ∈ unsigned characters, digit.isDigit = true) ∧
        Nat.ofDigitChars 10 (unsigned characters) 0 = number := by
  constructor
  · rintro ⟨digits, rfl | rfl, some, areDigits, isNumber⟩
    · have plain : unsigned characters = characters := by
        unfold unsigned
        split
        · exact absurd (areDigits _ List.mem_cons_self) isDigit_plus
        · rfl
      rw [plain]
      exact ⟨some, areDigits, isNumber⟩
    · exact ⟨some, areDigits, isNumber⟩
  · intro spelled
    refine ⟨unsigned characters, ?_, spelled⟩
    unfold unsigned
    split
    · exact .inr rfl
    · exact .inl rfl

theorem beginsTooLarge_iff {limit : Nat} (positive : 0 < limit) {characters : List Char} :
    BeginsTooLarge limit characters ↔
      ∃ digits rest, unsigned characters = digits ++ rest ∧
        (∀ digit ∈ digits, digit.isDigit = true) ∧ limit ≤ Nat.ofDigitChars 10 digits 0 := by
  constructor
  · rintro ⟨digits, rest, rfl | rfl, areDigits, large⟩
    · refine ⟨digits, rest, ?_, areDigits, large⟩
      cases digits with
      | nil => exact absurd large (Nat.not_le_of_lt positive)
      | cons digit digits =>
          rw [List.cons_append]
          unfold unsigned
          split
          · next isPlus =>
              obtain ⟨rfl, _⟩ := List.cons.inj isPlus
              exact absurd (areDigits _ List.mem_cons_self) isDigit_plus
          · rfl
    · exact ⟨digits, rest, rfl, areDigits, large⟩
  · rintro ⟨digits, rest, isUnsigned, areDigits, large⟩
    refine ⟨digits, rest, ?_, areDigits, large⟩
    rw [List.cons_append, ← isUnsigned]
    unfold unsigned
    split
    · exact .inr rfl
    · exact .inl rfl

theorem beginsTooLarge_of_spelled {limit number : Nat} {characters : List Char}
    (spelled : SpellsNumber characters number) (large : limit ≤ number) :
    BeginsTooLarge limit characters := by
  obtain ⟨digits, isText, _, areDigits, rfl⟩ := spelled
  exact ⟨digits, [], by simpa using isText, areDigits, large⟩

end Text

open Text (unsigned)

theorem numberOfText_eq (limit : Nat) (characters : List Char) :
    numberOfText limit characters =
      if characters = [] then .error .empty
      else if unsigned characters = [] then .error .invalidDigit
      else appendDecimal limit 0 (unsigned characters) := by
  unfold numberOfText
  split
  · rfl
  · rfl
  · next digits more =>
      have some : digits ≠ [] := fun none => more (none ▸ rfl)
      simp [unsigned, some]
  · next some _ unmarked =>
      have plain : unsigned characters = characters := by
        unfold unsigned
        split
        · exact absurd rfl (unmarked _)
        · rfl
      rw [plain, if_neg some, if_neg some]

/-! ### Numbers -/

/-- Why a text is not the number that it should be. -/
def NumberFault.Explains (limit : Nat) (characters : List Char) : NumberFault → Prop
  | .empty => characters = []
  | .tooLarge => BeginsTooLarge limit characters
  | .invalidDigit =>
      characters ≠ [] ∧ ¬ BeginsTooLarge limit characters ∧ ∀ number, ¬ SpellsNumber characters number

section Numbers

variable {limit : Nat} (positive : 0 < limit) {characters : List Char}

include positive

theorem numberOfText_eq_ok_iff {number : Nat} :
    numberOfText limit characters = .ok number ↔ SpellsNumber characters number ∧ number < limit := by
  rw [numberOfText_eq, Text.spellsNumber_iff]
  split
  · next empty => simp [empty, unsigned]
  · split
    · next bare => simp [bare]
    · next some => rw [appendDecimal_eq_ok_iff positive, and_assoc, and_assoc, and_iff_right some]

theorem numberOfText_eq_empty_iff :
    numberOfText limit characters = .error .empty ↔ characters = [] := by
  rw [numberOfText_eq]
  split
  · next empty => simp [empty]
  · next some =>
      split
      · simp [some]
      · simp [some, appendDecimal_ne_empty positive]

theorem numberOfText_eq_tooLarge_iff :
    numberOfText limit characters = .error .tooLarge ↔ BeginsTooLarge limit characters := by
  rw [Text.beginsTooLarge_iff positive, numberOfText_eq, ← appendDecimal_eq_tooLarge_iff positive]
  split
  · next empty => simp [empty, unsigned, appendDecimal]
  · split
    · next bare => simp [bare, appendDecimal]
    · rfl

/-- The reason is given by what the text is, whatever is read first. -/
theorem numberOfText_eq_error_iff {reason : NumberFault} :
    numberOfText limit characters = .error reason ↔ reason.Explains limit characters := by
  cases reason with
  | empty => exact numberOfText_eq_empty_iff positive
  | tooLarge => exact numberOfText_eq_tooLarge_iff positive
  | invalidDigit =>
      constructor
      · intro invalid
        refine ⟨fun empty => ?_, fun large => ?_, fun number spelled => ?_⟩
        · cases invalid.symm.trans ((numberOfText_eq_empty_iff positive).mpr empty)
        · cases invalid.symm.trans ((numberOfText_eq_tooLarge_iff positive).mpr large)
        · by_cases small : number < limit
          · cases invalid.symm.trans ((numberOfText_eq_ok_iff positive).mpr ⟨spelled, small⟩)
          · have large := Text.beginsTooLarge_of_spelled spelled (Nat.le_of_not_lt small)
            cases invalid.symm.trans ((numberOfText_eq_tooLarge_iff positive).mpr large)
      · rintro ⟨some, small, unspelled⟩
        cases result : numberOfText limit characters with
        | ok number => exact absurd ((numberOfText_eq_ok_iff positive).mp result).1 (unspelled number)
        | error reason =>
            cases reason with
            | empty => exact absurd ((numberOfText_eq_empty_iff positive).mp result) some
            | tooLarge => exact absurd ((numberOfText_eq_tooLarge_iff positive).mp result) small
            | invalidDigit => rfl

end Numbers

end DurableJobs
