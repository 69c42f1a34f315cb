import DurableJobs.Json.Printer
import DurableJobs.Json.Cursor

/-!
Printed tokens are read back.

A printed token leaves the reading right behind it. A number could go on with what follows it, so it
is read back where a value may end: at the end of the text, or at a mark. A printed name or string
needs no such care.
-/

set_option autoImplicit false

namespace DurableJobs.Json

/-- A value may end here: the text ends, or a comma or a closing bracket follows. -/
def EndsValue (more : Bytes) : Prop :=
  ∀ byte ∈ more.head?, byte = 44 ∨ byte = 93 ∨ byte = 125

theorem endsValue_nil : EndsValue [] := by
  simp [EndsValue]

theorem endsValue_comma (rest : Bytes) : EndsValue (44 :: rest) := by
  simp [EndsValue]

theorem endsValue_bracket (rest : Bytes) : EndsValue (93 :: rest) := by
  simp [EndsValue]

theorem endsValue_brace (rest : Bytes) : EndsValue (125 :: rest) := by
  simp [EndsValue]

/-- Wherever a value may end behind the bytes, they are read as the value, up to their end. -/
def Reads {Value : Type} (read : Cursor → Reading Value) (bytes : Bytes) (value : Value) : Prop :=
  ∀ (cursor : Cursor) (more : Bytes), cursor.rest = bytes ++ more → EndsValue more →
    ∃ after, read cursor = .ok (value, after) ∧ after.rest = more

theorem length_le_flatMap {Item : Type} (list : List Item) (print : Item → Bytes)
    (printed : ∀ item, print item ≠ []) : list.length ≤ (list.flatMap print).length := by
  induction list with
  | nil => exact Nat.le_refl 0
  | cons item rest ih =>
      have long := List.length_pos_iff.mpr (printed item)
      simp only [List.length_cons, List.flatMap_cons, List.length_append]
      omega

namespace Cursor

variable {cursor : Cursor} {byte : UInt8} {bytes rest more : Bytes}

theorem rest_advance (here : cursor.rest = byte :: rest) : cursor.advance.rest = rest := by
  simp only [advance, here]
  split <;> rfl

theorem skipBlanks_of_mark (here : cursor.rest = byte :: rest) (mark : 32 < byte) :
    cursor.skipBlanks = cursor := by
  obtain ⟨_, line, column⟩ := cursor
  subst here
  have notLine : byte ≠ 10 := by rintro rfl; exact absurd mark (by decide)
  have notBlank : ¬(byte = 32 ∨ byte = 9 ∨ byte = 13) := by
    rintro (rfl | rfl | rfl) <;> exact absurd mark (by decide)
  simp_all [skipBlanks, skipBlanksFrom]

theorem skipBlanks_of_end (here : cursor.rest = []) : cursor.skipBlanks = cursor := by
  obtain ⟨_, line, column⟩ := cursor
  subst here
  rfl

theorem nameRest_append (letters : Bytes) (here : cursor.rest = letters ++ more) :
    ∃ after, nameRest letters cursor = .ok after ∧ after.rest = more := by
  induction letters generalizing cursor with
  | nil => exact ⟨cursor, rfl, here⟩
  | cons letter letters ih =>
      obtain ⟨after, read, left⟩ := ih (rest_advance here)
      refine ⟨after, ?_, left⟩
      simp [nameRest, here, read]

/-! ### Numbers -/

section Digits

variable {character : Char} (isDigit : character.isDigit = true)

include isDigit

theorem toNat_of_isDigit : 48 ≤ character.toNat ∧ character.toNat ≤ 57 := by
  simpa [Char.isDigit, UInt32.le_iff_toNat_le] using isDigit

theorem toNat_ofNat_digit : (UInt8.ofNat character.toNat).toNat = character.toNat := by
  have range := toNat_of_isDigit isDigit
  rw [UInt8.toNat_ofNat']
  omega

theorem isDigit_ofNat_digit : Cursor.isDigit (UInt8.ofNat character.toNat) = true := by
  have range := toNat_of_isDigit isDigit
  have same := toNat_ofNat_digit isDigit
  simp only [Cursor.isDigit, Bool.and_eq_true, decide_eq_true_eq, UInt8.le_iff_toNat_le, same]
  exact range

end Digits

theorem isDigit_of_mem_printNatural {value : Nat} (member : byte ∈ printNatural value) :
    isDigit byte = true := by
  obtain ⟨character, isCharacter, rfl⟩ := List.mem_map.mp member
  exact isDigit_ofNat_digit (Nat.isDigit_of_mem_toDigits (by decide) (by decide) isCharacter)

theorem takeWhile_isDigit {digits : Bytes} (areDigits : ∀ byte ∈ digits, isDigit byte = true)
    (ends : EndsValue more) : (digits ++ more).takeWhile isDigit = digits := by
  rw [List.takeWhile_append_of_pos areDigits]
  cases more with
  | nil => simp
  | cons byte more =>
      have mark : isDigit byte = false := by
        rcases ends byte rfl with rfl | rfl | rfl <;> rfl
      simp [mark]

/-- As long as the digits amount to less than 2^64, all of them are taken. -/
theorem appendDigits_eq (digits : List Nat) (value : Nat)
    (fits : digits.foldl (fun value digit => value * 10 + digit) value < 0x10000000000000000) :
    appendDigits value digits =
      (digits.foldl (fun value digit => value * 10 + digit) value, digits.length) := by
  have grows : ∀ (digits : List Nat) (value : Nat),
      value ≤ digits.foldl (fun value digit => value * 10 + digit) value := by
    intro digits
    induction digits with
    | nil => exact fun value => Nat.le_refl value
    | cons digit rest ih =>
        intro value
        have later := ih (value * 10 + digit)
        simp only [List.foldl_cons]
        omega
  induction digits generalizing value with
  | nil => rfl
  | cons digit rest ih =>
      have first := Nat.lt_of_le_of_lt (grows rest (value * 10 + digit)) fits
      simp [appendDigits, first, ih _ fits]

theorem foldl_printNatural (value : Nat) :
    ((printNatural value).map fun byte => byte.toNat - 48).foldl
      (fun value digit => value * 10 + digit) 0 = value := by
  have readBack := Nat.ofDigitChars_toDigits (b := 10) (n := value) (by decide) (by decide)
  have same : (printNatural value).map (fun byte => byte.toNat - 48) =
      (Nat.toDigits 10 value).map fun digit => digit.toNat - 48 := by
    rw [printNatural, List.map_map]
    refine List.map_congr_left fun digit member => ?_
    have isDigit := Nat.isDigit_of_mem_toDigits (by decide) (by decide) member
    simp [toNat_ofNat_digit isDigit]
  rw [same, List.foldl_map]
  rw [Nat.ofDigitChars] at readBack
  simpa [Nat.mul_comm] using readBack

theorem printNatural_ne_nil (value : Nat) : printNatural value ≠ [] := by
  simp [printNatural, Nat.toDigits_ne_nil]

/-- A printed number has no leading zero. -/
theorem eq_nil_of_leading_zero {value : Nat} {digits : Bytes}
    (printed : printNatural value = 48 :: digits) : digits = [] := by
  induction value using Nat.strongRecOn generalizing digits with
  | ind value ih =>
      by_cases small : value < 10
      · rw [printNatural, Nat.toDigits_of_lt_base small] at printed
        exact (List.cons.inj printed).2.symm
      · have split : printNatural value = printNatural (value / 10) ++ printNatural (value % 10) := by
          rw [printNatural, Nat.toDigits_of_base_le (by decide) (by omega), List.map_append,
            printNatural, printNatural, Nat.toDigits_of_lt_base (Nat.mod_lt value (by decide))]
        rw [split] at printed
        cases leading : printNatural (value / 10) with
        | nil => exact absurd leading (printNatural_ne_nil _)
        | cons first others =>
            rw [leading, List.cons_append] at printed
            obtain ⟨rfl, _⟩ := List.cons.inj printed
            -- A lone zero in front stands for no tens at all.
            obtain rfl := ih (value / 10) (by omega) leading
            have tens := foldl_printNatural (value / 10)
            rw [leading] at tens
            have none : value / 10 = 0 := tens.symm
            omega

theorem number_printNatural (value : Nat) (positive : Bool) (fits : value < 0x10000000000000000)
    (sized : positive = true ∨ value ≠ 0 ∧ value ≤ 0x8000000000000000)
    (here : cursor.rest = printNatural value ++ more) (ends : EndsValue more) :
    ∃ after, number positive cursor =
        .ok (.integer (if positive then (value : Int) else -value), after) ∧ after.rest = more := by
  have taken : cursor.rest.takeWhile isDigit = printNatural value := by
    rw [here]
    exact takeWhile_isDigit (fun _ => isDigit_of_mem_printNatural) ends
  have left : cursor.skipDigits.rest = more := by
    simp only [skipDigits, taken]
    simp [here]
  have amount : (digitsAt cursor).foldl (fun value digit => value * 10 + digit) 0 = value := by
    rw [digitsAt, taken]
    exact foldl_printNatural value
  have appended := appendDigits_eq (digitsAt cursor) 0 (amount.symm ▸ fits)
  rw [amount] at appended
  cases printed : printNatural value with
  | nil => exact absurd printed (printNatural_ne_nil value)
  | cons first others =>
      have isRest : cursor.rest = first :: (others ++ more) := by rw [here, printed]; rfl
      have isFirst : isDigit first = true :=
        isDigit_of_mem_printNatural (printed ▸ List.mem_cons_self)
      have noLeadingZero : (decide (first = 48) && decide (1 < (digitsAt cursor).length)) = false := by
        rw [Bool.and_eq_false_imp]
        intro isZero
        obtain rfl := of_decide_eq_true isZero
        obtain rfl := eq_nil_of_leading_zero printed
        simp [digitsAt, taken, printed]
      have whole : (value = 0 || decide (0x8000000000000000 < value)) = true → positive = true := by
        rcases sized with isPositive | ⟨notZero, small⟩
        · exact fun _ => isPositive
        · simp only [Bool.or_eq_true, decide_eq_true_eq]
          omega
      refine ⟨cursor.skipDigits, ?_, left⟩
      rw [number]
      simp only [isRest, isFirst, if_true, noLeadingZero, left, appended, Int.sub_self]
      -- What may follow a value continues no number.
      rcases more with _ | ⟨mark, more⟩
      · cases positive <;> simp_all
      · rcases ends mark rfl with rfl | rfl | rfl <;> cases positive <;> simp_all

/-! ### Strings -/

theorem hexValue?_hexDigit : ∀ digit : Fin 16,
    hexValue? (hexDigit (UInt8.ofNat digit)) = some digit.val := by
  decide

theorem utf8_control : ∀ code : Fin 32, utf8 code = [UInt8.ofNat code] := by
  decide

theorem escape_control {byte : UInt8} (control : byte < 32)
    (here : cursor.rest = 117 :: 48 :: 48 :: hexDigit (byte / 16) :: hexDigit (byte % 16) :: more) :
    ∃ after, escape cursor = .ok ([byte], after) ∧ after.rest = more := by
  have small : byte.toNat < 32 := UInt8.lt_iff_toNat_lt.mp control
  have high : hexValue? (hexDigit (byte / 16)) = some (byte.toNat / 16) := by
    have value := hexValue?_hexDigit ⟨byte.toNat / 16, by omega⟩
    rwa [← UInt8.ofNat_toNat (x := byte / 16), UInt8.toNat_div]
  have low : hexValue? (hexDigit (byte % 16)) = some (byte.toNat % 16) := by
    have value := hexValue?_hexDigit ⟨byte.toNat % 16, by omega⟩
    rwa [← UInt8.ofNat_toNat (x := byte % 16), UInt8.toNat_mod]
  have zero : hexValue? 48 = some 0 := rfl
  have code : ((0 * 16 + 0) * 16 + byte.toNat / 16) * 16 + byte.toNat % 16 = byte.toNat := by omega
  have spelled : utf8 byte.toNat = [byte] := by
    simpa using utf8_control ⟨byte.toNat, small⟩
  have inner := rest_advance here
  refine ⟨cursor.advance.advanceBy 4, ?_, ?_⟩
  · simp only [escape, here, hexEscape, inner, zero, high, low, code, spelled]
    rw [if_neg (by simp; omega), if_neg (by simp; omega)]
  · exact rest_advance (rest_advance (rest_advance (rest_advance inner)))

/-- A printed byte is escaped in a way that is resolved to it, or stands for itself. -/
theorem escaped_cases (byte : UInt8) :
    (∃ code, escaped byte = 92 :: code ∧ ∀ (place : Cursor) (more : Bytes),
        place.rest = code ++ more →
          ∃ after, escape place = .ok ([byte], after) ∧ after.rest = more) ∨
      escaped byte = [byte] ∧ byte ≠ 34 ∧ byte ≠ 92 ∧ ¬byte < 32 := by
  have byLetter : ∀ letter : UInt8,
      (∀ (place : Cursor) (rest : Bytes), place.rest = letter :: rest →
        escape place = .ok ([byte], place.advance)) →
      ∀ (place : Cursor) (more : Bytes), place.rest = [letter] ++ more →
        ∃ after, escape place = .ok ([byte], after) ∧ after.rest = more :=
    fun _ resolves place _ here => ⟨place.advance, resolves place _ here, rest_advance here⟩
  unfold escaped
  split
  · next same => exact .inl ⟨_, rfl, byLetter 34 fun _ _ here => by simp [escape, here, same]⟩
  split
  · next same => exact .inl ⟨_, rfl, byLetter 92 fun _ _ here => by simp [escape, here, same]⟩
  split
  · next same => exact .inl ⟨_, rfl, byLetter 98 fun _ _ here => by simp [escape, here, same]⟩
  split
  · next same => exact .inl ⟨_, rfl, byLetter 116 fun _ _ here => by simp [escape, here, same]⟩
  split
  · next same => exact .inl ⟨_, rfl, byLetter 110 fun _ _ here => by simp [escape, here, same]⟩
  split
  · next same => exact .inl ⟨_, rfl, byLetter 102 fun _ _ here => by simp [escape, here, same]⟩
  split
  · next same => exact .inl ⟨_, rfl, byLetter 114 fun _ _ here => by simp [escape, here, same]⟩
  split
  · next control => exact .inl ⟨_, rfl, fun _ _ here => escape_control control here⟩
  · next noQuote noBackslash _ _ _ _ _ printable =>
      exact .inr ⟨rfl, noQuote, noBackslash, printable⟩

theorem escaped_ne_nil (byte : UInt8) : escaped byte ≠ [] := by
  rcases escaped_cases byte with ⟨code, isCode, _⟩ | ⟨plain, _⟩
  · simp [isCode]
  · simp [plain]

theorem stringBytes_escaped (bytes : Bytes) {rounds : Nat} (enough : bytes.length < rounds)
    (here : cursor.rest = bytes.flatMap escaped ++ 34 :: more) :
    ∃ after, stringBytes rounds cursor = .ok (bytes, after) ∧ after.rest = more := by
  induction bytes generalizing cursor rounds with
  | nil =>
      obtain ⟨rounds, rfl⟩ := Nat.exists_eq_add_one_of_ne_zero (Nat.ne_of_gt enough)
      have isQuote : cursor.rest = 34 :: more := here
      exact ⟨cursor.advance, by simp [stringBytes, isQuote], rest_advance isQuote⟩
  | cons byte bytes ih =>
      obtain ⟨rounds, rfl⟩ := Nat.exists_eq_add_one_of_ne_zero (Nat.ne_of_gt (Nat.zero_lt_of_lt enough))
      have others : bytes.length < rounds := by simpa using enough
      rw [List.flatMap_cons, List.append_assoc] at here
      rcases escaped_cases byte with ⟨code, isCode, resolves⟩ | ⟨plain, noQuote, noBackslash, printable⟩
      · rw [isCode, List.cons_append] at here
        obtain ⟨middle, resolved, left⟩ := resolves _ _ (rest_advance here)
        obtain ⟨after, read, final⟩ := ih others left
        exact ⟨after, by simp [stringBytes, here, resolved, read], final⟩
      · rw [plain, List.singleton_append] at here
        obtain ⟨after, read, final⟩ := ih others (rest_advance here)
        refine ⟨after, ?_, final⟩
        rw [stringBytes]
        simp [here, printable, read]

theorem string_printed (text : String)
    (here : cursor.rest = (Bytes.ofText text).flatMap escaped ++ 34 :: more) :
    ∃ after, string cursor = .ok (text, after) ∧ after.rest = more := by
  have enough : (Bytes.ofText text).length < cursor.rest.length + 1 := by
    have long := length_le_flatMap (Bytes.ofText text) escaped escaped_ne_nil
    rw [here, List.length_append]
    omega
  obtain ⟨after, read, left⟩ := stringBytes_escaped _ enough here
  exact ⟨after, by simp [string, read, Bytes.toText?_ofText], left⟩

end Cursor

end DurableJobs.Json
