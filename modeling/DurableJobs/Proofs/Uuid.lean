import DurableJobs.Bytes
import DurableJobs.Uuid
import Mathlib.Data.List.Induction
import Mathlib.Data.Nat.Digits.Defs

/-!
How identifiers are spelled.

An identifier is 16 bytes. A text spells bytes if it has two digits for each of them, of either case, in
one of four forms. Texts are read by the bytes that they spell and by nothing else; of the texts that
spell the bytes of an identifier, it is written as the one with hyphens and without capital letters.
-/

set_option autoImplicit false

namespace DurableJobs.Uuid

/-! ### Numerals -/

/-- The number that digits make up, the last one the least. -/
def numeral (base : Nat) (digits : List Nat) : Nat :=
  digits.foldl (fun total digit => total * base + digit) 0

theorem numeral_concat (base : Nat) (digits : List Nat) (last : Nat) :
    numeral base (digits ++ [last]) = numeral base digits * base + last := by
  simp [numeral]

theorem numeral_eq_ofDigits (base : Nat) (digits : List Nat) :
    numeral base digits = Nat.ofDigits base digits.reverse := by
  rw [Nat.ofDigits_eq_foldr, List.foldr_reverse, numeral]
  congr 1
  funext total digit
  rw [Nat.mul_comm, Nat.add_comm, Nat.cast_id]

/-- Numerals of one length and one number are the same. -/
theorem numeral_injective {base : Nat} (large : 1 < base) {left right : List Nat}
    (width : left.length = right.length) (isLeft : ∀ digit ∈ left, digit < base)
    (isRight : ∀ digit ∈ right, digit < base) (same : numeral base left = numeral base right) :
    left = right := by
  rw [numeral_eq_ofDigits, numeral_eq_ofDigits] at same
  refine List.reverse_inj.mp (Nat.ofDigits_inj_of_len_eq large ?_ ?_ ?_ same)
  · simpa using width
  · simpa using isLeft
  · simpa using isRight

theorem numeral_lt {base : Nat} (large : 1 < base) {digits : List Nat}
    (isDigit : ∀ digit ∈ digits, digit < base) : numeral base digits < base ^ digits.length := by
  rw [numeral_eq_ofDigits, ← List.length_reverse]
  exact Nat.ofDigits_lt_base_pow_length large (by simpa using isDigit)

/-- The digits of a number make up the number again. -/
theorem numeral_digits (base width value : Nat) :
    numeral base ((List.range width).map fun place => value / base ^ (width - 1 - place) % base) =
      value % base ^ width := by
  induction width generalizing value with
  | zero => simp [numeral, Nat.mod_one]
  | succ width ih =>
      have others : ((List.range width).map fun place =>
          value / base ^ (width + 1 - 1 - place) % base) =
          (List.range width).map fun place =>
            value / base / base ^ (width - 1 - place) % base := by
        refine List.map_congr_left fun place member => ?_
        have inside := List.mem_range.mp member
        have shift : width + 1 - 1 - place = (width - 1 - place) + 1 := by omega
        rw [shift, Nat.div_div_eq_div_mul, Nat.pow_succ, Nat.mul_comm]
      have last : width + 1 - 1 - width = 0 := by omega
      rw [List.range_succ, List.map_append, others, List.map_singleton, numeral_concat, ih, last,
        Nat.pow_zero, Nat.div_one, Nat.pow_succ, Nat.mul_comm (base ^ width), Nat.mod_mul,
        Nat.mul_comm base, Nat.add_comm]

/-! ### Bytes -/

/-- The bytes of the identifier, the highest first. -/
def bytes (id : Uuid) : Bytes :=
  (List.range 16).map fun place => UInt8.ofNat (id.value / 256 ^ (15 - place))

/-- The two digits of each byte. -/
def nibbles (bytes : Bytes) : List Nat :=
  bytes.flatMap fun byte => [byte.toNat / 16, byte.toNat % 16]

@[simp] theorem length_bytes (id : Uuid) : id.bytes.length = 16 := by
  simp [bytes]

@[simp] theorem length_digits (id : Uuid) : id.digits.length = 32 := by
  simp [digits]

theorem length_nibbles (bytes : Bytes) : (nibbles bytes).length = 2 * bytes.length := by
  induction bytes with
  | nil => rfl
  | cons byte rest ih =>
      have split : nibbles (byte :: rest) = byte.toNat / 16 :: byte.toNat % 16 :: nibbles rest := rfl
      simp only [split, List.length_cons, ih]
      omega

theorem nibble_lt {bytes : Bytes} : ∀ digit ∈ nibbles bytes, digit < 16 := by
  intro digit member
  obtain ⟨byte, _, isDigit⟩ := List.mem_flatMap.mp member
  have small := byte.toNat_lt
  simp only [List.mem_cons, List.not_mem_nil, or_false] at isDigit
  omega

theorem byte_lt (bytes : Bytes) : ∀ byte ∈ bytes.map UInt8.toNat, byte < 256 := by
  intro byte member
  obtain ⟨byte, _, rfl⟩ := List.mem_map.mp member
  exact byte.toNat_lt

theorem digit_lt {id : Uuid} : ∀ digit ∈ id.digits, digit < 16 := by
  intro digit member
  obtain ⟨place, _, rfl⟩ := List.mem_map.mp member
  exact Nat.mod_lt _ (by decide)

theorem numeral_nibbles (bytes : Bytes) :
    numeral 16 (nibbles bytes) = numeral 256 (bytes.map UInt8.toNat) := by
  induction bytes using List.reverseRecOn with
  | nil => rfl
  | append_singleton bytes byte ih =>
      have split : nibbles (bytes ++ [byte]) =
          nibbles bytes ++ [byte.toNat / 16] ++ [byte.toNat % 16] := by
        simp [nibbles]
      rw [split, numeral_concat, numeral_concat, ih, List.map_append, List.map_singleton,
        numeral_concat]
      omega

theorem numeral_digits_value (id : Uuid) : numeral 16 id.digits = id.value := by
  have all := numeral_digits 16 32 id.value
  rw [Nat.mod_eq_of_lt (by simpa using id.lt_limit)] at all
  exact all

theorem numeral_bytes_value (id : Uuid) : numeral 256 (id.bytes.map UInt8.toNat) = id.value := by
  have all := numeral_digits 256 16 id.value
  rw [Nat.mod_eq_of_lt (by simpa using id.lt_limit)] at all
  rw [← all, bytes, List.map_map]
  rfl

theorem digits_eq_nibbles (id : Uuid) : id.digits = nibbles id.bytes := by
  refine numeral_injective (by decide) ?_ digit_lt nibble_lt ?_
  · rw [length_nibbles, length_bytes, length_digits]
  · rw [numeral_nibbles, numeral_digits_value, numeral_bytes_value]

theorem value_injective {left right : Uuid} (same : left.value = right.value) : left = right := by
  cases left
  cases right
  simpa using same

theorem ofNat_value (id : Uuid) : ofNat id.value = id :=
  value_injective (Nat.mod_eq_of_lt id.lt_limit)

/-- Any 16 bytes are those of an identifier. -/
theorem exists_bytes_eq {bytes : Bytes} (width : bytes.length = 16) :
    ∃ id : Uuid, id.bytes = bytes := by
  have small := numeral_lt (by decide) (byte_lt bytes)
  rw [List.length_map, width] at small
  refine ⟨⟨numeral 256 (bytes.map UInt8.toNat), small⟩, ?_⟩
  refine (List.map_inj_right fun _ _ => UInt8.toNat_inj.mp).mp ?_
  exact numeral_injective (by decide) (by simp [width]) (byte_lt _) (byte_lt _)
    (numeral_bytes_value _)

/-! ### Digits -/

/-- The character is the digit, of either case. -/
def SpellsDigit (character : Char) (digit : Nat) : Prop :=
  ∃ small, "0123456789abcdef".toList[digit]? = some small ∧
    (character = small ∨ character = small.toUpper)

/-- Two characters for each byte, its higher digit first. -/
inductive SpellsBytes : List Char → Bytes → Prop where
  | nil : SpellsBytes [] []
  | cons {high low : Char} {byte : UInt8} {characters : List Char} {bytes : Bytes}
      (isHigh : SpellsDigit high (byte.toNat / 16)) (isLow : SpellsDigit low (byte.toNat % 16))
      (rest : SpellsBytes characters bytes) : SpellsBytes (high :: low :: characters) (byte :: bytes)

theorem spellsDigit_iff {character : Char} {digit : Nat} :
    SpellsDigit character digit ↔ digit < 16 ∧
      (character = digitCharacter digit ∨ character = (digitCharacter digit).toUpper) := by
  have table : "0123456789abcdef".toList = (List.range 16).map digitCharacter := by decide
  rw [SpellsDigit, table]
  by_cases small : digit < 16
  · simp [small]
  · simp [small]

theorem digitValue?_digitCharacter {digit : Nat} (small : digit < 16) :
    digitValue? (digitCharacter digit) = some digit ∧
      digitValue? (digitCharacter digit).toUpper = some digit := by
  have all : ∀ digit < 16, digitValue? (digitCharacter digit) = some digit ∧
    digitValue? (digitCharacter digit).toUpper = some digit := by decide
  exact all digit small

theorem digitValue?_eq_some_iff {character : Char} {digit : Nat} :
    digitValue? character = some digit ↔ SpellsDigit character digit := by
  rw [spellsDigit_iff]
  constructor
  · intro isValue
    have codes : ∀ code < 103, ∀ digit ∈ digitValue? (Char.ofNat code), digit < 16 ∧
        (Char.ofNat code = digitCharacter digit ∨
          Char.ofNat code = (digitCharacter digit).toUpper) := by
      decide +kernel
    have small : character.toNat < 103 := by
      unfold digitValue? at isValue
      split at isValue
      · next isNumber => exact Nat.lt_of_le_of_lt isNumber.2 (by decide)
      split at isValue
      · next isSmall => exact Nat.lt_of_le_of_lt isSmall.2 (by decide)
      split at isValue
      · next isCapital => exact Nat.lt_of_le_of_lt isCapital.2 (by decide)
      · cases isValue
    have isCharacter := Char.ofNat_toNat character
    have spelled := codes character.toNat small digit
    rw [isCharacter] at spelled
    exact spelled isValue
  · rintro ⟨small, rfl | rfl⟩
    · exact (digitValue?_digitCharacter small).1
    · exact (digitValue?_digitCharacter small).2

theorem mapM_digitValue? {digits : List Nat} (small : ∀ digit ∈ digits, digit < 16) :
    (digits.map digitCharacter).mapM digitValue? = some digits := by
  induction digits with
  | nil => rfl
  | cons digit rest ih =>
      rw [List.map_cons, List.mapM_cons,
        (digitValue?_digitCharacter (small digit List.mem_cons_self)).1,
        ih fun other later => small other (List.mem_cons_of_mem _ later)]
      rfl

theorem mapM_cons_eq_some_iff {character : Char} {characters : List Char} {digits : List Nat} :
    (character :: characters).mapM digitValue? = some digits ↔
      ∃ digit rest, digitValue? character = some digit ∧ characters.mapM digitValue? = some rest ∧
        digits = digit :: rest := by
  rw [List.mapM_cons, Option.bind_eq_bind, Option.bind_eq_some_iff]
  refine exists_congr fun digit => ?_
  rw [Option.bind_eq_bind, Option.bind_eq_some_iff, ← exists_and_left]
  exact exists_congr fun rest => and_congr_right' (and_congr_right' (by simp [eq_comm]))

theorem digit_lt_of_mapM {characters : List Char} {digits : List Nat}
    (read : characters.mapM digitValue? = some digits) : ∀ digit ∈ digits, digit < 16 := by
  induction characters generalizing digits with
  | nil =>
      obtain rfl : [] = digits := Option.some.inj read
      simp
  | cons character rest ih =>
      obtain ⟨digit, others, isDigit, areDigits, rfl⟩ := mapM_cons_eq_some_iff.mp read
      have small := (spellsDigit_iff.mp (digitValue?_eq_some_iff.mp isDigit)).1
      exact List.forall_mem_cons.mpr ⟨small, ih areDigits⟩

theorem spellsBytes_iff {characters : List Char} {bytes : Bytes} :
    SpellsBytes characters bytes ↔ characters.mapM digitValue? = some (nibbles bytes) := by
  have split (byte : UInt8) (rest : Bytes) :
      nibbles (byte :: rest) = byte.toNat / 16 :: byte.toNat % 16 :: nibbles rest := rfl
  constructor
  · intro spelled
    induction spelled with
    | nil => rfl
    | cons isHigh isLow _ ih =>
        rw [split]
        refine mapM_cons_eq_some_iff.mpr ⟨_, _, digitValue?_eq_some_iff.mpr isHigh, ?_, rfl⟩
        exact mapM_cons_eq_some_iff.mpr ⟨_, _, digitValue?_eq_some_iff.mpr isLow, ih, rfl⟩
  · intro read
    induction bytes generalizing characters with
    | nil =>
        cases characters with
        | nil => exact .nil
        | cons character rest =>
            obtain ⟨_, _, _, _, none⟩ := mapM_cons_eq_some_iff.mp read
            cases none
    | cons byte bytes ih =>
        rw [split] at read
        cases characters with
        | nil => cases read
        | cons high characters =>
            obtain ⟨_, _, isHigh, others, same⟩ := mapM_cons_eq_some_iff.mp read
            obtain ⟨rfl, rfl⟩ := List.cons.inj same
            cases characters with
            | nil => cases others
            | cons low characters =>
                obtain ⟨_, _, isLow, rest, same⟩ := mapM_cons_eq_some_iff.mp others
                obtain ⟨rfl, rfl⟩ := List.cons.inj same
                exact .cons (digitValue?_eq_some_iff.mp isHigh) (digitValue?_eq_some_iff.mp isLow)
                  (ih rest)

theorem length_of_mapM {characters : List Char} {digits : List Nat}
    (read : characters.mapM digitValue? = some digits) : characters.length = digits.length := by
  induction characters generalizing digits with
  | nil =>
      obtain rfl : [] = digits := Option.some.inj read
      rfl
  | cons character rest ih =>
      obtain ⟨_, _, _, others, rfl⟩ := mapM_cons_eq_some_iff.mp read
      exact congrArg (· + 1) (ih others)

theorem SpellsBytes.length_eq {characters : List Char} {bytes : Bytes}
    (spelled : SpellsBytes characters bytes) : characters.length = 2 * bytes.length :=
  (length_of_mapM (spellsBytes_iff.mp spelled)).trans (length_nibbles bytes)

/-- 32 digits are read as the identifier whose bytes they spell. -/
theorem ofDigits?_eq_some_iff {characters : List Char} {id : Uuid} :
    ofDigits? characters = some id ↔ SpellsBytes characters id.bytes := by
  rw [spellsBytes_iff, ← digits_eq_nibbles, ofDigits?]
  constructor
  · intro read
    obtain ⟨digits, areDigits, rest⟩ := Option.bind_eq_some_iff.mp read
    split at rest
    · next width =>
        obtain rfl := Option.some.inj rest
        have isDigit := digit_lt_of_mapM areDigits
        have small := numeral_lt (by decide) isDigit
        rw [width] at small
        have value : (ofNat (numeral 16 digits)).value = numeral 16 digits := Nat.mod_eq_of_lt small
        refine areDigits.trans (congrArg some ?_)
        refine numeral_injective (by decide) (by simp [width]) isDigit digit_lt ?_
        rw [numeral_digits_value]
        exact value.symm
    · cases rest
  · intro read
    have value : ofNat (numeral 16 id.digits) = id := by rw [numeral_digits_value, ofNat_value]
    simp only [read, Option.bind_eq_bind, Option.bind_some, length_digits, if_true]
    exact congrArg some value

/-! ### Forms -/

/-- The text is the digits in groups of 8, 4, 4, 4 and 12, with hyphens between. -/
def Hyphenates (text digits : List Char) : Prop :=
  ∃ first second third fourth fifth : List Char, first.length = 8 ∧ second.length = 4 ∧
    third.length = 4 ∧ fourth.length = 4 ∧ fifth.length = 12 ∧
    digits = first ++ second ++ third ++ fourth ++ fifth ∧
    text = first ++ '-' :: second ++ '-' :: third ++ '-' :: fourth ++ '-' :: fifth

/-- The ways to write digits: as they are, with hyphens, with hyphens and in braces, and with hyphens
and after the scheme. -/
inductive Writes (digits : List Char) : List Char → Prop where
  | plain : Writes digits digits
  | hyphenated {text : List Char} (groups : Hyphenates text digits) : Writes digits text
  | braced {text : List Char} (groups : Hyphenates text digits) :
      Writes digits ('\x7b' :: text ++ ['\x7d'])
  | urn {scheme text : List Char} (isScheme : scheme.map Char.toLower = "urn:uuid:".toList)
      (groups : Hyphenates text digits) : Writes digits (scheme ++ text)

/-- The text spells 16 bytes in one of the forms, each digit of either case. -/
def Spells (text : List Char) (bytes : Bytes) : Prop :=
  bytes.length = 16 ∧ ∃ digits, Writes digits text ∧ SpellsBytes digits bytes

theorem Hyphenates.length_eq {text digits : List Char} (groups : Hyphenates text digits) :
    text.length = 36 ∧ digits.length = 32 := by
  obtain ⟨_, _, _, _, _, one, two, three, four, five, rfl, rfl⟩ := groups
  simp [one, two, three, four, five]

theorem drop_eq_cons_of_getElem? {characters : List Char} {place : Nat} {character : Char}
    (isThere : characters[place]? = some character) :
    characters.drop place = character :: characters.drop (place + 1) := by
  obtain ⟨inside, rfl⟩ := List.getElem?_eq_some_iff.mp isThere
  exact List.drop_eq_getElem_cons inside

theorem drop_eq_take_append (characters : List Char) (start count : Nat) :
    characters.drop start = (characters.drop start).take count ++ characters.drop (start + count) := by
  rw [← List.drop_drop, List.take_append_drop]

theorem ungrouped?_eq_some_iff {text digits : List Char} :
    ungrouped? text = some digits ↔ Hyphenates text digits := by
  constructor
  · intro read
    unfold ungrouped? at read
    split at read
    · next found =>
        obtain ⟨width, first, second, third, fourth⟩ := found
        refine ⟨_, _, _, _, _, ?_, ?_, ?_, ?_, ?_, (Option.some.inj read).symm, ?_⟩
        any_goals simp [width]
        rw [← drop_eq_cons_of_getElem? fourth, ← drop_eq_take_append text 19 4,
          ← drop_eq_cons_of_getElem? third, ← drop_eq_take_append text 14 4,
          ← drop_eq_cons_of_getElem? second, ← drop_eq_take_append text 9 4,
          ← drop_eq_cons_of_getElem? first, List.take_append_drop]
    · cases read
  · rintro ⟨_, _, _, _, _, one, two, three, four, five, rfl, rfl⟩
    simp [ungrouped?, List.drop_append, one, two, three, four, five, List.drop_eq_nil_of_le]

theorem Hyphenates.eq_grouped {text digits : List Char} (groups : Hyphenates text digits) :
    text = grouped digits := by
  obtain ⟨_, _, _, _, _, one, two, three, four, five, rfl, rfl⟩ := groups
  simp [grouped, List.drop_append, one, two, three, four, List.drop_eq_nil_of_le]

theorem hyphenates_grouped {digits : List Char} (width : digits.length = 32) :
    Hyphenates (grouped digits) digits := by
  refine ⟨_, _, _, _, _, ?_, ?_, ?_, ?_, ?_, ?_, rfl⟩
  any_goals simp [width]
  rw [← drop_eq_take_append digits 16 4, ← drop_eq_take_append digits 12 4,
    ← drop_eq_take_append digits 8 4, List.take_append_drop]

theorem bind_ungrouped?_eq_some_iff {text : List Char} {id : Uuid} :
    (ungrouped? text).bind ofDigits? = some id ↔
      ∃ digits, Hyphenates text digits ∧ SpellsBytes digits id.bytes := by
  simp only [Option.bind_eq_some_iff, ungrouped?_eq_some_iff, ofDigits?_eq_some_iff]

theorem exists_of_braces {text : List Char} (long : 1 < text.length)
    (opens : text.head? = some '\x7b') (closes : text.getLast? = some '\x7d') :
    ∃ inner, text = '\x7b' :: inner ++ ['\x7d'] := by
  obtain ⟨rest, rfl⟩ := List.head?_eq_some_iff.mp opens
  obtain ⟨front, split⟩ := List.getLast?_eq_some_iff.mp closes
  cases front with
  | nil => simp [split] at long
  | cons first inner =>
      obtain ⟨rfl, rfl⟩ := List.cons.inj split
      exact ⟨inner, rfl⟩

theorem length_of_isScheme {scheme : List Char}
    (isScheme : scheme.map Char.toLower = "urn:uuid:".toList) : scheme.length = 9 := by
  have letters := congrArg List.length isScheme
  rw [List.length_map] at letters
  exact letters.trans (by decide)

/-- A text is read as the identifier whose bytes it spells. -/
theorem ofText?_eq_some_iff {text : String} {id : Uuid} :
    ofText? text = some id ↔ Spells text.toList id.bytes := by
  unfold ofText?
  generalize text.toList = characters
  constructor
  · intro read
    refine ⟨length_bytes id, ?_⟩
    dsimp only at read
    split at read
    · exact ⟨characters, .plain, ofDigits?_eq_some_iff.mp read⟩
    · obtain ⟨digits, groups, spelled⟩ := bind_ungrouped?_eq_some_iff.mp read
      exact ⟨digits, .hyphenated groups, spelled⟩
    · next width =>
        split at read
        · next braces =>
            obtain ⟨inner, rfl⟩ := exists_of_braces (by omega) braces.1 braces.2
            have whole : (('\x7b' :: inner ++ ['\x7d']).drop 1).take 36 = inner := by
              rw [List.cons_append, List.drop_one, List.tail_cons]
              exact List.take_left' (by simpa using width)
            rw [whole] at read
            obtain ⟨digits, groups, spelled⟩ := bind_ungrouped?_eq_some_iff.mp read
            exact ⟨digits, .braced groups, spelled⟩
        · cases read
    · next width =>
        split at read
        · next isScheme =>
            obtain ⟨digits, groups, spelled⟩ := bind_ungrouped?_eq_some_iff.mp read
            have writes := Writes.urn isScheme groups
            rw [List.take_append_drop] at writes
            exact ⟨digits, writes, spelled⟩
        · cases read
    · cases read
  · rintro ⟨width, digits, writes, spelled⟩
    cases writes with
    | plain =>
        have width := spelled.length_eq
        rw [length_bytes] at width
        simp only [width]
        exact ofDigits?_eq_some_iff.mpr spelled
    | hyphenated groups =>
        simp only [groups.length_eq.1]
        exact bind_ungrouped?_eq_some_iff.mpr ⟨digits, groups, spelled⟩
    | @braced inner groups =>
        have width := groups.length_eq.1
        have read := bind_ungrouped?_eq_some_iff.mpr ⟨digits, groups, spelled⟩
        have closes : ('\x7b' :: (inner ++ ['\x7d'])).getLast? = some '\x7d' := by
          rw [← List.cons_append, List.getLast?_concat]
        simp [width, read, closes]
    | @urn scheme inner isScheme groups =>
        have width := length_of_isScheme isScheme
        have read := bind_ungrouped?_eq_some_iff.mpr ⟨digits, groups, spelled⟩
        simp only [List.length_append, width, groups.length_eq.1]
        rw [List.take_left' width, List.drop_left' width]
        exact (if_pos isScheme).trans read

theorem exists_ofText?_iff {text : String} :
    (∃ id, ofText? text = some id) ↔ ∃ bytes, Spells text.toList bytes := by
  constructor
  · rintro ⟨id, read⟩
    exact ⟨id.bytes, ofText?_eq_some_iff.mp read⟩
  · rintro ⟨bytes, spells⟩
    obtain ⟨id, rfl⟩ := exists_bytes_eq spells.1
    exact ⟨id, ofText?_eq_some_iff.mpr spells⟩

/-- Two texts are read as one identifier exactly if they spell the same bytes. -/
theorem eq_iff_spells {left right : String} {first second : Uuid}
    (isFirst : ofText? left = some first) (isSecond : ofText? right = some second) :
    first = second ↔ ∃ bytes, Spells left.toList bytes ∧ Spells right.toList bytes := by
  constructor
  · rintro rfl
    exact ⟨first.bytes, ofText?_eq_some_iff.mp isFirst, ofText?_eq_some_iff.mp isSecond⟩
  · rintro ⟨bytes, spellsLeft, spellsRight⟩
    obtain ⟨id, rfl⟩ := exists_bytes_eq spellsLeft.1
    have leftId := ofText?_eq_some_iff.mpr spellsLeft
    have rightId := ofText?_eq_some_iff.mpr spellsRight
    exact (Option.some.inj (isFirst.symm.trans leftId)).trans
      (Option.some.inj (rightId.symm.trans isSecond))

/-! ### The form that is written -/

/-- The text spells the bytes with hyphens and without capital letters. -/
def IsCanonical (text : List Char) (bytes : Bytes) : Prop :=
  (∃ digits, Hyphenates text digits ∧ SpellsBytes digits bytes) ∧
    ∀ character ∈ text, character.isUpper = false

theorem toList_text (id : Uuid) : id.text.toList = grouped (id.digits.map digitCharacter) :=
  String.toList_ofList

theorem spellsBytes_digits (id : Uuid) :
    SpellsBytes (id.digits.map digitCharacter) id.bytes := by
  rw [spellsBytes_iff, mapM_digitValue? digit_lt, digits_eq_nibbles]

theorem hyphenates_text (id : Uuid) :
    Hyphenates id.text.toList (id.digits.map digitCharacter) := by
  rw [toList_text]
  exact hyphenates_grouped (by simp)

theorem Hyphenates.mem {text digits : List Char} (groups : Hyphenates text digits)
    {character : Char} : character ∈ text ↔ character ∈ digits ∨ character = '-' := by
  obtain ⟨_, _, _, _, _, _, _, _, _, _, rfl, rfl⟩ := groups
  simp only [List.mem_append, List.mem_cons]
  tauto

theorem isUpper_digitCharacter {digit : Nat} (small : digit < 16) :
    (digitCharacter digit).isUpper = false := by
  have all : ∀ digit < 16, (digitCharacter digit).isUpper = false := by decide
  exact all digit small

/-- A digit that is no capital letter is the one that is written. -/
theorem eq_digitCharacter {character : Char} {digit : Nat}
    (isDigit : digitValue? character = some digit) (isSmall : character.isUpper = false) :
    character = digitCharacter digit := by
  obtain ⟨small, rfl | rfl⟩ := spellsDigit_iff.mp (digitValue?_eq_some_iff.mp isDigit)
  · rfl
  · have all : ∀ digit < 16, (digitCharacter digit).toUpper.isUpper = false →
        (digitCharacter digit).toUpper = digitCharacter digit := by decide
    exact all digit small isSmall

theorem eq_map_digitCharacter {characters : List Char} {digits : List Nat}
    (read : characters.mapM digitValue? = some digits)
    (areSmall : ∀ character ∈ characters, character.isUpper = false) :
    characters = digits.map digitCharacter := by
  induction characters generalizing digits with
  | nil =>
      obtain rfl : [] = digits := Option.some.inj read
      rfl
  | cons character rest ih =>
      obtain ⟨digit, others, isDigit, areDigits, rfl⟩ := mapM_cons_eq_some_iff.mp read
      obtain ⟨isSmall, othersSmall⟩ := List.forall_mem_cons.mp areSmall
      rw [List.map_cons, ← eq_digitCharacter isDigit isSmall, ← ih areDigits othersSmall]

/-- Of all texts, one is the canonical form of an identifier: the one that is written. -/
theorem isCanonical_iff {text : String} {id : Uuid} :
    IsCanonical text.toList id.bytes ↔ text = id.text := by
  constructor
  · rintro ⟨⟨digits, groups, spelled⟩, areSmall⟩
    rw [spellsBytes_iff, ← digits_eq_nibbles] at spelled
    have small : ∀ character ∈ digits, character.isUpper = false :=
      fun character member => areSmall character (groups.mem.mpr (.inl member))
    obtain rfl := eq_map_digitCharacter spelled small
    rw [← String.toList_inj, groups.eq_grouped, toList_text]
  · rintro rfl
    refine ⟨⟨_, hyphenates_text id, spellsBytes_digits id⟩, fun character member => ?_⟩
    rcases (hyphenates_text id).mem.mp member with isDigit | rfl
    · obtain ⟨digit, isPlaced, rfl⟩ := List.mem_map.mp isDigit
      exact isUpper_digitCharacter (digit_lt digit isPlaced)
    · decide

theorem ofText?_text (id : Uuid) : ofText? id.text = some id :=
  ofText?_eq_some_iff.mpr
    ⟨length_bytes id, _, .hyphenated (hyphenates_text id), spellsBytes_digits id⟩

theorem text_injective {left right : Uuid} (same : left.text = right.text) : left = right := by
  have both := congrArg ofText? same
  rw [ofText?_text, ofText?_text] at both
  exact Option.some.inj both

end DurableJobs.Uuid
