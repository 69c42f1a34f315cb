import DurableJobs.Proofs.Json.Tokens
import DurableJobs.Json.Reader

/-!
Printed documents are read back.

Each reader reads what is printed for a value of its type as that value. An array is read back if its
items are; a record if each of its fields is, whose reader changes the draft of the record in its turn.
-/

set_option autoImplicit false

namespace DurableJobs.Json

theorem Reads.map {Value Result : Type} {depth : Nat} {bytes : Bytes} {read : Reader Value}
    {value : Value}
    (reads : Reads (read depth) bytes value) (convert : Value → Result) :
    Reads (Reader.map convert read depth) bytes (convert value) := by
  intro cursor more here ends
  obtain ⟨after, isRead, left⟩ := reads cursor more here ends
  exact ⟨after, by simp [Reader.map, isRead, Except.map], left⟩

/-- The bytes begin with a mark, and one that differs from the given one. -/
def OpensBeside (other : UInt8) (bytes : Bytes) : Prop :=
  ∃ mark rest, bytes = mark :: rest ∧ 32 < mark ∧ mark ≠ other

namespace Reader

variable {Value : Type} {depth : Nat} {cursor : Cursor} {byte : UInt8} {bytes rest more : Bytes}

theorem atValue_of_mark (read : UInt8 → Cursor → Reading Value) (here : cursor.rest = byte :: rest)
    (mark : 32 < byte) : atValue read cursor = read byte cursor := by
  simp only [atValue, Cursor.skipBlanks_of_mark here mark, here]

/-! ### Scalars -/

theorem reads_unit (depth : Nat) : Reads (unit depth) (print .null) () := by
  intro cursor more here _
  have isRest : cursor.rest = 110 :: (restOfNull ++ more) := here
  obtain ⟨after, named, left⟩ := Cursor.nameRest_append restOfNull (Cursor.rest_advance isRest)
  refine ⟨after, ?_, left⟩
  simp [unit, atValue_of_mark _ isRest (by decide), named, Except.map]

theorem reads_boolean (depth : Nat) (value : Bool) :
    Reads (boolean depth) (print (.boolean value)) value := by
  intro cursor more here _
  cases value with
  | true =>
      have isRest : cursor.rest = 116 :: (restOfTrue ++ more) := here
      obtain ⟨after, named, left⟩ := Cursor.nameRest_append restOfTrue (Cursor.rest_advance isRest)
      refine ⟨after, ?_, left⟩
      simp [boolean, atValue_of_mark _ isRest (by decide), named, Except.map]
  | false =>
      have isRest : cursor.rest = 102 :: (restOfFalse ++ more) := here
      obtain ⟨after, named, left⟩ := Cursor.nameRest_append restOfFalse (Cursor.rest_advance isRest)
      refine ⟨after, ?_, left⟩
      simp [boolean, atValue_of_mark _ isRest (by decide), named, Except.map]

theorem reads_text (depth : Nat) (value : String) :
    Reads (text depth) (print (.text value)) value := by
  intro cursor more here _
  have isRest : cursor.rest = 34 :: ((Bytes.ofText value).flatMap escaped ++ 34 :: more) := by
    simpa [print, printText] using here
  obtain ⟨after, read, left⟩ := Cursor.string_printed value (Cursor.rest_advance isRest)
  exact ⟨after, by simp [text, atValue_of_mark _ isRest (by decide), read], left⟩

theorem exists_digit_of_printNatural (value : Nat) :
    ∃ digit digits, printNatural value = digit :: digits ∧ Cursor.isDigit digit = true := by
  cases printed : printNatural value with
  | nil => exact absurd printed (Cursor.printNatural_ne_nil value)
  | cons digit digits =>
      exact ⟨digit, digits, rfl, Cursor.isDigit_of_mem_printNatural (printed ▸ List.mem_cons_self)⟩

theorem mark_of_isDigit (isDigit : Cursor.isDigit byte = true) : 32 < byte ∧ byte < 58 := by
  simp only [Cursor.isDigit, Bool.and_eq_true, decide_eq_true_eq, UInt8.le_iff_toNat_le] at isDigit
  simp only [UInt8.lt_iff_toNat_lt]
  exact ⟨Nat.lt_of_lt_of_le (by decide) isDigit.1, Nat.lt_of_le_of_lt isDigit.2 (by decide)⟩

theorem reads_integer (depth : Nat) {low high value : Int} (wanted : String) (above : low ≤ value)
    (below : value ≤ high) (fitsBelow : -0x8000000000000000 ≤ low)
    (fitsAbove : high < 0x10000000000000000) :
    Reads (integer low high wanted depth) (print (.integer value)) value := by
  intro cursor more here ends
  by_cases negative : value < 0
  · have isRest : cursor.rest = 45 :: (printNatural value.natAbs ++ more) := by
      simpa [print, printInteger, negative] using here
    obtain ⟨after, read, left⟩ := Cursor.number_printNatural value.natAbs false (by omega)
      (.inr (by omega)) (Cursor.rest_advance isRest) ends
    have isValue : -(value.natAbs : Int) = value := by omega
    refine ⟨after, ?_, left⟩
    simp only [Bool.false_eq_true, if_false, isValue] at read
    simp [integer, atValue_of_mark _ isRest (by decide), read, above, below]
  · have isRest : cursor.rest = printNatural value.natAbs ++ more := by
      simpa [print, printInteger, negative] using here
    obtain ⟨after, read, left⟩ := Cursor.number_printNatural value.natAbs true (by omega)
      (.inl rfl) isRest ends
    obtain ⟨digit, digits, printed, isDigit⟩ := exists_digit_of_printNatural value.natAbs
    rw [printed, List.cons_append] at isRest
    have noSign : digit ≠ 45 := by rintro rfl; cases isDigit
    have isValue : (value.natAbs : Int) = value := by omega
    refine ⟨after, ?_, left⟩
    simp only [if_true, isValue] at read
    simp [integer, atValue_of_mark _ isRest (mark_of_isDigit isDigit).1, isDigit, noSign, read, above,
      below]

theorem reads_natural (depth : Nat) {limit value : Nat} (wanted : String) (fits : value < limit)
    (small : limit ≤ 0x10000000000000000) :
    Reads (natural limit wanted depth) (print (.integer value)) value :=
  (reads_integer depth wanted (by omega) (by omega) (by decide) (by omega)).map Int.toNat

theorem reads_optional {read : Reader Value} {encode : Value → Json} (value : Option Value)
    (reads : ∀ held ∈ value, Reads (read depth) (print (encode held)) held)
    (opens : ∀ held ∈ value, OpensBeside 110 (print (encode held))) :
    Reads (optional read depth) (print (.ofOption encode value)) value := by
  intro cursor more here ends
  cases value with
  | none =>
      have isRest : cursor.rest = 110 :: (restOfNull ++ more) := here
      obtain ⟨after, named, left⟩ := Cursor.nameRest_append restOfNull (Cursor.rest_advance isRest)
      refine ⟨after, ?_, left⟩
      simp [optional, Cursor.skipBlanks_of_mark isRest (by decide), isRest, named, Except.map]
  | some held =>
      obtain ⟨mark, rest, printed, isMark, noName⟩ := opens held rfl
      obtain ⟨after, read, left⟩ := reads held rfl cursor more here ends
      have isRest : cursor.rest = mark :: (rest ++ more) := by
        rw [here, ofOption, printed]
        rfl
      refine ⟨after, ?_, left⟩
      simp only [optional, Cursor.skipBlanks_of_mark isRest isMark, isRest]
      simp [noName, read, Except.map]

/-! ### Arrays -/

theorem nextItem_false (first : Bool) (here : cursor.rest = 93 :: more) :
    nextItem first cursor = .ok (false, cursor) := by
  simp [nextItem, Cursor.skipBlanks_of_mark here (by decide), here]

theorem nextItem_first (here : cursor.rest = bytes ++ more) (opens : OpensBeside 93 bytes) :
    nextItem true cursor = .ok (true, cursor) := by
  obtain ⟨mark, rest, rfl, isMark, isOther⟩ := opens
  simp [nextItem, Cursor.skipBlanks_of_mark here isMark, here]

theorem nextItem_comma (here : cursor.rest = 44 :: (bytes ++ more)) (opens : OpensBeside 93 bytes) :
    nextItem false cursor = .ok (true, cursor.advance) := by
  obtain ⟨mark, rest, rfl, isMark, isOther⟩ := opens
  have later := Cursor.rest_advance here
  simp [nextItem, Cursor.skipBlanks_of_mark here (by decide), here,
    Cursor.skipBlanks_of_mark later isMark, later, isOther]

theorem closeArray_eq (here : cursor.rest = 93 :: more) :
    closeArray cursor = (.ok cursor.advance, cursor.advance) := by
  simp [closeArray, Cursor.skipBlanks_of_mark here (by decide), here]

section Items

variable {read : Cursor → Reading Value} {encode : Value → Json} {values : List Value}

theorem printItems_cons (item : Json) (rest : List Json) :
    printItems (item :: rest) = print item ++ rest.flatMap fun other => 44 :: print other := by
  induction rest generalizing item with
  | nil => simp [printItems]
  | cons other rest ih => simp [printItems, ih]

theorem endsValue_items (values : List Value) :
    EndsValue (values.flatMap (fun value => 44 :: print (encode value)) ++ 93 :: more) := by
  cases values with
  | nil => exact endsValue_bracket more
  | cons value values => exact endsValue_comma _

theorem items_printed (reads : ∀ value ∈ values, Reads read (print (encode value)) value)
    (opens : ∀ value ∈ values, OpensBeside 93 (print (encode value))) {rounds : Nat}
    (enough : values.length < rounds)
    (here : cursor.rest = values.flatMap (fun value => 44 :: print (encode value)) ++ 93 :: more) :
    ∃ after, items read rounds false cursor = .ok (values, after) ∧ after.rest = 93 :: more := by
  induction values generalizing cursor rounds with
  | nil =>
      obtain ⟨rounds, rfl⟩ := Nat.exists_eq_add_one_of_ne_zero (Nat.ne_of_gt enough)
      exact ⟨cursor, by simp [items, nextItem_false false here], here⟩
  | cons value values ih =>
      obtain ⟨rounds, rfl⟩ :=
        Nat.exists_eq_add_one_of_ne_zero (Nat.ne_of_gt (Nat.zero_lt_of_lt enough))
      rw [List.flatMap_cons, List.append_assoc, List.cons_append] at here
      have next := nextItem_comma here (opens value List.mem_cons_self)
      obtain ⟨middle, isRead, left⟩ := reads value List.mem_cons_self cursor.advance _
        (Cursor.rest_advance here) (endsValue_items values)
      obtain ⟨after, others, final⟩ := ih
        (fun other member => reads other (List.mem_cons_of_mem _ member))
        (fun other member => opens other (List.mem_cons_of_mem _ member))
        (by simpa using enough) left
      exact ⟨after, by simp [items, next, isRead, others], final⟩

end Items

theorem reads_list {read : Reader Value} {encode : Value → Json} {values : List Value}
    (reads : ∀ value ∈ values, Reads (read (depth + 1)) (print (encode value)) value)
    (opens : ∀ value ∈ values, OpensBeside 93 (print (encode value))) :
    Reads (list read (depth + 2)) (print (.array (values.map encode))) values := by
  intro cursor more here _
  have isRest : cursor.rest = 91 :: (printItems (values.map encode) ++ 93 :: more) := by
    simpa [print] using here
  have inside := Cursor.rest_advance isRest
  have gathered : ∃ after, items (read (depth + 1)) (cursor.rest.length + 1) true cursor.advance =
      .ok (values, after) ∧ after.rest = 93 :: more := by
    cases values with
    | nil => exact ⟨cursor.advance, by simp [items, nextItem_false true inside], inside⟩
    | cons value values =>
        rw [List.map_cons, printItems_cons, List.append_assoc, List.flatMap_map] at inside
        obtain ⟨middle, isRead, left⟩ := reads value List.mem_cons_self _ _ inside
          (endsValue_items values)
        have enough : values.length < cursor.rest.length := by
          have long := length_le_flatMap values (fun value => 44 :: print (encode value)) (by simp)
          rw [isRest, List.map_cons, printItems_cons, List.flatMap_map]
          simp only [List.length_cons, List.length_append]
          omega
        obtain ⟨after, others, final⟩ := items_printed
          (fun other member => reads other (List.mem_cons_of_mem _ member))
          (fun other member => opens other (List.mem_cons_of_mem _ member)) enough left
        refine ⟨after, ?_, final⟩
        simp [items, nextItem_first inside (opens value List.mem_cons_self), isRead, others]
  obtain ⟨after, isRead, left⟩ := gathered
  refine ⟨after.advance, ?_, Cursor.rest_advance left⟩
  simp [list, atValue_of_mark _ isRest (by decide), enter, isRead, withClosing, closeArray_eq left,
    Except.map]

/-! ### Records -/

def printField (entry : String × Json) : Bytes :=
  printText entry.1 ++ 58 :: print entry.2

theorem printFields_cons (entry : String × Json) (rest : List (String × Json)) :
    printFields (entry :: rest) = printField entry ++ rest.flatMap fun other => 44 :: printField other := by
  induction rest generalizing entry with
  | nil => simp [printFields, printField]
  | cons other rest ih => simp [printFields, printField, ih]

theorem endsValue_fields (fields : List (String × Json)) :
    EndsValue (fields.flatMap (fun entry => 44 :: printField entry) ++ 125 :: more) := by
  cases fields with
  | nil => exact endsValue_brace more
  | cons entry fields => exact endsValue_comma _

theorem nextField_false (first : Bool) (here : cursor.rest = 125 :: more) :
    nextField first cursor = .ok (false, cursor) := by
  simp [nextField, Cursor.skipBlanks_of_mark here (by decide), here]

theorem nextField_first (here : cursor.rest = 34 :: more) :
    nextField true cursor = .ok (true, cursor) := by
  simp [nextField, Cursor.skipBlanks_of_mark here (by decide), here]

theorem nextField_comma (here : cursor.rest = 44 :: 34 :: more) :
    nextField false cursor = .ok (true, cursor.advance) := by
  have later := Cursor.rest_advance here
  simp [nextField, Cursor.skipBlanks_of_mark here (by decide), here,
    Cursor.skipBlanks_of_mark later (by decide), later]

theorem colon_eq (here : cursor.rest = 58 :: more) : colon cursor = .ok cursor.advance := by
  simp [colon, Cursor.skipBlanks_of_mark here (by decide), here]

theorem closeObject_eq (here : cursor.rest = 125 :: more) :
    closeObject cursor = (.ok cursor.advance, cursor.advance) := by
  simp [closeObject, Cursor.skipBlanks_of_mark here (by decide), here]

theorem fieldName_printed (name : String) (here : cursor.rest = printText name ++ more) :
    ∃ after, fieldName cursor = .ok (name, after) ∧ after.rest = more := by
  have isRest : cursor.rest = 34 :: ((Bytes.ofText name).flatMap escaped ++ 34 :: more) := by
    simpa [printText] using here
  exact Cursor.string_printed name (Cursor.rest_advance isRest)

theorem reads_field {Draft : Type} {read : Reader Value} {value : Value} (name : String)
    (get : Draft → Option Value) (set : Draft → Value → Draft)
    (reads : Reads (read depth) bytes value) :
    Reads ((field name get set read).read depth) bytes fun draft => set draft value :=
  reads.map fun value draft => set draft value

namespace Shape

variable {Draft : Type} {shape : Shape Draft Value}

/-- The printed fields of a record are read one after the other, each by the reader of its name, and
so take one draft to another. -/
inductive Fills (shape : Shape Draft Value) (depth : Nat) :
    Draft → List (String × Json) → Draft → Prop where
  | nil {draft : Draft} : Fills shape depth draft [] draft
  | cons {draft last : Draft} {name : String} {value : Json} {field : Field Draft}
      {change : Draft → Draft} {rest : List (String × Json)}
      (found : (shape.fields.find? fun field => field.name == name) = some field)
      (unset : field.isSet draft = false) (reads : Reads (field.read depth) (print value) change)
      (others : Fills shape depth (change draft) rest last) :
      Fills shape depth draft ((name, value) :: rest) last

/-- What is read of one field, from its name on. -/
theorem readFields_field {draft : Draft} {name : String} {value : Json} {field : Field Draft}
    {change : Draft → Draft} {first : Bool} {place : Cursor} (rounds : Nat)
    (found : (shape.fields.find? fun field => field.name == name) = some field)
    (unset : field.isSet draft = false) (reads : Reads (field.read depth) (print value) change)
    (next : nextField first cursor = .ok (true, place))
    (here : place.rest = printField (name, value) ++ more) (ends : EndsValue more) :
    ∃ after, after.rest = more ∧
      readFields shape depth (rounds + 1) first draft cursor =
        readFields shape depth rounds false (change draft) after := by
  rw [printField, List.append_assoc] at here
  obtain ⟨afterName, named, left⟩ := fieldName_printed name here
  obtain ⟨after, isRead, final⟩ := reads afterName.advance more (Cursor.rest_advance left) ends
  refine ⟨after, final, ?_⟩
  rw [readFields]
  simp [next, named, found, unset, colon_eq left, isRead]

theorem Fills.readFields {draft last : Draft} {fields : List (String × Json)}
    (fills : Fills shape depth draft fields last) {rounds : Nat} (enough : fields.length < rounds)
    (here : cursor.rest = fields.flatMap (fun entry => 44 :: printField entry) ++ 125 :: more) :
    ∃ after, readFields shape depth rounds false draft cursor = .ok (last, after) ∧
      after.rest = 125 :: more := by
  induction fills generalizing cursor rounds with
  | nil =>
      obtain ⟨rounds, rfl⟩ := Nat.exists_eq_add_one_of_ne_zero (Nat.ne_of_gt enough)
      exact ⟨cursor, by simp [Shape.readFields, nextField_false false here], here⟩
  | @cons draft last name value field change rest found unset reads _ ih =>
      obtain ⟨rounds, rfl⟩ :=
        Nat.exists_eq_add_one_of_ne_zero (Nat.ne_of_gt (Nat.zero_lt_of_lt enough))
      rw [List.flatMap_cons, List.append_assoc, List.cons_append] at here
      obtain ⟨middle, left, step⟩ := readFields_field rounds found unset reads
        (nextField_comma here) (Cursor.rest_advance here) (endsValue_fields rest)
      obtain ⟨after, others, final⟩ := ih (by simpa using enough) left
      exact ⟨after, step.trans others, final⟩

theorem Fills.reads {last : Draft} {fields : List (String × Json)} {value : Value}
    (fills : Fills shape (depth + 1) shape.blank fields last)
    (finished : shape.finish last = .ok value) :
    Reads (shape.reader (depth + 2)) (print (.object fields)) value := by
  intro cursor more here _
  have isRest : cursor.rest = 123 :: (printFields fields ++ 125 :: more) := by
    simpa [print] using here
  have inside := Cursor.rest_advance isRest
  have gathered : ∃ after, shape.readFields (depth + 1) (cursor.rest.length + 1) true shape.blank
      cursor.advance = .ok (last, after) ∧ after.rest = 125 :: more := by
    cases fills with
    | nil => exact ⟨cursor.advance, by simp [Shape.readFields, nextField_false true inside], inside⟩
    | @cons _ _ name value field change rest found unset reads others =>
        rw [printFields_cons, List.append_assoc] at inside
        obtain ⟨middle, left, step⟩ := readFields_field cursor.rest.length found unset
          reads (nextField_first inside) inside (endsValue_fields rest)
        have enough : rest.length < cursor.rest.length := by
          have long := length_le_flatMap rest (fun entry => 44 :: printField entry) (by simp)
          rw [isRest, printFields_cons]
          simp only [List.length_cons, List.length_append]
          omega
        obtain ⟨after, isRead, final⟩ := others.readFields enough left
        exact ⟨after, step.trans isRead, final⟩
  obtain ⟨after, isRead, left⟩ := gathered
  refine ⟨after.advance, ?_, Cursor.rest_advance left⟩
  simp [reader, atValue_of_mark _ isRest (by decide), enter, isRead, finishAt, closeObject_eq left,
    finished, Except.map]

end Shape

/-! ### Whole texts -/

theorem run_printed {read : Reader Value} {value : Value}
    (reads : Reads (read depthLimit) bytes value) : read.run bytes = .ok value := by
  have here : (Cursor.start bytes).rest = bytes ++ [] := (List.append_nil bytes).symm
  obtain ⟨after, isRead, left⟩ := reads _ [] here endsValue_nil
  simp [run, isRead, Cursor.skipBlanks_of_end left, left]

end Reader

end DurableJobs.Json
