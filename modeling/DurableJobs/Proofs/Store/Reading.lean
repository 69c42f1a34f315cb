import DurableJobs.Store.Listing

/-!
What a row holds whose record can be read.

Reading loses nothing but the spelling of identifiers: every column of the row is what its field of
the record says.
-/

set_option autoImplicit false

namespace DurableJobs.Store

theorem bind_eq_ok {Error First Second : Type} {first : Except Error First}
    {next : First → Except Error Second} {result : Second} (done : first >>= next = .ok result) :
    ∃ value, first = .ok value ∧ next value = .ok result := by
  cases first with
  | error error => cases done
  | ok value => exact ⟨value, rfl, done⟩

theorem map_eq_ok {Error First Second : Type} {first : Except Error First}
    {convert : First → Second} {result : Second} (done : first.map convert = .ok result) :
    ∃ value, first = .ok value ∧ convert value = result := by
  cases first with
  | error error => cases done
  | ok value => exact ⟨value, rfl, Except.ok.inj done⟩

theorem ok_of_toOption {Error Value : Type} {result : Except Error Value} {value : Value}
    (isSome : result.toOption = some value) : result = .ok value := by
  cases result with
  | error error => cases isSome
  | ok other => exact congrArg Except.ok (Option.some.inj isSome)

namespace Row

theorem of_readInteger {index : Nat} {column : String} {cell : Cell} {value : Int}
    (read : readInteger index column cell = .ok value) : cell = .integer value := by
  cases cell with
  | integer held => rw [Except.ok.inj read]
  | _ => cases read

theorem of_readText {index : Nat} {column : String} {cell : Cell} {value : String}
    (read : readText index column cell = .ok value) : cell = .text value := by
  cases cell with
  | text held => rw [Except.ok.inj read]
  | _ => cases read

theorem of_readBytes {index : Nat} {column : String} {cell : Cell} {value : Bytes}
    (read : readBytes index column cell = .ok value) : cell = .blob value := by
  cases cell with
  | blob held => rw [Except.ok.inj read]
  | _ => cases read

theorem of_readOptionalText {index : Nat} {column : String} {cell : Cell} {value : Option String}
    (read : readOptional (readText index column) cell = .ok value) : cell = .ofText? value := by
  cases cell with
  | null => rw [← Except.ok.inj read]; rfl
  | text held => rw [← Except.ok.inj read]; rfl
  | _ => cases read

theorem readOptional_ofText? {index : Nat} {column : String} (text? : Option String) :
    readOptional (readText index column) (.ofText? text?) = .ok text? := by
  cases text? <;> rfl

theorem of_readUuid {index : Nat} {column : String} {cell : Cell} {value : Uuid}
    (read : readUuid index column cell = .ok value) :
    ∃ text, cell = .text text ∧ Uuid.ofText? text = some value := by
  obtain ⟨text, isText, parsed⟩ := bind_eq_ok read
  refine ⟨text, of_readText isText, ?_⟩
  cases result : Uuid.ofText? text with
  | none => simp [result] at parsed
  | some id => rw [result] at parsed; rw [Except.ok.inj parsed]

theorem of_readPriority {index : Nat} {column : String} {cell : Cell} {value : Priority}
    (read : readPriority index column cell = .ok value) : cell = .integer value.number := by
  obtain ⟨number, isNumber, parsed⟩ := bind_eq_ok read
  cases result : Priority.ofNumber? number with
  | none => simp [result] at parsed
  | some priority =>
      rw [result] at parsed
      obtain rfl := Except.ok.inj parsed
      have same := List.find?_some result
      rw [of_readInteger isNumber, beq_iff_eq.mp same]

theorem of_readCount {index : Nat} {column : String} {cell : Cell} {value : Nat}
    (read : readCount index column cell = .ok value) :
    cell = .integer value ∧ value ≤ Record.countLimit := by
  obtain ⟨number, isNumber, checked⟩ := bind_eq_ok read
  split at checked
  · next fits =>
      obtain rfl := Except.ok.inj checked
      rw [of_readInteger isNumber, Int.toNat_of_nonneg fits.1]
      exact ⟨rfl, Int.toNat_le.mpr fits.2⟩
  · cases checked

theorem of_readInstant {index : Nat} {column : String} {cell : Cell} {value : Instant}
    (read : readInstant index column cell = .ok value) :
    ∃ millis, cell = .integer millis ∧ Instant.ofMillis? millis = some value := by
  obtain ⟨millis, isMillis, parsed⟩ := bind_eq_ok read
  refine ⟨millis, of_readInteger isMillis, ?_⟩
  cases result : Instant.ofMillis? millis with
  | none => simp [result] at parsed
  | some instant => rw [result] at parsed; rw [Except.ok.inj parsed]

/-- Column for column, the row says what the record says. -/
structure Holds (row : Row) (record : Record) : Prop where
  id : row.id = record.id
  jobType : row.jobType = .text record.jobType
  payload : row.payload = .blob record.payload
  priority : row.priority = .integer record.priority.number
  notBefore : ∃ millis, row.notBefore = .integer millis ∧
    Instant.ofMillis? millis = some record.notBefore
  debounceKey : row.debounceKey = .ofText? record.debounceKey
  sagaId : readOptional (readUuid 6 "saga_id") row.sagaId = .ok record.sagaId
  correlationId : ∃ text, row.correlationId = .text text ∧
    Uuid.ofText? text = some record.correlationId
  state : row.state = record.state
  attempts : row.attempts = .integer record.attempts ∧ record.attempts ≤ Record.countLimit
  failures : row.failures = .integer record.failures ∧ record.failures ≤ Record.countLimit
  lastError : row.lastError = .ofText? record.lastError
  createdAt : ∃ millis, row.createdAt = .integer millis ∧
    Instant.ofMillis? millis = some record.createdAt
  updatedAt : ∃ millis, row.updatedAt = .integer millis ∧
    Instant.ofMillis? millis = some record.updatedAt

theorem holds_of_record {row : Row} {record : Record} (read : row.record = .ok record) :
    row.Holds record := by
  obtain ⟨jobType, isJobType, read⟩ := bind_eq_ok read
  obtain ⟨payload, isPayload, read⟩ := bind_eq_ok read
  obtain ⟨priority, isPriority, read⟩ := bind_eq_ok read
  obtain ⟨notBefore, isNotBefore, read⟩ := bind_eq_ok read
  obtain ⟨debounceKey, isDebounceKey, read⟩ := bind_eq_ok read
  obtain ⟨sagaId, isSagaId, read⟩ := bind_eq_ok read
  obtain ⟨correlationId, isCorrelationId, read⟩ := bind_eq_ok read
  obtain ⟨attempts, isAttempts, read⟩ := bind_eq_ok read
  obtain ⟨failures, isFailures, read⟩ := bind_eq_ok read
  obtain ⟨lastError, isLastError, read⟩ := bind_eq_ok read
  obtain ⟨createdAt, isCreatedAt, read⟩ := bind_eq_ok read
  obtain ⟨updatedAt, isUpdatedAt, read⟩ := bind_eq_ok read
  obtain rfl := Except.ok.inj read
  exact
    { id := rfl
      jobType := of_readText isJobType
      payload := of_readBytes isPayload
      priority := of_readPriority isPriority
      notBefore := of_readInstant isNotBefore
      debounceKey := of_readOptionalText isDebounceKey
      sagaId := isSagaId
      correlationId := of_readUuid isCorrelationId
      state := rfl
      attempts := of_readCount isAttempts
      failures := of_readCount isFailures
      lastError := of_readOptionalText isLastError
      createdAt := of_readInstant isCreatedAt
      updatedAt := of_readInstant isUpdatedAt }

end Row

theorem ids_of_mapM {rows : List Row} {records : List Record}
    (read : rows.mapM Row.record = .ok records) : records.map Record.id = rows.map Row.id := by
  induction rows generalizing records with
  | nil => rw [← Except.ok.inj read]; rfl
  | cons row rest ih =>
      rw [List.mapM_cons] at read
      obtain ⟨record, isRecord, read⟩ := bind_eq_ok read
      obtain ⟨others, areOthers, read⟩ := bind_eq_ok read
      obtain rfl := Except.ok.inj read
      rw [List.map_cons, List.map_cons, ih areOthers, (Row.holds_of_record isRecord).id]

theorem row_of_mem_mapM {rows : List Row} {records : List Record} {record : Record}
    (read : rows.mapM Row.record = .ok records) (member : record ∈ records) :
    ∃ row ∈ rows, row.record = .ok record := by
  induction rows generalizing records with
  | nil =>
      obtain rfl := Except.ok.inj read
      cases member
  | cons row rest ih =>
      rw [List.mapM_cons] at read
      obtain ⟨first, isFirst, read⟩ := bind_eq_ok read
      obtain ⟨others, areOthers, read⟩ := bind_eq_ok read
      obtain rfl := Except.ok.inj read
      rcases List.mem_cons.mp member with rfl | later
      · exact ⟨row, List.mem_cons_self, isFirst⟩
      · obtain ⟨other, otherMember, isRecord⟩ := ih areOthers later
        exact ⟨other, List.mem_cons_of_mem _ otherMember, isRecord⟩

theorem record_of_mem_mapM {rows : List Row} {records : List Record} {row : Row}
    (read : rows.mapM Row.record = .ok records) (member : row ∈ rows) :
    ∃ record ∈ records, row.record = .ok record := by
  induction rows generalizing records with
  | nil => cases member
  | cons first rest ih =>
      rw [List.mapM_cons] at read
      obtain ⟨record, isRecord, read⟩ := bind_eq_ok read
      obtain ⟨others, areOthers, read⟩ := bind_eq_ok read
      obtain rfl := Except.ok.inj read
      rcases List.mem_cons.mp member with rfl | later
      · exact ⟨record, List.mem_cons_self, isRecord⟩
      · obtain ⟨other, otherMember, isOther⟩ := ih areOthers later
        exact ⟨other, List.mem_cons_of_mem _ otherMember, isOther⟩

end DurableJobs.Store
