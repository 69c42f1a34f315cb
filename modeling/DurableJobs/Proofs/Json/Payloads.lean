import DurableJobs.Proofs.Json.Readers
import DurableJobs.Payload

/-!
Payloads without floats are decoded as they were encoded.

Each of their types has a reader that reads back what is printed for a value. All 64-bit integers, all
strings and all lists of bytes are covered; an absent part is told from a present one.
-/

set_option autoImplicit false

namespace DurableJobs

open Json (Reads OpensBeside)
open Json.Reader

namespace Payload

/-- The types of payloads that hold no floats. -/
inductive Format where
  | unit
  | text
  | label
  | posting
  | upload
deriving DecidableEq

namespace Format

def Value : Format → Type
  | .unit => Unit
  | .text => String
  | .label => Label
  | .posting => Posting
  | .upload => Upload

instance (format : Format) : Payload format.Value :=
  match format with
  | .unit => inferInstanceAs (Payload Unit)
  | .text => inferInstanceAs (Payload String)
  | .label => inferInstanceAs (Payload Label)
  | .posting => inferInstanceAs (Payload Posting)
  | .upload => inferInstanceAs (Payload Upload)

end Format

theorem decode_eq {Value : Type} [Payload Value] {payload : Bytes} {value : Value} (jobType : String)
    (reads : Reads (reader Json.depthLimit) payload value) : decode jobType payload = .ok value := by
  simp [decode, decodeWith, run_printed reads]

theorem opensBeside_text (other : UInt8) (differs : other ≠ 34) (value : String) :
    OpensBeside other (Json.text value).print :=
  ⟨34, _, rfl, by decide, Ne.symm differs⟩

theorem opensBeside_natural (other : UInt8) (noDigit : Json.Cursor.isDigit other = false)
    (value : Nat) : OpensBeside other (Json.integer value).print := by
  obtain ⟨digit, digits, printed, isDigit⟩ := exists_digit_of_printNatural value
  refine ⟨digit, digits, ?_, (mark_of_isDigit isDigit).1, ?_⟩
  · simp [Json.print, Json.printInteger, printed]
  · rintro rfl
    cases noDigit.symm.trans isDigit

/-! ### The types one by one -/

section Types

variable (jobType : String)

theorem decode_unit (value : Unit) : decode jobType (encode value) = .ok value :=
  decode_eq jobType (reads_unit _)

theorem decode_text (value : String) : decode jobType (encode value) = .ok value :=
  decode_eq jobType (reads_text _ value)

theorem decode_label (label : Label) : decode jobType (encode label) = .ok label :=
  decode_eq jobType
    (Shape.Fills.reads (.cons rfl rfl (reads_field _ _ _ (reads_text _ label.name)) .nil) rfl)

theorem reads_account (depth : Nat) (account : Int64) :
    Reads (map Int64.ofInt int64 depth) (Json.integer account.toInt).print account := by
  have reads := (reads_integer depth "i64" account.le_toInt (Int.le_sub_one_of_lt account.toInt_lt)
    (by decide) (by decide)).map Int64.ofInt
  rwa [Int64.ofInt_toInt] at reads

theorem decode_posting (posting : Posting) : decode jobType (encode posting) = .ok posting :=
  decode_eq jobType
    (Shape.Fills.reads
      (.cons rfl rfl (reads_field _ _ _ (reads_account _ posting.account))
        (.cons rfl rfl (reads_field _ _ _ (reads_boolean _ posting.failsAfterEnqueue)) .nil))
      rfl)

theorem reads_number (depth : Nat) (number : UInt64) :
    Reads (map UInt64.ofNat nat64 depth) (Json.ofNat number.toNat).print number := by
  have reads := (reads_natural depth "u64" number.toNat_lt (Nat.le_refl _)).map UInt64.ofNat
  rwa [UInt64.ofNat_toNat] at reads

theorem reads_byte (depth : Nat) (value : UInt8) :
    Reads (Json.Reader.byte depth) (Json.integer value.toNat).print value := by
  have reads := (reads_natural depth "u8" value.toNat_lt (by decide)).map UInt8.ofNat
  rwa [UInt8.ofNat_toNat] at reads

theorem reads_bytes (depth : Nat) (bytes : Bytes) :
    Reads (bytesReader (depth + 2)) (Json.ofBytes bytes).print bytes :=
  reads_list (fun value _ => reads_byte _ value) fun value _ => opensBeside_natural 93 rfl value.toNat

theorem reads_note (depth : Nat) (note : Option String) :
    Reads (optional Json.Reader.text depth) (Json.ofOption Json.text note).print note :=
  reads_optional note (fun held _ => reads_text depth held) fun held _ =>
    opensBeside_text 110 (by decide) held

theorem decode_upload (upload : Upload) : decode jobType (encode upload) = .ok upload :=
  decode_eq jobType
    (Shape.Fills.reads
      (.cons rfl rfl (reads_field _ _ _ (reads_number _ upload.id))
        (.cons rfl rfl (reads_field _ _ _ (reads_bytes _ upload.parts))
          (.cons rfl rfl (reads_field _ _ _ (reads_note _ upload.note)) .nil)))
      rfl)

end Types

/-- A payload without floats is decoded as it was encoded. -/
theorem decode_encode {format : Format} (jobType : String) (value : format.Value) :
    decode jobType (encode value) = .ok value := by
  cases format with
  | unit => exact decode_unit jobType value
  | text => exact decode_text jobType value
  | label => exact decode_label jobType value
  | posting => exact decode_posting jobType value
  | upload => exact decode_upload jobType value

end Payload

end DurableJobs
