import DurableJobs.Bytes
import Mathlib.Data.String.Basic

/-!
The order of texts, by code point and by byte.

UTF-8 keeps the order of code points: of two characters the greater one has the greater byte at the
first place in which they differ. So texts stand in the same order whichever of the two they are
compared by.
-/

set_option autoImplicit false

namespace DurableJobs.Bytes

theorem ofText_eq_flatMap (text : String) :
    ofText text = text.toList.flatMap String.utf8EncodeChar := by
  rw [ofText, String.toUTF8_eq_toByteArray, ← String.utf8Encode_toList, List.utf8Encode,
    List.toList_data_toByteArray]

/-- The bytes of different characters decide, whatever follows them. -/
theorem utf8EncodeChar_append_lt {left right : Char} (less : left < right)
    (leftRest rightRest : Bytes) :
    String.utf8EncodeChar left ++ leftRest < String.utf8EncodeChar right ++ rightRest := by
  have codes : left.val.toNat < right.val.toNat := less
  have bound : right.val.toNat < 0x110000 := by
    rcases right.valid with low | high <;> omega
  simp only [String.utf8EncodeChar]
  generalize left.val.toNat = first at codes ⊢
  generalize right.val.toNat = second at codes bound ⊢
  -- One case for every two lengths: the longer character begins with the greater byte, and bytes of
  -- one length are the digits of the two codes.
  split_ifs <;>
    simp only [List.cons_append, List.nil_append, List.cons_lt_cons_iff, UInt8.lt_iff_toNat_lt,
      ← UInt8.toNat_inj, UInt8.toNat_ofNat'] <;>
    simp (disch := omega) only [Nat.mod_eq_of_lt] <;>
    omega

theorem flatMap_utf8EncodeChar_lt {left right : List Char} (less : left < right) :
    left.flatMap String.utf8EncodeChar < right.flatMap String.utf8EncodeChar := by
  induction less with
  | @nil character rest =>
      obtain ⟨byte, others, isBytes⟩ :=
        List.exists_cons_of_ne_nil (String.utf8EncodeChar_ne_nil (c := character))
      rw [List.flatMap_cons, isBytes]
      exact .nil
  | cons _ ih =>
      rw [List.flatMap_cons, List.flatMap_cons]
      exact List.append_left_lt ih
  | rel less =>
      rw [List.flatMap_cons, List.flatMap_cons]
      exact utf8EncodeChar_append_lt less _ _

theorem ofText_lt_ofText_iff {left right : String} : ofText left < ofText right ↔ left < right := by
  have keeps : ∀ {first second : String}, first < second → ofText first < ofText second := by
    intro first second less
    rw [ofText_eq_flatMap, ofText_eq_flatMap]
    exact flatMap_utf8EncodeChar_lt less
  refine ⟨fun less => ?_, keeps⟩
  rcases lt_trichotomy left right with lower | rfl | higher
  · exact lower
  · exact absurd less (List.lt_irrefl _)
  · exact absurd less (List.lt_asymm (keeps higher))

end DurableJobs.Bytes
