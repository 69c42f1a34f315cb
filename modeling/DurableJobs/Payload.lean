import DurableJobs.Document
import DurableJobs.Error

/-!
Payloads: typed values in the bytes of a job.

A payload is encoded as the JSON text of its document and decoded by a reader of its type. Only the
executor of a job decodes its payload; the store keeps the bytes as they are.
-/

set_option autoImplicit false

namespace DurableJobs

open Json (Reader)
open Json.Reader (Shape field required)

class Payload (Value : Type) where
  document : Value → Json
  reader : Reader Value

namespace Payload

def encode {Value : Type} [Payload Value] (value : Value) : Bytes :=
  (document value).print

def decodeWith {Value : Type} (reader : Reader Value) (jobType : String) (payload : Bytes) :
    Except JobError Value :=
  match reader.run payload with
  | .ok value => .ok value
  | .error fault => .error (.payload jobType fault.message)

def decode {Value : Type} [Payload Value] (jobType : String) (payload : Bytes) :
    Except JobError Value :=
  decodeWith reader jobType payload

/-! ### Objects with other keys -/

/-- What an entry of an object may be filed under. -/
inductive Key where
  | text (value : String)
  | number (value : Int)
  | pair (first second : Int)
deriving DecidableEq

/-- The name of a key: a number is named by its digits, a pair has no name. -/
def Key.name? : Key → Option String
  | .text value => some value
  | .number value => some (toString value)
  | .pair _ _ => none

def objectOfEntries (entries : List (Key × Json)) : Except EngineError Json :=
  match entries.mapM fun entry => entry.1.name?.map fun name => (name, entry.2) with
  | some fields => .ok (.object fields)
  | none => .error (.serialization Json.Cause.keyNotText.message)

end Payload

/-! ### Types of payloads -/

instance : Payload Unit := ⟨fun _ => .null, Reader.unit⟩

instance : Payload String := ⟨Json.text, Reader.text⟩

instance : Payload Json := ⟨id, Reader.value⟩

structure Label where
  name : String
deriving DecidableEq

instance : Payload Label where
  document label := .object [("name", .text label.name)]
  reader :=
    Shape.reader
      { wanted := "struct Label"
        fields := [field "name" id (fun _ value => some value) Reader.text]
        blank := none
        allowsUnknown := true
        finish := fun draft => do return ⟨← required "name" draft⟩ }

/-- A posting to an account, which may be told to fail late. -/
structure Posting where
  account : Int64
  failsAfterEnqueue : Bool
deriving DecidableEq

instance : Payload Posting where
  document posting :=
    .object
      [ ("account", .integer posting.account.toInt),
        ("fail_after_enqueue", .boolean posting.failsAfterEnqueue) ]
  reader :=
    Shape.reader
      { wanted := "struct Step"
        fields :=
          [ field "account" Prod.fst (fun draft value => (some value, draft.2))
              (Reader.map Int64.ofInt Reader.int64),
            field "fail_after_enqueue" Prod.snd (fun draft value => (draft.1, some value))
              Reader.boolean ]
        blank := ((none, none) : Option Int64 × Option Bool)
        allowsUnknown := true
        finish := fun draft => do
          return ⟨← required "account" draft.1, ← required "fail_after_enqueue" draft.2⟩ }

structure Upload where
  id : UInt64
  parts : Bytes
  note : Option String
deriving DecidableEq

structure UploadDraft where
  id : Option UInt64 := none
  parts : Option Bytes := none
  note : Option (Option String) := none

instance : Payload Upload where
  document upload :=
    .object
      [ ("id", .ofNat upload.id.toNat), ("parts", .ofBytes upload.parts),
        ("note", .ofOption Json.text upload.note) ]
  reader :=
    Shape.reader
      { wanted := "struct Upload"
        fields :=
          [ field "id" UploadDraft.id (fun draft value => { draft with id := some value })
              (Reader.map UInt64.ofNat Reader.nat64),
            field "parts" UploadDraft.parts
              (fun draft value => { draft with parts := some value }) bytesReader,
            field "note" UploadDraft.note (fun draft value => { draft with note := some value })
              (Reader.optional Reader.text) ]
        blank := {}
        allowsUnknown := true
        finish := fun draft => do
          return ⟨← required "id" draft.id, ← required "parts" draft.parts, draft.note.join⟩ }

end DurableJobs
