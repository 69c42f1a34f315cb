import DurableJobs.Error

/-!
A small business table for scripts: items with a name, in the order of their insertion.
-/

set_option autoImplicit false

namespace DurableJobs

abbrev Items := List String

namespace Items

def insert (name : Option String) (items : Items) : Except StoreError Items :=
  match name with
  | some name => .ok (items ++ [name])
  | none => .error (.missingValue "items.name")

end Items

end DurableJobs
