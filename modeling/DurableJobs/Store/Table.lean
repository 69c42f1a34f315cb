import DurableJobs.Store.Row

/-!
The job table: its rows by ascending id, and the rules that every change keeps.

Ids are handed out in ascending order and never again: the mark is the largest id ever inserted.
Columns that need a value have one, a state is one of three, no two rows have one id, and no two
pending rows have one debounce key. A change that would break a rule is refused and leaves the table
as it was. A guarded table refuses to lose rows.
-/

set_option autoImplicit false

namespace DurableJobs.Store

structure Table where
  rows : List Row
  mark : Int
  isGuarded : Bool
deriving DecidableEq

/-- The answer of a statement, and the table after it. -/
abbrev Answer (Value : Type) := Except StoreError Value × Table

namespace Table

def empty : Table := ⟨[], 0, false⟩

def columnName (column : String) : String := "dog_jobs." ++ column

def find? (table : Table) (id : Int) : Option Row :=
  table.rows.find? fun row => row.id == id

/-- The largest id that there is or was. -/
def lastId (table : Table) : Int :=
  table.rows.foldl (fun largest row => max largest row.id) table.mark

/-- The id of the next inserted row, unless ids have run out. -/
def nextId? (table : Table) : Option Int :=
  if table.lastId < 0x7fffffffffffffff then some (table.lastId + 1) else none

/-- Whether two rows may not be pending together. -/
def clash (left right : Row) : Bool :=
  left.state.isPending && right.state.isPending && left.debounceKey != .null &&
    left.debounceKey == right.debounceKey

def insertRow (row : Row) : List Row → List Row
  | [] => [row]
  | other :: rest =>
      if row.id < other.id then row :: other :: rest else other :: insertRow row rest

def insert (table : Table) (row : Row) : Except StoreError Table :=
  if table.rows.any fun other => other.id == row.id then .error (.duplicate (columnName "id"))
  else if table.rows.any (clash row) then .error (.duplicate (columnName "debounce_key"))
  else .ok { table with rows := insertRow row table.rows, mark := max table.mark row.id }

def replace (table : Table) (id : Int) (row : Row) : Except StoreError Table :=
  let others := table.rows.filter fun other => other.id != id
  if others.any fun other => other.id == row.id then .error (.duplicate (columnName "id"))
  else if others.any (clash row) then .error (.duplicate (columnName "debounce_key"))
  else .ok { table with rows := insertRow row others }

def delete (table : Table) (id : Int) : Answer (Option Row) :=
  match table.find? id with
  | none => (.ok none, table)
  | some row =>
      if table.isGuarded then (.error (.forbidden "deletes are forbidden"), table)
      else (.ok (some row), { table with rows := table.rows.filter fun other => other.id != id })

def change (table : Table) (id : Int) (edit : Row → Row) : Answer (Option Row) :=
  match table.find? id with
  | none => (.ok none, table)
  | some row =>
      match table.replace id (edit row) with
      | .error error => (.error error, table)
      | .ok changed => (.ok (some (edit row)), changed)

/-! ### Single cells -/

/-- The columns in order, the ones that need a value marked. -/
def columns : List (String × Bool) :=
  [ ("id", false), ("job_type", true), ("payload", true), ("priority", true),
    ("not_before", true), ("debounce_key", false), ("saga_id", false), ("correlation_id", true),
    ("state", true), ("attempts", true), ("failures", true), ("last_error", false),
    ("created_at", true), ("updated_at", true) ]

def integerColumns : List String :=
  ["id", "priority", "not_before", "attempts", "failures", "created_at", "updated_at"]

def kept (column : String) (cell : Cell) : Cell :=
  if column ∈ integerColumns then cell.forIntegers
  else if column = "payload" then cell
  else cell.forTexts

def cellOf (values : List (String × Cell)) (column : String) : Cell :=
  ((values.find? fun entry => entry.1 == column).map (·.2)).getD .null

/-- The row of the values, if every needed one is there and the state is one of three. -/
def rowOfCells (id : Int) (values : List (String × Cell)) : Except StoreError Row :=
  let value := fun column => kept column (cellOf values column)
  match columns.find? fun column => column.2 && value column.1 == .null with
  | some column => .error (.missingValue (columnName column.1))
  | none =>
      let state? :=
        match value "state" with
        | .text name => JobState.ofName? name
        | _ => none
      match state? with
      | none => .error (.checkFailed "state IN ('pending', 'running', 'failed')")
      | some state =>
          .ok
            { id, state
              jobType := value "job_type"
              payload := value "payload"
              priority := value "priority"
              notBefore := value "not_before"
              debounceKey := value "debounce_key"
              sagaId := value "saga_id"
              correlationId := value "correlation_id"
              attempts := value "attempts"
              failures := value "failures"
              lastError := value "last_error"
              createdAt := value "created_at"
              updatedAt := value "updated_at" }

/-- Inserts a row of given cells; a column that is not given has its default. The answer is the id
of the row. -/
def insertCells (table : Table) (given : List (String × Cell)) : Answer Int :=
  let values := given ++
    [("state", .text "pending"), ("attempts", .integer 0), ("failures", .integer 0)]
  let id : Except StoreError Int :=
    match kept "id" (cellOf values "id") with
    | .integer id => .ok id
    | .null =>
        match table.nextId? with
        | some id => .ok id
        | none => .error .full
    | _ => .error .mismatch
  let result := do
    let id ← id
    let row ← rowOfCells id values
    let changed ← table.insert row
    pure (id, changed)
  match result with
  | .error error => (.error error, table)
  | .ok (id, changed) => (.ok id, changed)

def setCell (table : Table) (id : Int) (column : String) (cell : Cell) : Answer Nat :=
  match table.find? id with
  | none => (.ok 0, table)
  | some row =>
      let values := (column, cell) :: (columns.map (·.1)).zip row.cells
      let result := do
        let newId : Int ←
          match kept "id" (cellOf values "id") with
          | .integer value => Except.ok value
          | _ => .error StoreError.mismatch
        let edited ← rowOfCells newId values
        table.replace id edited
      match result with
      | .error error => (.error error, table)
      | .ok changed => (.ok 1, changed)

end Table

end DurableJobs.Store
