import Listing.Entries
import Listing.Fault

/-!
# Tables and their columns

A table has typed columns, the first of which is its key. A mapping tells in which column each field
of an entity is stored: under its own name, unless the column is kept under other names. The types of
columns stand for those of SQLAlchemy.
-/

set_option autoImplicit false

namespace Listing

/-- The type of a column. -/
inductive ColumnType where
  | integer
  | text
  | instant
  | truth
  | day
  deriving DecidableEq, Repr

namespace ColumnType

/-- The name of a type of columns. -/
def name : ColumnType → String
  | integer => "integer"
  | text => "string"
  | instant => "datetime"
  | truth => "boolean"
  | day => "date"

/-- The type of columns with exactly the given name. -/
def ofName? (s : String) : Option ColumnType :=
  [integer, text, instant, truth, day].find? (·.name == s)

end ColumnType

/-- A column of a table. -/
structure Column where
  name : String
  type : ColumnType
  deriving DecidableEq, Repr

/-- A table. -/
structure Table where
  name : String
  columns : List Column
  deriving DecidableEq, Repr

namespace Table

/-- The column with a name, which must exist. -/
def column (t : Table) (name : String) : Result Column :=
  match t.columns.find? (·.name == name) with
  | some c => .ok c
  | none => .error (.missingField name)

/-- The columns under other names, in order. -/
def columnsNamed (t : Table) : List (String × String) → Result (List (String × Column))
  | [] => .ok []
  | (field, name) :: rest => do return (field, ← t.column name) :: (← t.columnsNamed rest)

end Table

/-- Where the fields of an entity are stored. -/
structure Mapping where
  table : Table
  fields : List (String × Column)

namespace Mapping

/-- The mapping of a table whose columns are known under other names; a column that has another name
is not known under its own. -/
def make (t : Table) (names : List (String × String)) : Result Mapping := do
  let own := (t.columns.filter fun c => names.all (·.2 != c.name)).map fun c => (c.name, c)
  return ⟨t, Entries.override own (← t.columnsNamed names)⟩

/-- The column in which a field is stored, which must exist. -/
def column (m : Mapping) (field : String) : Result Column :=
  match Entries.get? field m.fields with
  | some c => .ok c
  | none => .error (.unmapped field)

end Mapping

end Listing
