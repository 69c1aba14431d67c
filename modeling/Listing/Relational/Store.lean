import Listing.Relational.Meaning
import Listing.Store.Basic
import Listing.Time.Iso

/-!
# Rows in a table

A stored table keeps tuples under distinct keys; where keys are integers the tuples are in the order
of their keys, and a row without key is given the next one. Rows go in and come out under the names
of their fields, and what comes out of a column is of its type. A statement is refused before a row
is seen if it cannot carry its values.

Selection, order, limit and offset are those of a SELECT as SQLite documents it; rows that tie in the
order, which it leaves open, come as the table has them. The limits of the engine on the size of a
statement are left out: 1000 levels of an expression and 32766 bound values where it is compiled with
its defaults.
-/

set_option autoImplicit false

namespace Listing

namespace Cell

/-- The value of a cell that is read from a column. -/
def value (type : ColumnType) : Cell → Value
  | null => .null
  | int i => match type with
    | .truth => .bool (i != 0)
    | _ => .int i
  | real x => .float x
  | text s => match type with
    | .instant => ((Iso.readInstant? s).map .instant).getD (.text s)
    | .day => ((Iso.readDate? s).map .day).getD (.text s)
    | _ => .text s

end Cell

/-- The tuples of a table and the fields under which they are known. -/
structure StoredTable where
  mapping : Mapping
  tuples : List Tuple

namespace StoredTable

/-- The table without tuples. -/
def empty (m : Mapping) : StoredTable :=
  ⟨m, []⟩

/-! ## Changes -/

/-- The value of a row that goes into a column: that of the first field stored there that the row
has. -/
def columnValue (m : Mapping) (row : Value) (c : Column) : Value :=
  (m.fields.findSome? fun (field, d) => if d = c then row.field? field else none).getD .null

/-- The operands of a row that goes into a table. -/
def rowOperands (m : Mapping) (row : Value) : List (Column × Operand) :=
  m.table.columns.map fun c => (c, ⟨Conversion.ofType c.type, columnValue m row c⟩)

/-- The key of a tuple: the cell of the first column. -/
def keyOf (m : Mapping) (t : Tuple) : Cell :=
  match m.table.columns with
  | [] => .null
  | c :: _ => t.cell c

/-- The tuples have keys of integers. -/
def hasIntegerKey (m : Mapping) : Bool :=
  match m.table.columns with
  | [] => false
  | c :: _ => c.type = .integer

/-- One more than the greatest key, or one if there is none. -/
def nextKey (m : Mapping) (tuples : List Tuple) : Int :=
  match (tuples.map (keyOf m)).getLast? with
  | some (.int i) => i + 1
  | _ => 1

/-- The tuple with a key if it has none. -/
def withKey (m : Mapping) (tuples : List Tuple) (t : Tuple) : Tuple :=
  match m.table.columns with
  | [] => t
  | c :: _ =>
    if c.type = .integer ∧ (t.cell c).isNull then
      Entries.put c.name (.int (nextKey m tuples)) t
    else t

/-- The key may stand in the table. -/
def isKey (m : Mapping) : Cell → Bool
  | .null => false
  | .int _ => true
  | _ => !hasIntegerKey m

/-- The tuples with one more, in the place of its key. -/
def insertTuple (m : Mapping) (t : Tuple) (tuples : List Tuple) : List Tuple :=
  if hasIntegerKey m then
    tuples.takeWhile (fun u => (keyOf m u).compare (keyOf m t) == .lt) ++
      t :: tuples.dropWhile (fun u => (keyOf m u).compare (keyOf m t) == .lt)
  else tuples ++ [t]

/-- The tuples with one more, whose key must be new. -/
def addTuple (m : Mapping) (tuples : List Tuple) (t : Tuple) : Result (List Tuple) :=
  let t := withKey m tuples t
  if isKey m (keyOf m t) && tuples.all fun u => (keyOf m u).compare (keyOf m t) != .eq then
    .ok (insertTuple m t tuples)
  else .error .badKey

/-- The tuple of the operands of a row. -/
def tupleOf : List (Column × Operand) → Result Tuple
  | [] => .ok []
  | (c, o) :: rest => do return (c.name, (← o.bound).storedIn c.type) :: (← tupleOf rest)

/-- The tuples with those of rows. -/
def addRows (m : Mapping) (tuples : List Tuple) : List (List (Column × Operand)) →
    Result (List Tuple)
  | [] => .ok tuples
  | row :: rest => do addRows m (← addTuple m tuples (← tupleOf row)) rest

/-- The table with more rows. -/
def insert (s : StoredTable) (rows : List Value) : Result StoredTable := do
  let operands := rows.map (rowOperands s.mapping)
  Operand.checkConverted (operands.flatten.map (·.2))
  return { s with tuples := ← addRows s.mapping s.tuples operands }

/-- The table of rows. -/
def ofRows (m : Mapping) (rows : List Value) : Result StoredTable :=
  (empty m).insert rows

/-- The table without the rows that satisfy a predicate. -/
def delete (s : StoredTable) (p : Predicate) : Result StoredTable := do
  let c ← s.mapping.condition p
  Operand.check c.operands
  c.checkPatterns s.tuples
  return { s with tuples := s.tuples.filter (!c.selects ·) }

/-! ## Queries -/

/-- The order of two tuples by columns, the first of which counts most. -/
def compareBy (a b : Tuple) : List (Column × Direction) → Ordering
  | [] => .eq
  | (c, d) :: rest =>
    let o := (a.cell c).compare (b.cell c)
    (match d with
      | .ascending => o
      | .descending => o.swap).then (compareBy a b rest)

/-- The tuples sorted by columns; those that are equal in all of them keep their places. -/
def sortTuples (keys : List (Column × Direction)) (tuples : List Tuple) : List Tuple :=
  tuples.mergeSort fun a b => compareBy a b keys != .gt

/-- The items of a window; a negative limit is none, a negative offset zero. -/
def windowOf {α : Type} (limit offset : Int) (items : List α) : List α :=
  let rest := items.drop offset.toNat
  if limit < 0 then rest else rest.take limit.toNat

/-- The row of a tuple. -/
def rowOf (m : Mapping) (t : Tuple) : Value :=
  .record (m.fields.map fun (field, c) => (field, (t.cell c).value c.type))

/-- The operands of the bounds of a window. -/
def boundOperands (limit offset : Int) : List Operand :=
  ⟨.plain, .int limit⟩ :: if offset = 0 then [] else [⟨.plain, .int offset⟩]

/-- The rows of a window. -/
def window (s : StoredTable) (w : Window) : Result (List Value) := do
  let c ← s.mapping.condition w.predicate
  let keys ← s.mapping.sortColumns w.order.keys
  Operand.check (c.operands ++ boundOperands w.limit w.offset)
  if w.limit ≠ 0 then c.checkPatterns s.tuples
  let sorted := sortTuples keys (s.tuples.filter c.selects)
  return (windowOf w.limit w.offset sorted).map (rowOf s.mapping)

/-- The number of rows that satisfy a predicate. -/
def number (s : StoredTable) (p : Predicate) : Result Nat := do
  let c ← s.mapping.condition p
  Operand.check c.operands
  c.checkPatterns s.tuples
  return (s.tuples.filter c.selects).length

/-- The store that a table is; a window that was read is noted in the log. -/
def store (s : StoredTable) : Store where
  fetch w := do
    let rows ← (s.window w : Result (List Value))
    Traced.log .debug "sqlalchemy_fetch"
      [("table", s.mapping.table.name), ("rows", .int rows.length)]
    return rows
  count p := Traced.ofResult (s.number p)

end StoredTable

end Listing
