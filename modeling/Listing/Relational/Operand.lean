import Listing.Relational.Cell
import Listing.Relational.Condition

/-!
# Values as cells

A value is converted before it is sent to a table: as its column demands if the value is of the
column's sort, and as its own type demands otherwise. The values of a list are all converted as the
first of them is. What is converted must then be something that a statement can carry. All values of
a statement are converted before the first one is carried. The conversions are those that SQLAlchemy
documents for the types of columns and of bound values, and what a statement carries are the types
that the `sqlite3` module adapts: integers of 64 bits, numbers in floating point, texts and nothing.
-/

set_option autoImplicit false

namespace Listing

open Text

/-- The way in which a value is converted. -/
inductive Conversion where
  /-- Taken as it is. -/
  | plain
  /-- Brought to a floating-point number. -/
  | real
  /-- Brought to zero or one. -/
  | truth
  /-- Written as date and time of day, without offset. -/
  | instant
  /-- Written as a date. -/
  | day
  /-- Written as 32 hexadecimal digits. -/
  | uuid
  deriving DecidableEq, Repr

namespace Conversion

/-- The conversion of what is stored in a column. -/
def ofType : ColumnType → Conversion
  | .integer | .text => plain
  | .instant => instant
  | .truth => truth
  | .day => day

/-- The conversion of a value compared with a column. -/
def ofValue (type : ColumnType) : Value → Conversion
  | .int _ | .text _ => plain
  | .bool _ => truth
  | .float _ | .decimal _ => real
  | .instant _ => instant
  | .day _ => day
  | .uuid _ => uuid
  | _ => ofType type

/-- The conversion of the values of a list compared with a column. -/
def ofValues (type : ColumnType) (vs : List Value) : Conversion :=
  match vs with
  | [] => ofType type
  | v :: _ => ofValue type v

/-- The floating-point number nearest to a decimal, if it has a value or is a quiet
not-a-number. -/
def ofDecimal : Decimal → Option Binary64
  | .finite negative c e => some (Binary64.ofDecimal negative c e)
  | .infinite negative => some (.infinite negative)
  | .nan _ signaling _ => if signaling then none else some .nan

/-- A value as a floating-point number. -/
def toReal : Value → Option Binary64
  | .bool b => some (Binary64.ofInt (if b then 1 else 0))
  | .int i =>
    match Binary64.ofInt i with
    | .infinite _ => none
    | x => some x
  | .float x => some x
  | .decimal d => ofDecimal d
  | .text s => Binary64.read? s
  | _ => none

/-- A value as zero or one, if it equals one of them. -/
def toTruth (v : Value) : Option Int :=
  match v.number? with
  | none => none
  | some x =>
    if x.isSignaling then none
    else if x.compare? (.int 0) == some .eq then some 0
    else if x.compare? (.int 1) == some .eq then some 1
    else none

/-- Date and time of day with all six digits of the fraction. -/
def instantText (t : Instant) : String :=
  String.ofList (t.date.chars ++ ' ' :: paddedDigits 2 t.hour ++ ':' :: paddedDigits 2 t.minute ++
    ':' :: paddedDigits 2 t.second ++ '.' :: paddedDigits 6 t.microsecond)

/-- The value after a conversion, if it has one. -/
def converted? (c : Conversion) (v : Value) : Option Value :=
  match c, v with
  | _, .null => some .null
  | plain, v => some v
  | real, v => (toReal v).map .float
  | truth, v => (toTruth v).map .int
  | instant, .instant t => some (.text (instantText t))
  | instant, .day d => some (.text (instantText ⟨d, 0, 0, 0, 0, none⟩))
  | day, .instant t => some (.text t.date.text)
  | day, .day d => some (.text d.text)
  | uuid, .uuid u => some (.text (String.ofList u.hexChars))
  | _, _ => none

/-- The value after a conversion, which must exist. -/
def converted (c : Conversion) (v : Value) : Result Value :=
  match c.converted? v with
  | some w => .ok w
  | none => .error .unconvertible

end Conversion

/-- The cell of a converted value that a statement can carry. -/
def Value.cell (v : Value) : Result Cell :=
  match v with
  | .null => .ok .null
  | .bool b => .ok (.int (if b then 1 else 0))
  | .int i => if Cell.isStorable i then .ok (.int i) else .error .overflow
  | .float .nan => .ok .null
  | .float x => .ok (.real x)
  | .text s => .ok (.text s)
  | .instant t => .ok (.text t.text)
  | .day d => .ok (.text d.text)
  | _ => .error .unbindable

/-- A value that a statement carries, with its conversion. -/
structure Operand where
  conversion : Conversion
  value : Value

namespace Operand

/-- The cell of an operand. -/
def bound (o : Operand) : Result Cell := do
  (← o.conversion.converted o.value).cell

/-- The cell of an operand that a statement was found to carry. -/
def cell (o : Operand) : Cell :=
  match o.bound with
  | .ok c => c
  | .error _ => .null

/-- All operands have a value after their conversion. -/
def checkConverted : List Operand → Result Unit
  | [] => .ok ()
  | o :: rest => do
    let _ ← o.conversion.converted o.value
    checkConverted rest

/-- All operands have cells. -/
def checkBound : List Operand → Result Unit
  | [] => .ok ()
  | o :: rest => do
    let _ ← o.bound
    checkBound rest

/-- A statement can carry the operands. -/
def check (os : List Operand) : Result Unit := do
  checkConverted os
  checkBound os

/-- The operand that a value compared with a column is. -/
def ofValue (c : Column) (v : Value) : Operand :=
  ⟨Conversion.ofValue c.type v, v⟩

/-- The operands that the values of a list are; with a null among them each value stands for
itself. -/
def ofValues (c : Column) (vs : List Value) : List Operand :=
  if vs.any (·.isNull) then vs.map (ofValue c)
  else vs.map fun v => ⟨Conversion.ofValues c.type vs, v⟩

end Operand

end Listing
