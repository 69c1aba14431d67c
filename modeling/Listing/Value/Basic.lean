import Listing.Number.Number
import Listing.Text.Quoted
import Listing.Time.Instant
import Listing.Uuid

/-!
# Values

The values that rows hold, that requests carry and that predicates compare: scalars, members of an
enumeration, and nested collections. Collections keep the order in which they were built. A `map`
has values for keys; an `object` has named attributes and answers to names only.

A value is what it holds and has no identity. So each member belongs to an enumeration of its own, and
a number without a value is never found in a list, not even where the list has the very same number.
A text is a sequence of Unicode scalar values; a lone surrogate is read as the replacement character.
-/

set_option autoImplicit false

namespace Listing

/-- A member of an enumeration: its value, and the names of the enumeration and of the member. -/
structure Member (α : Type) where
  value : α
  type : String
  name : String

/-- A value of a row, a request or a predicate. -/
inductive Value where
  | null
  | bool (b : Bool)
  | int (i : Int)
  | float (x : Binary64)
  | decimal (d : Decimal)
  | text (s : String)
  | instant (t : Instant)
  | day (d : Date)
  | uuid (u : Uuid)
  | member (m : Member Value)
  | list (vs : List Value)
  | tuple (vs : List Value)
  | map (entries : List (Value × Value))
  | object (attributes : List (String × Value))

instance : Inhabited Value := ⟨.null⟩

instance : Coe String Value := ⟨.text⟩

/-- A value alone is the only member `M` of an enumeration `E`. -/
instance : Coe Value (Member Value) := ⟨fun v => ⟨v, "E", "M"⟩⟩

instance : CoeOut (Member Value) Value := ⟨Member.value⟩

namespace Value

/-- The name of the type of a value. -/
def typeName : Value → String
  | null => "NoneType"
  | bool _ => "bool"
  | int _ => "int"
  | float _ => "float"
  | decimal _ => "Decimal"
  | text _ => "str"
  | instant _ => "datetime"
  | day _ => "date"
  | uuid _ => "UUID"
  | member m => m.type
  | list _ => "list"
  | tuple _ => "tuple"
  | map _ => "dict"
  | object _ => "SimpleNamespace"

/-- The value of a member of an enumeration, and any other value itself. -/
def unwrapped : Value → Value
  | member m => m.value
  | v => v

/-- The value is missing. -/
def isNull : Value → Bool
  | null => true
  | _ => false

/-- The value as a number; truth values count as one and zero. -/
def number? : Value → Option Number
  | bool b => some (.int (if b then 1 else 0))
  | int i => some (.int i)
  | float x => some (.float x)
  | decimal d => some (.decimal d)
  | _ => none

/-- The text of a text value. -/
def text? : Value → Option String
  | text s => some s
  | _ => none

/-- A map with texts for keys. -/
def record (fields : List (String × Value)) : Value :=
  map (fields.map fun (name, v) => (text name, v))

/-- The value counts as true where only presence matters. -/
def isTruthy : Value → Bool
  | null => false
  | bool b => b
  | int i => i != 0
  | float (.finite _ m _) => m != 0
  | float _ => true
  | decimal (.finite _ c _) => c != 0
  | decimal _ => true
  | text s => s != ""
  | list vs => !vs.isEmpty
  | tuple vs => !vs.isEmpty
  | map es => !es.isEmpty
  | _ => true

end Value

end Listing
