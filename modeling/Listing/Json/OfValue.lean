import Listing.Json.Writer
import Listing.Value.Written

/-!
# Values as structured text

Scalars that the format knows, lists, tuples and maps are written as such, all other values by their
text. A key of a map must be a text, a number, a truth value or null, and becomes a name. An integer
with more digits than `digitLimit` is not written, neither as a value nor as a name.
-/

set_option autoImplicit false

namespace Listing.Json

/-- The name that a key of a map becomes. -/
def keyName : Value → Result String
  | .text s => .ok s
  | .int i => (Value.int i).quotation
  | .float x => .ok (writeFloat x)
  | .bool b => .ok (if b then "true" else "false")
  | .null => .ok "null"
  | _ => .error .illTyped

mutual

/-- A value in structured form. -/
def ofValue : Value → Result Json
  | .null => .ok null
  | .bool b => .ok (bool b)
  | .int i => (Value.int i).quotation.map fun _ => int i
  | .float x => .ok (float x)
  | .text s => .ok (text s)
  | .list vs => (ofValues vs).map list
  | .tuple vs => (ofValues vs).map list
  | .map es => (ofEntries es).map record
  | v => v.displayed.map text

/-- Values in structured form, in order. -/
def ofValues : List Value → Result (List Json)
  | [] => .ok []
  | v :: rest => do return (← ofValue v) :: (← ofValues rest)

/-- Entries in structured form, in order. -/
def ofEntries : List (Value × Value) → Result (List (String × Json))
  | [] => .ok []
  | (k, v) :: rest => do return (← keyName k, ← ofValue v) :: (← ofEntries rest)

end

end Listing.Json
