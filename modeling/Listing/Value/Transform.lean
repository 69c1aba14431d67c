import Listing.Text.LetterCase
import Listing.Value.Written

/-!
# Transformed values

The transformations that may be applied to the rows of a page: the text shown to a reader, the
upper case of a text, and twice a value, which for collections and texts is the value repeated.
-/

set_option autoImplicit false

namespace Listing

namespace Value

/-- The text shown to a reader, as a value. -/
def shown (v : Value) : Result Value :=
  v.displayed.map .text

/-- A text in upper case. -/
def uppercased : Value → Result Value
  | .text s => .ok (.text (Text.upper s))
  | _ => .error .illTyped

/-- Twice a decimal, which must be in range and must not be a signaling not-a-number. -/
def doubledDecimal (d : Decimal) : Result Value :=
  if d.isSignaling then .error .invalidOperation
  else match d.double with
    | some e => .ok (.decimal e)
    | none => .error .decimalOverflow

/-- Twice a value. -/
def doubled : Value → Result Value
  | .bool b => .ok (.int (if b then 2 else 0))
  | .int i => .ok (.int (2 * i))
  | .float x => .ok (.float x.double)
  | .decimal d => doubledDecimal d
  | .text s => .ok (.text (s ++ s))
  | .list vs => .ok (.list (vs ++ vs))
  | .tuple vs => .ok (.tuple (vs ++ vs))
  | _ => .error .illTyped

end Value

end Listing
