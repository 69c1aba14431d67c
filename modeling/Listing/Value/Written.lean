import Listing.Fault

/-!
# Writing values

The text of a value is written unless it shows an integer with more digits than `digitLimit`, which is
a fault. Whatever writes a value, in a log, in the words of a report or to compare it with a pattern,
stops by that fault.
-/

set_option autoImplicit false

namespace Listing.Value

/-- The text of a value as shown to a reader, if it can be written. -/
def displayed (v : Value) : Result String :=
  if v.isShowable then .ok v.display else .error .longInteger

/-- The unambiguous text of a value, if it can be written. -/
def quotation (v : Value) : Result String :=
  if v.isQuotable then .ok v.quoted else .error .longInteger

/-- The texts of values as shown to a reader, in order. -/
def displayedAll : List Value → Result (List String)
  | [] => .ok []
  | v :: rest => do return (← v.displayed) :: (← displayedAll rest)

end Listing.Value
