import Listing.Fault

/-!
# Positions between rows

A position is given by the sort values of one row and the side of that row on which reading goes on.
-/

set_option autoImplicit false

namespace Listing

/-- The side of a row on which reading goes on. -/
inductive Side where
  | after
  | before
  deriving DecidableEq, Repr

namespace Side

/-- The name of a side. -/
def name : Side → String
  | after => "after"
  | before => "before"

/-- The side with exactly the given name. -/
def ofName? (s : String) : Option Side :=
  [after, before].find? (·.name == s)

/-- The side with exactly the given name, which must exist. -/
def ofName (s : String) : Result Side :=
  match ofName? s with
  | some d => .ok d
  | none => .error (.notAMember s "CursorDirection")

end Side

/-- The sort values of a row and a side of it. -/
structure Position where
  values : List Value
  side : Side

end Listing
