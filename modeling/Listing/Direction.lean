import Listing.Fault
import Listing.Text.Blank
import Listing.Text.LetterCase

/-!
# Sort directions
-/

set_option autoImplicit false

namespace Listing

/-- The direction of a sort key. -/
inductive Direction where
  | ascending
  | descending
  deriving DecidableEq, Repr

namespace Direction

/-- The name of a direction. -/
def name : Direction → String
  | ascending => "ASC"
  | descending => "DESC"

/-- The direction with exactly the given name. -/
def ofName? (s : String) : Option Direction :=
  [ascending, descending].find? (·.name == s)

/-- The direction with exactly the given name, which must exist. -/
def ofName (s : String) : Result Direction :=
  match ofName? s with
  | some d => .ok d
  | none => .error (.notAMember s "SortDirection")

/-- The direction that a token names, without regard to case and to blanks around it. -/
def read? (token : String) : Option Direction :=
  ofName? (Text.upper (Text.trim token))

/-- The opposite direction. -/
def reversed : Direction → Direction
  | ascending => descending
  | descending => ascending

end Direction

end Listing
