/-!
# Ordering comparisons

The four ways to compare two ordered values, with their names and their signs.
-/

set_option autoImplicit false

namespace Listing

/-- An ordering comparison. -/
inductive Comparison where
  | gt
  | gte
  | lt
  | lte
  deriving DecidableEq, Repr

namespace Comparison

/-- The name of a comparison. -/
def name : Comparison → String
  | gt => "gt"
  | gte => "gte"
  | lt => "lt"
  | lte => "lte"

/-- The sign of a comparison. -/
def sign : Comparison → String
  | gt => ">"
  | gte => ">="
  | lt => "<"
  | lte => "<="

/-- All comparisons. -/
def all : List Comparison :=
  [gt, gte, lt, lte]

/-- The comparison with a name. -/
def ofName? (s : String) : Option Comparison :=
  all.find? (·.name == s)

/-- The comparison holds of a left and a right side in the given order. -/
def admits : Comparison → Ordering → Bool
  | gt, o => o == .gt
  | gte, o => o != .lt
  | lt, o => o == .lt
  | lte, o => o != .gt

end Comparison

end Listing
