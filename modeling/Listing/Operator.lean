import Listing.Comparison
import Listing.Fault
import Listing.Text.Blank
import Listing.Text.LetterCase

/-!
# Filter operators

The operators that a filter may name before a value. An operator is read without regard to case and
to blanks around it.
-/

set_option autoImplicit false

namespace Listing

/-- An operator of a filter. -/
inductive Operator where
  | equal
  | differ
  | order (c : Comparison)
  | like
  | likeAnyCase
  | unlike
  | among
  | outside
  deriving DecidableEq, Repr

namespace Operator

/-- The name of an operator. -/
def name : Operator → String
  | equal => "eq"
  | differ => "ne"
  | order c => c.name
  | like => "lk"
  | likeAnyCase => "ilk"
  | unlike => "nlk"
  | among => "in"
  | outside => "nin"

/-- All operators, by name. -/
def all : List Operator :=
  [equal, order .gt, order .gte, likeAnyCase, among, like, order .lt, order .lte, differ, outside,
    unlike]

/-- The operator with exactly the given name. -/
def ofName? (s : String) : Option Operator :=
  all.find? (·.name == s)

/-- The operator with exactly the given name, which must exist. -/
def ofName (s : String) : Result Operator :=
  match ofName? s with
  | some op => .ok op
  | none => .error (.notAMember s "FilterOperator")

/-- The operator that a token names. -/
def read? (token : String) : Option Operator :=
  ofName? (Text.lower (Text.trim token))

/-- The operator compares with a pattern. -/
def isLike : Operator → Bool
  | like | likeAnyCase | unlike => true
  | _ => false

/-- The operator takes several values. -/
def isMultiple : Operator → Bool
  | among | outside => true
  | _ => false

/-- The comparison of an operator that orders. -/
def comparison? : Operator → Option Comparison
  | order c => some c
  | _ => none

/-- The comparison of an operator that must order. -/
def comparison (op : Operator) : Result Comparison :=
  match op.comparison? with
  | some c => .ok c
  | none => .error (.notAnOrdering op.name)

end Operator

end Listing
