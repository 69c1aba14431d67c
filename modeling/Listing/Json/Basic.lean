import Listing.Number.Binary64

/-!
# Structured text data

The values of the common structured text format. Numbers without fraction and power are integers of
any size; the fields of an object keep their order.
-/

set_option autoImplicit false

namespace Listing

/-- A value of the structured text format. -/
inductive Json where
  | null
  | bool (b : Bool)
  | int (i : Int)
  | float (x : Binary64)
  | text (s : String)
  | list (items : List Json)
  | record (fields : List (String × Json))

instance : Inhabited Json := ⟨.null⟩

namespace Json

/-- The field under a name. -/
def fieldNamed? (name : String) : List (String × Json) → Option Json
  | [] => none
  | (s, v) :: rest => if s = name then some v else fieldNamed? name rest

end Json

end Listing
