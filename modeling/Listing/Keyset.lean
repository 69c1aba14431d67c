import Listing.Predicate.Normal
import Listing.SortOrder.Basic

/-!
# Keysets

The rows strictly after a sequence of key values under a sort order are those beyond the first value
in the first key, or equal there and beyond the second in the second key, and so on. A row is beyond
a value in a key when it is greater and the key ascends, or less and the key descends.
-/

set_option autoImplicit false

namespace Listing

namespace SortKey

/-- The comparison of a row that comes after a value in the key. -/
def beyond (k : SortKey) : Comparison :=
  match k.direction with
  | .ascending => .gt
  | .descending => .lt

end SortKey

namespace Keyset

/-- One branch per key: equal in the keys before it, beyond in the key itself. -/
def branches (equalities : List Predicate) : List SortKey → List Value → List Predicate
  | k :: keys, v :: values =>
    .conjoin (equalities ++ [.order k.field k.beyond v]) ::
      branches (equalities ++ [.equal k.field v]) keys values
  | _, _ => []

/-- The predicate of the rows strictly after as many key values as there are keys. -/
def strictlyAfter (order : SortOrder) (values : List Value) : Predicate :=
  .disjoin (branches [] order.keys values)

/-- The predicate of the rows strictly after the key values, of which there must be as many as
keys. -/
def predicate (order : SortOrder) (values : List Value) : Result Predicate :=
  if values.length = order.size then .ok (strictlyAfter order values)
  else .error (.keyCount order.size values.length)

end Keyset

end Listing
