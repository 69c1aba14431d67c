import Listing.Trace

/-!
# Stores

A store holds rows. It is asked for a window of the rows that satisfy a predicate, under an order,
or for their number.
-/

set_option autoImplicit false

namespace Listing

/-- What a store answers. -/
structure Store where
  fetch : Window → Traced (List Value)
  count : Predicate → Traced Nat

end Listing
