import Listing.Direction
import Listing.Text.Split

/-!
# Sort orders

A sort order is a sequence of keys, at least one, the first of which counts most. The last key is
meant to tell any two rows apart. `SortOrder.signature` is the text by which an order is known to
whoever resumes under it.
-/

set_option autoImplicit false

namespace Listing

/-- A field to sort by and the direction of the sort. -/
structure SortKey where
  field : String
  direction : Direction
  deriving DecidableEq, Repr

namespace SortKey

/-- The text of a key. -/
def text (k : SortKey) : String :=
  k.field ++ ":" ++ k.direction.name

/-- The key with the opposite direction. -/
def reversed (k : SortKey) : SortKey :=
  { k with direction := k.direction.reversed }

end SortKey

/-- A sequence of sort keys that is not empty. -/
structure SortOrder where
  keys : List SortKey
  nonempty : keys ≠ []
  deriving DecidableEq

namespace SortOrder

/-- The order with the given keys, of which there must be one. -/
def ofKeys (keys : List SortKey) : Result SortOrder :=
  if h : keys ≠ [] then .ok ⟨keys, h⟩ else .error .emptySort

/-- The key that counts most. -/
def primary (s : SortOrder) : SortKey :=
  s.keys.head s.nonempty

/-- The key that counts least. -/
def tieBreaker (s : SortOrder) : SortKey :=
  s.keys.getLast s.nonempty

/-- The fields of the keys. -/
def fields (s : SortOrder) : List String :=
  s.keys.map (·.field)

/-- The number of keys. -/
def size (s : SortOrder) : Nat :=
  s.keys.length

/-- The text of an order. -/
def signature (s : SortOrder) : String :=
  Text.joinWith "," (s.keys.map (·.text))

/-- The same keys with opposite directions. -/
def reversed (s : SortOrder) : SortOrder :=
  ⟨s.keys.map (·.reversed), by simpa using s.nonempty⟩

end SortOrder

end Listing
