import Listing.Predicate.Evaluate
import Listing.Store.Basic
import Listing.Store.Sorting

/-!
# Rows in memory

A memory keeps rows in the order in which they came. It sorts by one key after another, from the
least significant one up, each time keeping the places of rows with equal keys. Every call is noted,
also one that fails because the memory has been set to fail.
-/

set_option autoImplicit false

namespace Listing

/-- Rows kept in memory, and the fault by which every call stops if there is one. -/
structure Memory where
  rows : List Value
  failure : Option Fault

namespace Memory

/-- A memory of rows, in service. -/
def ofRows (rows : List Value) : Memory :=
  ⟨rows, none⟩

/-- The memory with more rows. -/
def add (m : Memory) (rows : List Value) : Memory :=
  { m with rows := m.rows ++ rows }

/-- The memory without the rows that satisfy a predicate. -/
def remove (m : Memory) (p : Predicate) : Result Memory := do
  return { m with rows := ← Predicate.select (fun row => (p.holds row).map (!·)) m.rows }

/-- The memory out of service, or in service again. -/
def setOutage (m : Memory) (outage : Option Outage) : Memory :=
  { m with failure := outage.map .outage }

/-- The rows that satisfy a predicate. -/
def matching (rows : List Value) (p : Predicate) : Result (List Value) :=
  Predicate.select p.holds rows

/-- The rows with their values in a field, which all must have. -/
def keyed (field : String) : List Value → Result (List (Sorting.Keyed Value))
  | [] => .ok []
  | row :: rest => do return (← row.field field, row) :: (← keyed field rest)

/-- The rows sorted by one key. -/
def sortBy (k : SortKey) (rows : List Value) : Result (List Value) := do
  let items ← keyed k.field rows
  let sorted ← match k.direction with
    | .ascending => Sorting.sortAscending items
    | .descending => Sorting.sortDescending items
  return sorted.map (·.2)

/-- The rows sorted by keys, the first of which counts most. -/
def sortByAll : List SortKey → List Value → Result (List Value)
  | [], rows => .ok rows
  | k :: keys, rows => do sortBy k (← sortByAll keys rows)

/-- A place in a list of a length; a negative number counts from the end. -/
def place (length : Nat) (i : Int) : Nat :=
  if i < 0 then (i + length).toNat else min i.toNat length

/-- The items from one place up to another. -/
def slice {α : Type} (items : List α) (start stop : Int) : List α :=
  let low := place items.length start
  let high := place items.length stop
  (items.take high).drop low

/-- The rows of a window. -/
def window (rows : List Value) (w : Window) : Result (List Value) := do
  let sorted ← sortByAll w.order.keys (← matching rows w.predicate)
  return slice sorted w.offset (w.offset + w.limit)

/-- Stops if the memory is set to fail. -/
def inService (m : Memory) : Result Unit :=
  match m.failure with
  | none => .ok ()
  | some e => .error e

/-- The store of a memory. -/
def store (m : Memory) : Store where
  fetch w := do
    Traced.note (.call (.fetch w))
    m.inService
    window m.rows w
  count p := do
    Traced.note (.call (.count p))
    m.inService
    return (← (matching m.rows p : Result (List Value))).length

end Memory

end Listing
