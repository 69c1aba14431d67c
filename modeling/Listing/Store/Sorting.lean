import Listing.Value.Compare

/-!
# Stable sorting by comparison

`sortAscending` sorts items by a key under an order that may fail to compare two keys; items with
equal keys keep their places. A first run that is already in order, or strictly in the opposite
order, is taken as it is; each further item is inserted at the place that halving finds.
`sortDescending` is the same for the opposite order, again with equal keys in their places.
-/

set_option autoImplicit false

namespace Listing.Sorting

variable {α : Type}

/-- An item with its key. -/
abbrev Keyed (α : Type) : Type := Value × α

/-- The first key is less than the second. -/
def less (a b : Keyed α) : Result Bool :=
  a.1.compares .lt b.1

/-- The longest start without a decrease, after an item, and the rest. -/
def risingRun (last : Keyed α) : List (Keyed α) → Result (List (Keyed α) × List (Keyed α))
  | [] => .ok ([], [])
  | x :: rest => do
    if ← less x last then return ([], x :: rest)
    else
      let (run, tail) ← risingRun x rest
      return (x :: run, tail)

/-- The longest start that strictly decreases, after an item, in opposite order before `taken`, and
the rest. -/
def fallingRun (last : Keyed α) (taken : List (Keyed α)) :
    List (Keyed α) → Result (List (Keyed α) × List (Keyed α))
  | [] => .ok (taken, [])
  | x :: rest => do
    if ← less x last then fallingRun x (x :: taken) rest
    else return (taken, x :: rest)

/-- The first run of a list, in rising order, and the rest. -/
def firstRun : List (Keyed α) → Result (List (Keyed α) × List (Keyed α))
  | [] => .ok ([], [])
  | [x] => .ok ([x], [])
  | x :: y :: rest => do
    if ← less y x then fallingRun y [y, x] rest
    else
      let (run, tail) ← risingRun y rest
      return (x :: y :: run, tail)

/-- The number of items before which an item is not to stand, found by halving the range from `low`
up to `high`. -/
def insertionPoint (x : Keyed α) (sorted : List (Keyed α)) (low high : Nat) : Result Nat :=
  if _h : low < high then
    let middle := low + (high - low) / 2
    match sorted[middle]? with
    | none => .ok low
    | some y =>
      match less x y with
      | .error e => .error e
      | .ok true => insertionPoint x sorted low middle
      | .ok false => insertionPoint x sorted (middle + 1) high
  else .ok low
termination_by high - low
decreasing_by all_goals omega

/-- The item inserted after all items that are not greater. -/
def insert (x : Keyed α) (sorted : List (Keyed α)) : Result (List (Keyed α)) := do
  let n ← insertionPoint x sorted 0 sorted.length
  return sorted.take n ++ x :: sorted.drop n

/-- The items inserted one after another. -/
def insertAll (sorted : List (Keyed α)) : List (Keyed α) → Result (List (Keyed α))
  | [] => .ok sorted
  | x :: rest => do insertAll (← insert x sorted) rest

/-- The items in rising order of their keys. -/
def sortAscending (items : List (Keyed α)) : Result (List (Keyed α)) := do
  let (run, rest) ← firstRun items
  insertAll run rest

/-- The items in falling order of their keys. -/
def sortDescending (items : List (Keyed α)) : Result (List (Keyed α)) := do
  return (← sortAscending items.reverse).reverse

end Listing.Sorting
