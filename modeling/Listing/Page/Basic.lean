import Listing.Fault

/-!
# Pages

A keyset page has rows and the cursors of the pages next to it; a numbered page has rows, its number
counted from one, and the number of all rows. The number of pages is rounded up from the quotient in
binary floating point.
-/

set_option autoImplicit false

namespace Listing

/-- A page found by cursor. -/
structure KeysetPage where
  rows : List Value
  next : Option String
  previous : Option String

/-- A page found by number. -/
structure NumberedPage where
  rows : List Value
  page : Int
  size : Int
  total : Int

/-- The values of a function that may fail, in order. -/
def mapRows (f : Value → Result Value) : List Value → Result (List Value)
  | [] => .ok []
  | row :: rest => do return (← f row) :: (← mapRows f rest)

namespace KeysetPage

/-- A page follows. -/
def hasNext (p : KeysetPage) : Bool :=
  p.next.isSome

/-- A page precedes. -/
def hasPrevious (p : KeysetPage) : Bool :=
  p.previous.isSome

/-- The page with each row exchanged for its value under a function. -/
def map (f : Value → Result Value) (p : KeysetPage) : Result KeysetPage := do
  return { p with rows := ← mapRows f p.rows }

end KeysetPage

namespace NumberedPage

/-- The number of pages, which must fit the floating-point format. -/
def pageCount (p : NumberedPage) : Result Int :=
  if p.size ≤ 0 ∨ p.total ≤ 0 then .ok 0
  else match (Binary64.ofRatio false p.total.toNat p.size.toNat).ceil? with
    | some n => .ok n
    | none => .error .overflow

/-- A page follows. -/
def hasNext (p : NumberedPage) : Result Bool := do
  return decide (p.page < (← p.pageCount))

/-- A page precedes. -/
def hasPrevious (p : NumberedPage) : Bool :=
  decide (1 < p.page)

/-- The page with each row exchanged for its value under a function. -/
def map (f : Value → Result Value) (p : NumberedPage) : Result NumberedPage := do
  return { p with rows := ← mapRows f p.rows }

end NumberedPage

end Listing
