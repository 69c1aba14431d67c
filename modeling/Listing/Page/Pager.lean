import Listing.Cursor.Sealer
import Listing.Keyset
import Listing.Page.Basic
import Listing.Store.Basic

/-!
# Paging

A pager asks a store for one page. A keyset page is read with one row more than asked for, which
tells whether another page follows and is never returned. A page before a position is read backwards
under the reversed order and turned round. Size, page number and cursor are checked before the store
is asked, and the predicate of each request for rows is written into the log.
-/

set_option autoImplicit false

namespace Listing

/-- What asks a store for pages. -/
structure Pager where
  store : Store
  sealer : Sealer
  maxPageSize : Value

/-- Where reading starts. -/
inductive Start where
  /-- With the first row. -/
  | first
  /-- At the position of a cursor. -/
  | cursor (token : Value)
  /-- At a position. -/
  | position (p : Position)

namespace Pager

/-- The largest page where no other size is given. -/
def sizeLimit : Int := 100

/-- A page size as a number, which must be a positive integer that is not too large. -/
def admitSize (most size : Value) : Result Int :=
  match size with
  | .int n => do
    if n < 1 then rejectWith (Report.pageSize size most)
    else if ← (Value.int n).compares .lte most then return n
    else rejectWith (Report.pageSize size most)
  | _ => rejectWith (Report.pageSize size most)

/-- A page number, which must be a positive integer. -/
def admitPage (page : Value) : Result Int :=
  match page with
  | .int n => if n < 1 then rejectWith (Report.pageNumber page) else .ok n
  | _ => rejectWith (Report.pageNumber page)

/-- The rows of a window, the request noted in the log. A predicate that cannot be written stops before
the store is asked. -/
def fetch (p : Pager) (w : Window) : Traced (List Value) := do
  Traced.log .debug "store_fetch"
    [("criteria", ← w.predicate.written), ("sort", w.order.signature), ("limit", .int w.limit),
      ("offset", .int w.offset)]
  p.store.fetch w

/-- The position at which reading starts, if not with the first row. -/
def startPosition (p : Pager) (order : SortOrder) : Start → Traced (Option Position)
  | .first => pure none
  | .position here => pure (some here)
  | .cursor (.text t) => do return some (← p.sealer.resume order (.text t))
  | .cursor .null => pure none
  | .cursor _ => Traced.ofResult (.error .noSuchOperation)

/-- The cursor of a side of a row, if there is a row. -/
def sealOptional (p : Pager) (order : SortOrder) (side : Side) : Option Value → Result (Option String)
  | none => .ok none
  | some row => do return some (← p.sealer.sealRow order row side)

/-- The predicate of the rows to read: those that satisfy the criteria, and with a position only
those after it. -/
def wanted (criteria : Predicate) (order : SortOrder) : Option Position → Result Predicate
  | none => .ok criteria
  | some here => do Predicate.conjoined [criteria, ← Keyset.predicate order here.values]

/-- The page of the first rows, or of the rows after a position. -/
def forwardPage (p : Pager) (criteria : Predicate) (order : SortOrder) (size : Int)
    (from? : Option Position) : Traced KeysetPage := do
  let rows ← p.fetch ⟨← wanted criteria order from?, order, size + 1, 0⟩
  let shown := rows.take size.toNat
  let next ← p.sealOptional order .after
    (if size < rows.length then shown.getLast? else none)
  let previous ← p.sealOptional order .before
    (if from?.isSome then shown.head? else none)
  return ⟨shown, next, previous⟩

/-- The page of the rows before a position. -/
def backwardPage (p : Pager) (criteria : Predicate) (order : SortOrder) (size : Int)
    (here : Position) : Traced KeysetPage := do
  let backwards := order.reversed
  let rows ← p.fetch ⟨← wanted criteria backwards (some here), backwards, size + 1, 0⟩
  let shown := (rows.take size.toNat).reverse
  let previous ← p.sealOptional order .before
    (if size < rows.length then shown.head? else none)
  let next ← p.sealOptional order .after shown.getLast?
  return ⟨shown, next, previous⟩

/-- The page at a position, or the first page. -/
def pageAt (p : Pager) (criteria : Predicate) (order : SortOrder) (size : Int)
    (from? : Option Position) : Traced KeysetPage :=
  match from? with
  | some ⟨values, .before⟩ => p.backwardPage criteria order size ⟨values, .before⟩
  | _ => p.forwardPage criteria order size from?

/-- The keyset page of a request. -/
def keysetPage (p : Pager) (criteria : Predicate) (order : SortOrder) (size : Value)
    (start : Start) : Traced KeysetPage := do
  let n ← admitSize p.maxPageSize size
  p.pageAt criteria order n (← p.startPosition order start)

/-- The numbered page of a request. -/
def numberedPage (p : Pager) (criteria : Predicate) (order : SortOrder) (page size : Value) :
    Traced NumberedPage := do
  let n ← admitSize p.maxPageSize size
  let number ← admitPage page
  let total ← p.store.count criteria
  let rows ← p.fetch ⟨criteria, order, n, (number - 1) * n⟩
  return ⟨rows, number, n, total⟩

end Pager

end Listing
