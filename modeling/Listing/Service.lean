import Listing.Filter.Compile
import Listing.Page.Pager
import Listing.Scope
import Listing.Search
import Listing.Settings.Service
import Listing.SortOrder.Read

/-!
# The list service

The service lists the rows of one entity within a scope. A request is prepared first: its filters
and search are compiled and joined with the scope, its sort is read, its size checked and its cursor
opened. Nothing of this asks the store; a prepared query then asks for one page.
-/

set_option autoImplicit false

namespace Listing

/-- The service of one entity. -/
structure Service where
  schema : Schema
  settings : ServiceSettings
  scopeField : String
  search : Search
  pager : Pager

/-- What a client asks for. -/
structure Request where
  filters : List (String × Value)
  junctions : List (String × Value)
  search : Value
  sort : Value
  size : Value
  page : Value
  start : Start

/-- The scope of a request: a value of the scope field, or a predicate. -/
inductive RequestScope where
  | value (v : Value)
  | predicate (p : Predicate)

/-- A request that has been checked. -/
structure CheckedQuery where
  criteria : Predicate
  order : SortOrder
  size : Int
  page : Value
  position : Option Position

namespace Start

/-- Reading starts at a cursor. -/
def isGiven : Start → Bool
  | first => false
  | cursor v => v.isTruthy
  | position _ => true

end Start

namespace CheckedQuery

/-- The query asks for a page by number. -/
def isByNumber (q : CheckedQuery) : Bool :=
  !q.page.isNull

end CheckedQuery

namespace Service

/-- The service over a store. -/
def make (schema : Schema) (store : Store) (settings : ServiceSettings) (scopeField : String)
    (searchFields : Option (List String)) : Result Service := do
  let search ← Search.ofSchema schema searchFields
  let sealer ← Sealer.ofSecret settings.cursorSecret schema settings.maxCursorLength
  return ⟨schema, settings, scopeField, search, ⟨store, sealer, settings.maxPageSize⟩⟩

/-- The service over another store. -/
def withStore (s : Service) (store : Store) : Service :=
  { s with pager := { s.pager with store } }

/-- The predicate of a scope. -/
def scopePredicate (s : Service) : RequestScope → Result Predicate
  | .value v => Scope.ofValue s.scopeField v
  | .predicate p => .ok p

/-- The position that a cursor of a request stands for. -/
def readCursor (s : Service) (order : SortOrder) : Start → Traced Position
  | .cursor v => s.pager.sealer.resume order v
  | _ => s.pager.sealer.resume order .null

/-- The checked query of a request. -/
def prepare (s : Service) (r : Request) (scope : RequestScope) : Traced CheckedQuery := do
  if !r.page.isNull && r.start.isGiven then
    Traced.ofResult (reject .pageAndCursor)
  let scope ← s.scopePredicate scope
  let filter ← Filter.compile s.schema r.filters r.junctions
  let search ← s.search.compile r.search
  let criteria ← Scope.compose (some scope) filter search
  let order ← SortOrder.read s.schema r.sort
  let size ← Pager.admitSize s.pager.maxPageSize
    (if r.size.isNull then s.settings.defaultPageSize else r.size)
  let position ← if r.start.isGiven then some <$> s.readCursor order r.start else pure none
  return ⟨criteria, order, size, r.page, position⟩

/-- The page of either sort that a service answers. -/
inductive Answer where
  | byCursor (p : KeysetPage)
  | byNumber (p : NumberedPage)

/-- The page of a request. -/
def list (s : Service) (r : Request) (scope : RequestScope) : Traced Answer := do
  let q ← s.prepare r scope
  Traced.log .debug "list_query"
    [("entity", s.schema.entity), ("criteria", ← q.criteria.written), ("sort", q.order.signature),
      ("size", .int q.size), ("page", q.page), ("resumed", .bool q.position.isSome)]
  if q.isByNumber then
    return .byNumber (← s.pager.numberedPage q.criteria q.order q.page (.int q.size))
  else
    let start := match q.position with
      | none => .first
      | some p => .position p
    return .byCursor (← s.pager.keysetPage q.criteria q.order (.int q.size) start)

end Service

end Listing
