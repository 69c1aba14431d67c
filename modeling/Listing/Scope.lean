import Listing.Predicate.Normal
import Listing.Schema.Basic

/-!
# Scopes

Every query is restricted to a scope, normally one value of one field. A query is the conjunction of
its scope, its filters and its search, in that order; without a scope there is none.
-/

set_option autoImplicit false

namespace Listing

namespace Scope

/-- The value is no scope: it is missing or blank. -/
def isMissing : Value → Bool
  | .null => true
  | .text s => Text.isBlankText s
  | _ => false

/-- The scope of the rows with a value in a field. -/
def ofValue (field : String) (v : Value) : Result Predicate :=
  if isMissing v then reject (.missingScopeValue field) else .ok (.equal field v)

/-- The conjunction of a scope with filters and a search. -/
def compose (scope : Option Predicate) (filter search : Predicate) : Result Predicate :=
  match scope with
  | none | some (.foreign .null) => reject .missingScope
  | some p => do
    if (← p.normalized).isAlways then reject .missingScope
    else Predicate.conjoined [p, filter, search]

/-- The conjunction of a scope with filters and a search, checked against a schema if one is
given. -/
def composeChecked (schema : Option Schema) (scope : Option Predicate)
    (filter search : Predicate) : Result Predicate := do
  let p ← compose scope filter search
  match schema with
  | none => return p
  | some s =>
    s.validate p
    return p

end Scope

end Listing
