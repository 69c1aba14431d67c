import Listing.Predicate.Normal
import Listing.Schema.Basic
import Listing.Trace
import Listing.Wildcard

/-!
# Free-text search

A search term is looked for, without regard to case, in every field searched; a row with the term in
any one of them is a hit. A blank term searches nothing and holds of every row.
-/

set_option autoImplicit false

namespace Listing

/-- The fields of an entity that a search looks into. -/
structure Search where
  entity : String
  fields : List String

namespace Search

/-- All names are among the given ones; the first that is not is the fault. -/
def checkFields (searchable : List String) : List String → Result Unit
  | [] => .ok ()
  | name :: rest =>
    if searchable.contains name then checkFields searchable rest
    else reject (.searchField name)

/-- The search of some searchable fields of a schema, or of all of them. -/
def ofSchema (s : Schema) (fields : Option (List String)) : Result Search :=
  match fields with
  | none => .ok ⟨s.entity, s.searchFields⟩
  | some names => do
    checkFields s.searchFields names
    return ⟨s.entity, names⟩

/-- The predicate of the rows with a term in one of the fields. -/
def hits (s : Search) (term : String) : Predicate :=
  .disjoin (s.fields.map fun f => .like f (Wildcard.containing (Text.trim term)) true)

/-- The predicate of a search term, noted in the log unless the term is blank. -/
def compile (s : Search) (term : Value) : Traced Predicate :=
  match term with
  | .null => pure .always
  | .text t =>
    if Text.isBlankText t then pure .always
    else do
      Traced.log .debug "search_compiled" [("entity", s.entity), ("criteria", ← (s.hits t).written)]
      return s.hits t
  | _ => Traced.ofResult (.error .noSuchOperation)

end Search

end Listing
