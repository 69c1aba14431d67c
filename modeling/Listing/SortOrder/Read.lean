import Listing.Schema.Basic
import Listing.SortOrder.Basic

/-!
# Reading requested sort orders

A request lists tokens such as `asc:email`, several of them in one text separated by commas. The
order ends at the tie-breaker of the schema: keys after it are dropped, and where the request does
not name it, it follows with the direction of the last key. A request without tokens has the default
sort of the schema.
-/

set_option autoImplicit false

namespace Listing

open Text

namespace SortOrder

/-- The tokens of a requested sort. -/
def tokens (raw : Value) : Result (List String) :=
  match raw with
  | .null => .ok []
  | .text s => .ok (parts ',' s)
  | v => do return (← Value.displayedAll (← v.elements)).flatMap (parts ',')

/-- Reads one token; `seen` has the fields of the tokens before it. -/
def readKey (s : Schema) (seen : List String) (token : String) : Result SortKey :=
  match cutAt ':' token with
  | none => reject (.sortDirection token)
  | some (direction, rest) =>
    let field := trim rest
    if field = "" then reject (.sortDirection token)
    else match s.get? field with
      | none => reject (.unknownSortField field)
      | some f =>
        if !f.sortable then reject (.sortField field)
        else match Direction.read? direction with
          | none => reject (.sortDirection token)
          | some d =>
            if seen.contains field then reject (.repeatedSortField field)
            else .ok ⟨field, d⟩

/-- Reads tokens in order; `seen` has the fields of the tokens before them. -/
def readKeys (s : Schema) (seen : List String) : List String → Result (List SortKey)
  | [] => .ok []
  | token :: rest => do
    let key ← readKey s seen token
    return key :: (← readKeys s (key.field :: seen) rest)

/-- The keys up to the tie-breaker, which follows in the direction of the last key if it is not
among them. -/
def settle (tie : String) (last : Direction) : List SortKey → List SortKey
  | [] => [⟨tie, last⟩]
  | k :: rest => if k.field = tie then [k] else k :: settle tie k.direction rest

theorem settle_ne_nil (tie : String) (last : Direction) (keys : List SortKey) :
    settle tie last keys ≠ [] := by
  cases keys with
  | nil => simp [settle]
  | cons k rest =>
    unfold settle
    split <;> simp

/-- The order that ends at the tie-breaker; the tie-breaker alone is descending. -/
def settled (tie : String) (keys : List SortKey) : SortOrder :=
  ⟨settle tie .descending keys, settle_ne_nil tie .descending keys⟩

/-- Reads a requested sort. -/
def read (s : Schema) (raw : Value) : Result SortOrder := do
  let requested ← readKeys s [] (← tokens raw)
  let keys ← if requested.isEmpty then readKeys s [] s.defaultSort else pure requested
  return settled s.tieBreaker keys

end SortOrder

end Listing
