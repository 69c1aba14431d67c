/-!
# Ordered entries

Entries under distinct names in the order in which the names first came. A later entry under a name
takes the place of the earlier one.
-/

set_option autoImplicit false

namespace Listing.Entries

variable {α : Type}

/-- The entry under a name. -/
def get? (name : String) : List (String × α) → Option α
  | [] => none
  | (s, a) :: rest => if s = name then some a else get? name rest

/-- The entries with one more, in the place of the one under the same name if there is one. -/
def put (name : String) (a : α) : List (String × α) → List (String × α)
  | [] => [(name, a)]
  | (s, b) :: rest => if s = name then (s, a) :: rest else (s, b) :: put name a rest

/-- The entries put one after another. -/
def ofList (entries : List (String × α)) : List (String × α) :=
  entries.foldl (fun acc e => put e.1 e.2 acc) []

/-- The entries of the second list put over those of the first. -/
def override (entries later : List (String × α)) : List (String × α) :=
  later.foldl (fun acc e => put e.1 e.2 acc) entries

end Listing.Entries
