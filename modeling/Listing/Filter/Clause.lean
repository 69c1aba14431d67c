import Listing.Filter.Token

/-!
# Filter clauses

A clause is the filter on one field: operators, each with a raw value, and the way in which they
combine.
-/

set_option autoImplicit false

namespace Listing

open Text

/-- How the values given for one field combine. -/
inductive Junction where
  | conjunction
  | disjunction
  deriving DecidableEq, Repr

namespace Junction

/-- The name of a junction. -/
def name : Junction → String
  | conjunction => "AND"
  | disjunction => "OR"

/-- The junction that a value names for a field, without regard to case and to blanks around it; a
missing value names the conjunction. -/
def read (raw : Value) (field : String) : Result Junction :=
  if raw.isNull then .ok conjunction
  else do
    let name ← raw.displayed
    match [conjunction, disjunction].find? (·.name == upper (trim name)) with
    | some c => return c
    | none => reject (.junction field name)

end Junction

/-- The filter on one field. -/
structure Clause where
  field : String
  terms : List (Operator × Value)
  junction : Junction

namespace Clause

/-- The operator and the raw value of a token. -/
def readTerm (field token : String) : Result (Operator × Value) :=
  match cutAt ':' token with
  | none => reject (.malformedFilter field token)
  | some (name, value) =>
    match Operator.read? name with
    | none => reject (.filterOperator field (trim name))
    | some op => .ok (op, value)

/-- The operators and raw values of tokens in order. -/
def readTerms (field : String) : List String → Result (List (Operator × Value))
  | [] => .ok []
  | token :: rest => do return (← readTerm field token) :: (← readTerms field rest)

/-- The clause that tokens make up for a field. -/
def read (field : String) (raw junction : Value) : Result Clause := do
  let terms ← readTerms field (← Filter.tokens raw)
  return ⟨field, terms, ← Junction.read junction field⟩

end Clause

end Listing
