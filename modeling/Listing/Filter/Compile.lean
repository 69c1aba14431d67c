import Listing.Filter.Clause
import Listing.Predicate.Normal
import Listing.Schema.Basic
import Listing.Trace

/-!
# From filters to predicates

The filters of a request, one per field, become one predicate. The terms of one field combine as its
junction says; different fields always combine by conjunction.
-/

set_option autoImplicit false

namespace Listing

open Text

namespace Filter

/-- The values in a text, separated by commas; there must be one. -/
def listedValues (field : String) (raw : Value) : Result (List String) :=
  match raw with
  | .text s =>
    if (parts ',' s).isEmpty then rejectWith (Report.filterValue field raw "expected at least one value")
    else .ok (parts ',' s)
  | _ => .error .noSuchOperation

/-- Values of the kind of a field, read in order. -/
def coerceAll (s : Schema) (field : String) : List String → Result (List Value)
  | [] => .ok []
  | raw :: rest => do return (← s.coerce field raw) :: (← coerceAll s field rest)

/-- The leaf of one term. -/
def leaf (s : Schema) (field : String) (f : Field) (op : Operator) (raw : Value) :
    Result Predicate :=
  if !f.allows op then reject (.filterOperator field op.name)
  else match op with
    | .like => .ok (.like field raw false)
    | .likeAnyCase => .ok (.like field raw true)
    | .unlike => .ok (.unlike field raw)
    | .among => do return .among field (← coerceAll s field (← listedValues field raw))
    | .outside => do return .outside field (← coerceAll s field (← listedValues field raw))
    | .equal => do return .equal field (← s.coerce field raw)
    | .differ => do return .differ field (← s.coerce field raw)
    | .order c => do return .order field c (← s.coerce field raw)

/-- The leaves of terms in order. -/
def leaves (s : Schema) (field : String) (f : Field) :
    List (Operator × Value) → Result (List Predicate)
  | [] => .ok []
  | (op, raw) :: rest => do return (← leaf s field f op raw) :: (← leaves s field f rest)

/-- The predicate of one clause. -/
def clausePredicate (s : Schema) (c : Clause) : Result Predicate :=
  match s.get? c.field with
  | none => reject (.filterField c.field)
  | some f => do
    let parts ← leaves s c.field f c.terms
    return match c.junction with
      | .conjunction => .conjoin parts
      | .disjunction => .disjoin parts

/-- The predicates of clauses in order. -/
def clausePredicates (s : Schema) : List Clause → Result (List Predicate)
  | [] => .ok []
  | c :: rest => do return (← clausePredicate s c) :: (← clausePredicates s rest)

/-- The predicate of all clauses. -/
def predicate (s : Schema) (clauses : List Clause) : Result Predicate := do
  return .conjoin (← clausePredicates s clauses)

/-- The clauses of a request, those without terms left out. Each field is looked up before its
tokens are read. -/
def clauses (s : Schema) (junctions : List (String × Value)) :
    List (String × Value) → Result (List Clause)
  | [] => .ok []
  | (field, raw) :: rest =>
    if s.declares field then do
      let c ← Clause.read field raw ((Entries.get? field junctions).getD .null)
      let others ← clauses s junctions rest
      return if c.terms.isEmpty then others else c :: others
    else reject (.filterField field)

/-- The predicate of all clauses, noted in the log unless it is neutral. -/
def compileClauses (s : Schema) (cs : List Clause) : Traced Predicate := do
  let p ← predicate s cs
  if !p.isAlways then
    Traced.log .debug "filters_parsed" [("entity", s.entity), ("criteria", ← p.written)]
  return p

/-- The predicate of the filters of a request. -/
def compile (s : Schema) (filters junctions : List (String × Value)) : Traced Predicate := do
  compileClauses s (← clauses s junctions filters)

end Filter

end Listing
