import Listing.Direction
import Listing.Entries
import Listing.Predicate.Basic
import Listing.Report.Quoting
import Listing.Schema.Kind

/-!
# Schemas

A schema declares the fields of an entity that may be filtered, searched and sorted, the field that
breaks ties in a sort, and the sort used when a request has none. `Schema.declare` refuses a
declaration that contradicts itself, so a request never meets one.
-/

set_option autoImplicit false

namespace Listing

open Text

/-- A declared field. -/
structure Field where
  kind : Kind
  operators : List Operator
  sortable : Bool
  searchable : Bool
  choices : List String
  nullable : Bool

namespace Field

/-- The field may be filtered with an operator. -/
def allows (f : Field) (op : Operator) : Bool :=
  f.operators.contains op

/-- The value is of the kind of the field. -/
def accepts (f : Field) (v : Value) : Bool :=
  f.kind.accepts f.choices v

/-- A value of the kind of the field. -/
def coerce (f : Field) (raw : Value) : Except Unfit Value :=
  f.kind.coerce f.choices raw

end Field

/-- A field as written in a declaration, its kind and operators by name. -/
structure FieldText where
  name : String
  kind : String
  operators : Option (List String)
  sortable : Bool
  searchable : Bool
  choices : List String
  nullable : Bool

namespace FieldText

/-- The names of operators read in order. -/
def readOperators : List String → Result (List Operator)
  | [] => .ok []
  | s :: rest => do return (← Operator.ofName s) :: (← readOperators rest)

/-- The field that a declaration describes; without operators it has those of its kind. -/
def read (t : FieldText) : Result Field := do
  let kind ← Kind.ofName t.kind
  let given ← match t.operators with
    | none => pure kind.operators
    | some names => readOperators names
  return {
    kind
    operators := Operator.all.filter given.contains
    sortable := t.sortable
    searchable := t.searchable
    choices := t.choices
    nullable := t.nullable }

/-- The fields that declarations describe, under their names. -/
def readAll : List FieldText → Result (List (String × Field))
  | [] => .ok []
  | t :: rest => do return (t.name, ← t.read) :: (← readAll rest)

end FieldText

/-- The declared fields of an entity. -/
structure Schema where
  entity : String
  fields : List (String × Field)
  tieBreaker : String
  defaultSort : List String

namespace Schema

/-- The field under a name. -/
def get? (s : Schema) (name : String) : Option Field :=
  Entries.get? name s.fields

/-- The schema declares a field under the name. -/
def declares (s : Schema) (name : String) : Bool :=
  (s.get? name).isSome

/-- The schema declares a field under the name that may be sorted. -/
def sorts (s : Schema) (name : String) : Bool :=
  match s.get? name with
  | some f => f.sortable
  | none => false

/-- The fields that may be sorted. -/
def sortFields (s : Schema) : List String :=
  (s.fields.filter (·.2.sortable)).map (·.1)

/-- The fields that are searched. -/
def searchFields (s : Schema) : List String :=
  (s.fields.filter (·.2.searchable)).map (·.1)

/-! ## Declaration -/

/-- What contradicts itself in a field, if anything. -/
def fieldContradiction? (name : String) (f : Field) : Option String :=
  let patterns := (f.operators.filter (·.isLike)).map (·.name)
  if name = "" then some "field names must be non-empty"
  else if patterns ≠ [] ∧ f.kind ≠ .text then
    some ("'" ++ name ++ "' is " ++ f.kind.name ++ " but allows " ++ joinWith ", " patterns)
  else if f.searchable ∧ f.kind ≠ .text then
    some ("searchable field '" ++ name ++ "' must be a string")
  else if f.kind = .choice ∧ f.choices = [] then
    some ("enum field '" ++ name ++ "' declares no values")
  else if f.sortable ∧ f.nullable then
    some ("sortable field '" ++ name ++ "' cannot be nullable")
  else none

/-- What contradicts the schema in a token of the default sort, if anything. -/
def sortContradiction? (s : Schema) (token : String) : Option String :=
  match cutAt ':' token with
  | none => some ("default sort '" ++ token ++ "' has no asc or desc direction")
  | some (direction, field) =>
    if (Direction.read? direction).isNone then
      some ("default sort '" ++ token ++ "' has no asc or desc direction")
    else if s.sorts (trim field) then none
    else some ("default sort '" ++ token ++ "' names no sortable field")

/-- The first contradiction in a schema, if any. -/
def contradiction? (s : Schema) : Option String :=
  if s.entity = "" then some "entity name is required"
  else match s.fields.findSome? fun (name, f) => fieldContradiction? name f with
    | some reason => some reason
    | none =>
      if s.sorts s.tieBreaker then s.defaultSort.findSome? s.sortContradiction?
      else some ("tie-breaker '" ++ s.tieBreaker ++ "' must be a declared sortable field")

/-- The schema of a declaration, if it is consistent. -/
def declare (entity : String) (fields : List FieldText) (tieBreaker : String)
    (defaultSort : List String) : Result Schema := do
  let s : Schema := ⟨entity, Entries.ofList (← FieldText.readAll fields), tieBreaker, defaultSort⟩
  match s.contradiction? with
  | none => return s
  | some reason =>
    reject (.schemaDefinition (if entity = "" then "<unnamed>" else entity) reason)

/-! ## Values -/

/-- A value of the kind of a declared field. -/
def coerce (s : Schema) (field : String) (raw : Value) : Result Value :=
  match s.get? field with
  | none => reject (.filterField field)
  | some f =>
    match f.coerce raw with
    | .ok v => .ok v
    | .error why => rejectWith (Report.filterValue field raw why.message)

/-- A value compared with a declared field is of its kind. -/
def admitValue (s : Schema) (field : String) (v : Value) : Result Unit :=
  match s.get? field with
  | none => reject (.filterField field)
  | some f =>
    if f.accepts v then .ok ()
    else rejectWith (Report.filterValue field v ("expected " ++ f.kind.name))

/-- A pattern compared with a declared field is a text, and the field a text field. -/
def admitPattern (s : Schema) (field : String) (pattern : Value) : Result Unit :=
  match s.get? field with
  | none => reject (.filterField field)
  | some f =>
    match f.kind, pattern with
    | .text, .text _ => .ok ()
    | _, _ => rejectWith (Report.filterValue field pattern "LIKE requires a string field and pattern")

/-- Values compared with a declared field are of its kind, checked in order. -/
def admitValues (s : Schema) (field : String) : List Value → Result Unit
  | [] => .ok ()
  | v :: rest => do
    s.admitValue field v
    s.admitValues field rest

mutual

/-- Every leaf of a predicate fits the schema; the first that does not is the fault. -/
def validate (s : Schema) : Predicate → Result Unit
  | .equal f v | .differ f v | .order f _ v => s.admitValue f v
  | .like f p _ | .unlike f p => s.admitPattern f p
  | .among f vs | .outside f vs => s.admitValues f vs
  | .all parts => validateAll s parts
  | .any parts => validateAll s parts
  | .always => .ok ()
  | .foreign _ => .error .noSuchOperation

/-- Every leaf of the predicates fits the schema. -/
def validateAll (s : Schema) : List Predicate → Result Unit
  | [] => .ok ()
  | p :: rest => do
    s.validate p
    validateAll s rest

end

end Schema

end Listing
