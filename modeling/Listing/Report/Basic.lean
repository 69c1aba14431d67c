import Listing.ErrorKind
import Listing.Value.Text

/-!
# Reported errors

A report says what went wrong in words, under a code, with the offending input as detail. A report
on rejected input also lists the offending fields; a report about one field that lists none lists
its own detail. The functions named after the kinds of errors build the reports of this library; those
whose words quote a value of any type, which may be too long to be written, stand in
`Listing.Report.Quoting`.
-/

set_option autoImplicit false

namespace Listing

open Text

/-- A reported error. -/
structure Report where
  kind : ErrorKind
  message : Value
  code : Value
  detail : List (String × Value)
  errors : Value

namespace Report

/-- The field list of an error that was given none: its detail, if that names a field. -/
def fieldsOf (detail : List (String × Value)) : Value :=
  .list (if detail.any (·.1 == "field") then [.record detail] else [])

/-- A report with the code of its kind. -/
def make (kind : ErrorKind) (message : String) (detail : List (String × Value))
    (errors : Value) : Report :=
  ⟨kind, .text message, .text kind.code, detail, errors⟩

/-- A report whose field list follows from its detail. -/
def plain (kind : ErrorKind) (message : String) (detail : List (String × Value)) : Report :=
  make kind message detail (fieldsOf detail)

/-! ## Rejected queries -/

/-- A filter names a field that is not declared. -/
def filterField (field : Value) : Report :=
  plain .filterField ("Unknown filter field '" ++ field.display ++ "'") [("field", field)]

/-- A search names a field that is not searched. -/
def searchField (field : String) : Report :=
  plain .filterField ("Field '" ++ field ++ "' is not searchable") [("field", field)]

/-- A filter uses an operator that its field does not have. -/
def filterOperator (field operator : Value) : Report :=
  plain .filterOperator
    ("Operator '" ++ operator.display ++ "' is not allowed for field '" ++ field.display ++ "'")
    [("field", field), ("operator", operator)]

/-- A filter token has no operator. -/
def malformedFilter (field token : String) : Report :=
  plain .filterOperator
    ("Malformed filter '" ++ token ++ "' for field '" ++ field ++ "', expected operator:value")
    [("field", field), ("operator", token)]

/-- The tokens of a field are combined in an unknown way. -/
def junction (field name : String) : Report :=
  plain .filterOperator
    ("Unsupported logical operator '" ++ name ++ "' for field '" ++ field ++ "'")
    [("field", field), ("operator", name)]

/-- A sort names a field that has no order. -/
def sortField (field : Value) : Report :=
  plain .sortField ("Field '" ++ field.display ++ "' is not sortable") [("field", field)]

/-- A sort names a field that is not declared. -/
def unknownSortField (field : String) : Report :=
  plain .sortField ("Unknown sort field '" ++ field ++ "'") [("field", field)]

/-- A sort names a field twice. -/
def repeatedSortField (field : String) : Report :=
  plain .sortField ("Sort field '" ++ field ++ "' is repeated") [("field", field)]

/-- A sort token has no direction. -/
def sortDirection (token : Value) : Report :=
  make .sortDirection
    ("Invalid sort directive '" ++ token.display ++
      "', expected 'asc:<field>' or 'desc:<field>'")
    [("token", token)]
    (.list [.record [("field", "sort"), ("value", token), ("reason", "expected asc or desc")]])

/-- A cursor is not accepted. -/
def cursor (reason : Value) : Report :=
  make .cursor ("Invalid cursor: " ++ reason.display) [("reason", reason)]
    (.list [.record [("field", "cursor"), ("reason", reason)]])

/-- A page request asks for a page and a cursor at once. -/
def pageAndCursor : Report :=
  plain .pageRequest "Use either 'page' or 'cursor', not both" []

/-! ## Faults of the caller -/

/-- A query has no scope. -/
def missingScope : Report :=
  plain .missingScope "A scope constraint is required for every query" []

/-- The value of the field that scopes a query is missing. -/
def missingScopeValue (field : String) : Report :=
  plain .missingScope ("Scope value for '" ++ field ++ "' is missing") []

/-- A schema contradicts itself. -/
def schemaDefinition (entity reason : Value) : Report :=
  plain .schemaDefinition
    ("Invalid field schema for '" ++ entity.display ++ "': " ++ reason.display)
    [("entity", entity)]

/-- The configuration is faulty, in the given words. -/
def config (message : String) : Report :=
  plain .config message []

/-- A setting without default is absent. -/
def missingSetting (name : Value) : Report :=
  plain .missingSetting ("Required setting '" ++ name.display ++ "' is missing") []

/-! ## Views -/

/-- The report as it is sent and logged. -/
def fields (r : Report) : List (String × Value) :=
  [("code", r.code), ("message", r.message), ("detail", .record r.detail)] ++
    if r.kind.listsFields then [("errors", r.errors)] else []

/-- The body of the response; a report that is not the client's fault keeps its detail back. -/
def body (r : Report) : Value :=
  let shown := if r.kind.isOfClient then r else { r with detail := [] }
  .record [("error", .record shown.fields)]

/-- The short text of a report. -/
def quoted (r : Report) : String :=
  callText r.kind.name ["code=" ++ r.code.quoted, "status=" ++ integerText r.kind.status]

end Report

end Listing
