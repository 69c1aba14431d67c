import Listing.Entries
import Listing.Json.OfValue
import Listing.Report.Quoting

/-!
# Building reports by kind

A report of any kind is built from positional and named arguments. Each kind has parameters that may
be given either way, the last of them perhaps by default, and options that are only given by name. A
message or code that counts as absent gives way to the usual one.
-/

set_option autoImplicit false

namespace Listing

namespace ErrorKind

/-- The parameters of a kind. -/
def parameters : ErrorKind → List String
  | base | domain | validation | query | pageRequest | application | config | missingScope =>
    ["message"]
  | filterField | sortField => ["field", "message"]
  | filterOperator => ["field", "operator", "message"]
  | filterValue => ["field", "value", "reason"]
  | sortDirection => ["token"]
  | cursor => ["reason"]
  | pageSize => ["size", "max_size"]
  | schemaDefinition => ["entity", "reason"]
  | missingSetting => ["setting_name"]
  | settingValue => ["setting_name", "value", "reason"]

/-- The parameters of a kind that may be left out. -/
def optionalParameters : ErrorKind → List String
  | filterField | sortField | filterOperator | missingScope => ["message"]
  | _ => []

/-- The options of a kind. -/
def options : ErrorKind → List String
  | base | domain | application | config => ["code", "detail"]
  | validation | query | pageRequest => ["code", "detail", "errors"]
  | filterField | filterOperator | filterValue | sortField => ["code", "errors"]
  | sortDirection | cursor => ["code"]
  | _ => []

end ErrorKind

namespace Report

/-- The arguments under the names of their parameters; an argument too many is a fault. -/
def bindPositional : List String → List Value → Result (List (String × Value))
  | _, [] => .ok []
  | name :: names, v :: rest => do return (name, v) :: (← bindPositional names rest)
  | [], _ :: _ => .error .illTyped

/-- All arguments under their names, each given once, known, and none missing. -/
def bind (kind : ErrorKind) (positional : List Value) (named : List (String × Value)) :
    Result (List (String × Value)) := do
  let bound ← bindPositional kind.parameters positional
  let known := kind.parameters ++ kind.options
  if named.all fun (name, _) => known.contains name && (Entries.get? name bound).isNone then
    let all := bound ++ named
    let required := kind.parameters.filter (!kind.optionalParameters.contains ·)
    if required.all fun name => (Entries.get? name all).isSome then return all
    else .error .illTyped
  else .error .illTyped

/-- The values that the usual words of a kind show as they are; words that quote a value are written
with the report. -/
def shownValues (kind : ErrorKind) (get : String → Value) : List Value :=
  match kind with
  | .filterField | .sortField => [get "field"]
  | .filterOperator => [get "operator", get "field"]
  | .sortDirection => [get "token"]
  | .cursor => [get "reason"]
  | .schemaDefinition => [get "entity", get "reason"]
  | .missingSetting => [get "setting_name"]
  | _ => []

/-- The report of a kind with its usual words. -/
def usual (kind : ErrorKind) (get : String → Value) : Result Report :=
  match kind with
  | .filterField => .ok (filterField (get "field"))
  | .filterOperator => .ok (filterOperator (get "field") (get "operator"))
  | .filterValue => filterValue (get "field") (get "value") (get "reason")
  | .sortField => .ok (sortField (get "field"))
  | .sortDirection => .ok (sortDirection (get "token"))
  | .cursor => .ok (cursor (get "reason"))
  | .pageSize => pageSize (get "size") (get "max_size")
  | .schemaDefinition => .ok (schemaDefinition (get "entity") (get "reason"))
  | .missingSetting => .ok (missingSetting (get "setting_name"))
  | .settingValue => settingValue (get "setting_name") (get "value") (get "reason")
  | .missingScope => .ok missingScope
  | kind => .ok (plain kind "" [])

/-- The message takes the place of the usual words of a kind, which are then not written. -/
def replacesWords (kind : ErrorKind) (message : Value) : Bool :=
  !kind.optionalParameters.contains "message" || kind == .missingScope || message.isTruthy

/-- The detail that a value stands for. -/
def detailOf (v : Value) : Result (List (String × Value)) :=
  if !v.isTruthy then .ok []
  else match v with
    | .map es => .ok (es.filterMap fun (k, w) => k.text?.map fun name => (name, w))
    | _ => .error .illTyped

/-- The report of a kind with the given arguments. -/
def build (kind : ErrorKind) (positional : List Value) (named : List (String × Value)) :
    Result Report := do
  let arguments ← bind kind positional named
  let given (name : String) : Option Value := Entries.get? name arguments
  let get (name : String) : Value := (given name).getD .null
  let words := (given "message").filter (replacesWords kind)
  if words.isNone then
    let _ ← Value.displayedAll (shownValues kind get)
  let report ← usual kind get
  let message := words.getD report.message
  let code := match given "code" with
    | some v => if v.isTruthy then v else report.code
    | none => report.code
  let detail ← match given "detail" with
    | some v => detailOf v
    | none => pure report.detail
  let errors := match given "errors" with
    | some v => if v.isNull then fieldsOf detail else v
    | none => if (given "detail").isSome then fieldsOf detail else report.errors
  return { report with message, code, detail, errors }

/-- The full text of a report, if its values can be written. -/
def text (r : Report) : Result String := do
  return Json.write Json.spaced (← Json.ofValue (.record r.fields))

end Report

end Listing
