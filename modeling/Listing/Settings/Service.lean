import Listing.Report.Quoting
import Listing.Settings.Environment
import Listing.Value.Compare

/-!
# Settings of the query service

The settings are the secret that seals cursors and three limits. They are given as values or read
from the environment, given values counting more. Each limit must hold a number in bounds; what is
compared must be comparable, and the secret must have a length.
-/

set_option autoImplicit false

namespace Listing

open Text

/-- The settings of the query service. -/
structure ServiceSettings where
  cursorSecret : Value
  defaultPageSize : Value
  maxPageSize : Value
  maxCursorLength : Value

/-- A setting that cannot even be checked. -/
inductive Misfit where
  | unknownName (name : String)
  | noSecret
  | noLength (typeName : String)
  | noOrder (sign left right : String)

namespace Misfit

/-- The misfit in words. -/
def message : Misfit → String
  | unknownName name =>
    "QuerySettings.__init__() got an unexpected keyword argument " ++ quoted name
  | noSecret => "QuerySettings.__init__() missing 1 required positional argument: 'cursor_secret'"
  | noLength typeName => "object of type '" ++ typeName ++ "' has no len()"
  | noOrder sign left right =>
    "'" ++ sign ++ "' not supported between instances of '" ++ left ++ "' and '" ++ right ++ "'"

end Misfit

/-- Why settings are not accepted: a misfit, or a fault while checking. -/
inductive SettingsFault where
  | misfit (m : Misfit)
  | fault (f : Fault)

namespace ServiceSettings

/-- The name of the group of settings. -/
def group : String := "LISTQUERY"

/-- The shortest secret. -/
def shortestSecret : Nat := 16

/-- The fields of the group. -/
def fields : List SettingField :=
  [⟨"cursor_secret", .text, none⟩, ⟨"default_page_size", .integer, some (.int 20)⟩,
    ⟨"max_page_size", .integer, some (.int 100)⟩, ⟨"max_cursor_length", .integer, some (.int 2048)⟩]

/-- The full name of the type of a value. -/
def fullTypeName : Value → String
  | .decimal _ => "decimal.Decimal"
  | .instant _ => "datetime.datetime"
  | .day _ => "datetime.date"
  | .object _ => "types.SimpleNamespace"
  | v => v.typeName

/-- The number of items or characters of a value that has one. -/
def lengthOf : Value → Except SettingsFault Nat
  | .text s => .ok s.length
  | .list vs | .tuple vs => .ok vs.length
  | .map es => .ok es.length
  | v => .error (.misfit (.noLength (fullTypeName v)))

/-- A comparison of two values that must be comparable. -/
def comparable (op : Comparison) (v w : Value) : Except SettingsFault Bool :=
  match v.compares op w with
  | .ok b => .ok b
  | .error .illTyped =>
    .error (.misfit (.noOrder op.sign (fullTypeName v) (fullTypeName w)))
  | .error e => .error (.fault e)

/-- Refuses the value of a setting, in words if they can be written. -/
def refuse {α : Type} (name : String) (v : Value) (reason : String) : Except SettingsFault α :=
  (rejectWith (Report.settingValue name v reason)).mapError .fault

/-- The settings themselves, if they are in bounds. -/
def validate (s : ServiceSettings) : Except SettingsFault ServiceSettings := do
  if (← lengthOf s.cursorSecret) < shortestSecret then
    refuse "cursor_secret" "***"
      ("must be at least " ++ integerText shortestSecret ++ " characters")
  else if ← comparable .lt s.maxPageSize (.int 1) then
    refuse "max_page_size" s.maxPageSize "must be positive"
  else
    let enough ← comparable .lte (.int 1) s.defaultPageSize
    let fits ← if enough then comparable .lte s.defaultPageSize s.maxPageSize else pure false
    if !fits then do
      let most ← s.maxPageSize.displayed.mapError .fault
      refuse "default_page_size" s.defaultPageSize
        ("must be between 1 and max_page_size (" ++ most ++ ")")
    else if ← comparable .lt s.maxCursorLength (.int 64) then
      refuse "max_cursor_length" s.maxCursorLength "must be at least 64"
    else return s

/-- The settings with the given values, defaults for those not given. -/
def construct (values : List (String × Value)) : Except SettingsFault ServiceSettings :=
  match values.find? fun (name, _) => fields.all (·.name != name) with
  | some (name, _) => .error (.misfit (.unknownName name))
  | none =>
    match fields.map (·.valueIn values), Entries.get? "cursor_secret" values with
    | [secret, size, most, length], some _ => validate ⟨secret, size, most, length⟩
    | _, _ => .error (.misfit .noSecret)

/-- The settings with values given directly. -/
def ofValues (values : List (String × Value)) : Result ServiceSettings :=
  match construct values with
  | .ok s => .ok s
  | .error (.misfit _) => .error .illTyped
  | .error (.fault e) => .error e

/-- The settings with values from wherever, a misfit being a fault of configuration. -/
def build (values : List (String × Value)) : Result ServiceSettings := do
  SettingField.checkPresent group values fields
  match construct values with
  | .ok s => return s
  | .error (.misfit m) => reject (.config ("Failed to load QuerySettings: " ++ m.message))
  | .error (.fault e) => .error e

/-- The values of the variables that are set. -/
def readEnvironment (environment : Environment) : Result (List (String × Value)) :=
  SettingField.readAll group environment fields

/-- The settings from the environment, given values counting more. -/
def ofEnvironment (environment : Environment) (overrides : List (String × Value)) :
    Result ServiceSettings := do
  build (Entries.override (← readEnvironment environment) overrides)

/-- The text of settings, which does not tell the secret; of limits that can be written. -/
def quoted (s : ServiceSettings) : String :=
  callText "QuerySettings" ["cursor_secret='***'",
    "default_page_size=" ++ s.defaultPageSize.display,
    "max_page_size=" ++ s.maxPageSize.display,
    "max_cursor_length=" ++ s.maxCursorLength.display]

end ServiceSettings

end Listing
