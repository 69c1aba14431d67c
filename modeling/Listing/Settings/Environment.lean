import Listing.Entries
import Listing.Fault
import Listing.Text.LetterCase

/-!
# Settings in the environment

A group of settings is a list of fields, each with a type and perhaps a default. The variable of a
field is the name of the group and that of the field, in upper case, with an underscore between
them. Variables are read in the order of the fields; one that is not set is left out.
-/

set_option autoImplicit false

namespace Listing

open Text

/-- The type of a setting. -/
inductive SettingType where
  | integer
  | truth
  | text
  deriving DecidableEq, Repr

/-- A setting of a group. -/
structure SettingField where
  name : String
  type : SettingType
  default : Option Value

/-- Variables and their texts. -/
abbrev Environment : Type := List (String × String)

namespace SettingField

/-- The variable of a field of a group. -/
def variableName (group : String) (f : SettingField) : String :=
  String.ofList ((upper (upper group ++ "_" ++ f.name)).toList.dropWhile (· == '_'))

/-- The value that the text of a variable stands for. -/
def readText (f : SettingField) (key text : String) : Result Value :=
  match f.type with
  | .truth => .ok (.bool (["1", "true", "yes", "on"].contains (lower text)))
  | .integer =>
    match readLooseInteger text with
    | .read i => .ok (.int i)
    | _ => reject (.config ("Setting '" ++ key ++ "' must be an integer, got " ++ quoted text))
  | .text => .ok (.text text)

/-- The values of the variables that are set. -/
def readAll (group : String) (environment : Environment) :
    List SettingField → Result (List (String × Value))
  | [] => .ok []
  | f :: rest =>
    let key := f.variableName group
    match Entries.get? key environment with
    | none => readAll group environment rest
    | some text => do
      let v ← f.readText key text
      return (f.name, v) :: (← readAll group environment rest)

/-- Every field has a value or a default; the first that has neither is the fault. -/
def checkPresent (group : String) (values : List (String × Value)) :
    List SettingField → Result Unit
  | [] => .ok ()
  | f :: rest =>
    if (Entries.get? f.name values).isNone && f.default.isNone then
      reject (.missingSetting (f.variableName group))
    else checkPresent group values rest

/-- The value of a field among given ones, or its default. -/
def valueIn (values : List (String × Value)) (f : SettingField) : Value :=
  (Entries.get? f.name values).getD (f.default.getD .null)

/-- No field without default follows one with a default. -/
def wellOrdered : List SettingField → Bool
  | [] => true
  | f :: rest => (f.default.isNone || rest.all (·.default.isSome)) && wellOrdered rest

/-- The values of all fields of a group, from the environment or by default. -/
def load (group : String) (environment : Environment) (fields : List SettingField) :
    Result (List (String × Value)) := do
  let values ← readAll group environment fields
  checkPresent group values fields
  return fields.map fun f => (f.name, f.valueIn values)

end SettingField

end Listing
