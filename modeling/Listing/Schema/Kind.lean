import Listing.Operator
import Listing.Text.Split
import Listing.Time.Iso

/-!
# Kinds of fields

A field holds values of one kind. `Kind.accepts` tells whether a value is of a kind already, and
`Kind.coerce` reads a value from a text; whatever the kind accepts is left as it is.
-/

set_option autoImplicit false

namespace Listing

open Text

/-- The kind of value that a field holds. -/
inductive Kind where
  | text
  | number
  | date
  | choice
  | boolean
  | uuid
  deriving DecidableEq, Repr

/-- The reason why a value does not fit a kind. -/
inductive Unfit where
  | wrongType (kind typeName : String)
  | number
  | finiteNumber
  | longNumber (digits : Nat)
  | date
  | choice (values : List String)
  | boolean
  | uuid

namespace Unfit

/-- The reason in words. -/
def message : Unfit → String
  | wrongType kind typeName => "expected " ++ kind ++ ", got " ++ typeName
  | number => "expected a number"
  | finiteNumber => "expected a finite number"
  | longNumber count =>
    "Exceeds the limit (" ++ integerText digitLimit ++
      " digits) for integer string conversion: value has " ++ integerText count ++
      " digits; use sys.set_int_max_str_digits() to increase the limit"
  | date => "expected an ISO-8601 date"
  | choice values => "expected one of " ++ joinWith ", " values
  | boolean => "expected a boolean"
  | uuid => "expected a UUID"

end Unfit

namespace Kind

/-- The name of a kind. -/
def name : Kind → String
  | text => "string"
  | number => "number"
  | date => "date"
  | choice => "enum"
  | boolean => "boolean"
  | uuid => "uuid"

/-- The kind with exactly the given name, which must exist. -/
def ofName (s : String) : Result Kind :=
  match [text, number, date, choice, boolean, uuid].find? (·.name == s) with
  | some k => .ok k
  | none => .error (.notAMember s "FieldKind")

/-- The operators of a field of a kind that was given none. -/
def operators : Kind → List Operator
  | text => [.equal, .differ, .among, .outside, .like, .likeAnyCase, .unlike]
  | number | date =>
    [.equal, .differ, .among, .outside, .order .gt, .order .gte, .order .lt, .order .lte]
  | choice | uuid => [.equal, .differ, .among, .outside]
  | boolean => [.equal, .differ]

/-- The value is of the kind; a choice must be one of the given values. -/
def accepts (k : Kind) (choices : List String) (v : Value) : Bool :=
  match k, v with
  | text, .text _ => true
  | number, .int _ | number, .float _ | number, .decimal _ => true
  | date, .instant _ | date, .day _ => true
  | choice, v =>
    match v.unwrapped with
    | .text s => choices.contains s
    | _ => false
  | boolean, .bool _ => true
  | uuid, .uuid _ => true
  | _, _ => false

/-- Reads an integer or a finite decimal. -/
def readNumber (cs : List Char) : Except Unfit Value :=
  match readInteger cs with
  | .read i => .ok (.int i)
  | .tooLong n => .error (.longNumber n)
  | .malformed =>
    match Decimal.readChars cs with
    | none => .error .number
    | some d => if d.isFinite then .ok (.decimal d) else .error .finiteNumber

/-- Reads a point in time; the letter for universal time may stand anywhere its offset may. -/
def readDate (cs : List Char) : Except Unfit Value :=
  match Iso.readInstantChars (replaceChar 'Z' "+00:00".toList cs) with
  | some t => .ok (.instant t)
  | none => .error .date

/-- Reads a truth value. -/
def readBoolean (s : String) : Except Unfit Value :=
  let word := lower s
  if ["1", "true", "yes", "on"].contains word then .ok (.bool true)
  else if ["0", "false", "no", "off"].contains word then .ok (.bool false)
  else .error .boolean

/-- Reads a value of the kind from a text. -/
def read (k : Kind) (choices : List String) (s : String) : Except Unfit Value :=
  let body := trimChars s.toList
  match k with
  | text => .ok (.text s)
  | number => readNumber body
  | date => readDate body
  | choice => .error (.choice choices)
  | boolean => readBoolean (String.ofList body)
  | uuid =>
    match Uuid.readChars body with
    | some u => .ok (.uuid u)
    | none => .error .uuid

/-- A value of the kind: the given one if it is, else what its text reads as. The value of a member
of an enumeration stands for the member. -/
def coerce (k : Kind) (choices : List String) (raw : Value) : Except Unfit Value :=
  let v := raw.unwrapped
  if k.accepts choices v then .ok v
  else match v with
    | .text s => k.read choices s
    | _ => .error (.wrongType k.name v.typeName)

end Kind

end Listing
