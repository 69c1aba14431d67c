import Listing.Fault
import Listing.Json.Basic
import Listing.Time.Iso

/-!
# Key values in cursors

A cursor carries each key value as a pair of a tag for its type and a plain form, so that it comes
back with the same type, scale and offset. A member of an enumeration is carried as its value.
-/

set_option autoImplicit false

namespace Listing.Key

/-- A tag and a plain form. -/
def tagged (tag : String) (form : Json) : Json :=
  .list [.text tag, form]

/-- The carried form of a value, which must be a scalar other than null. -/
def write (v : Value) : Result Json :=
  match v.unwrapped with
  | .bool b => .ok (tagged "b" (.bool b))
  | .int i => .ok (tagged "i" (.int i))
  | .float x => .ok (tagged "f" (.float x))
  | .decimal d => .ok (tagged "n" (.text d.text))
  | .instant t => .ok (tagged "t" (.text t.isoText))
  | .day d => .ok (tagged "d" (.text d.text))
  | .uuid u => .ok (tagged "u" (.text u.text))
  | .text s => .ok (tagged "s" (.text s))
  | w => .error (.unsupportedKey w.typeName)

/-- The carried forms of values in order. -/
def writeAll : List Value → Result (List Json)
  | [] => .ok []
  | v :: rest => do return (← write v) :: (← writeAll rest)

/-- The carried form can be written: an integer in it is not longer than written integers may be. -/
def isWritable : Json → Bool
  | .list [_, .int i] => decide (Decimal.width i.natAbs ≤ digitLimit)
  | _ => true

/-- Why a carried form is not read. -/
inductive ReadFault where
  | unreadable
  | overflow
  deriving DecidableEq, Repr

/-- The outcome of reading a form that may be unreadable. -/
def orUnreadable (v : Option Value) : Except ReadFault Value :=
  match v with
  | some v => .ok v
  | none => .error .unreadable

/-- The number nearest to an integer, which must be in range. -/
def readFloat (i : Int) : Except ReadFault Value :=
  match Binary64.ofInt i with
  | .infinite _ => .error .overflow
  | x => .ok (.float x)

/-- The value of a carried form. -/
def read : Json → Except ReadFault Value
  | .list [.text tag, form] =>
    match tag, form with
    | "b", .bool b => .ok (.bool b)
    | "i", .int i => .ok (.int i)
    | "f", .float x => .ok (.float x)
    | "f", .int i => readFloat i
    | "n", .text s => orUnreadable ((Decimal.read? s).map .decimal)
    | "t", .text s => orUnreadable ((Iso.readInstant? s).map .instant)
    | "d", .text s => orUnreadable ((Iso.readDate? s).map .day)
    | "u", .text s => orUnreadable ((Uuid.read? s).map .uuid)
    | "s", .text s => .ok (.text s)
    | _, _ => .error .unreadable
  | _ => .error .unreadable

end Listing.Key
