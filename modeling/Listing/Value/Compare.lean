import Listing.Comparison
import Listing.Fault

/-!
# Equality and order of values

Numbers are compared by value across formats, texts by code points, points in time after their
offsets. Values of types that have nothing in common are unequal and have no order; asking for it is
a fault. A number without a value equals nothing and is neither before nor after anything. Two
members of enumerations are different members.
-/

set_option autoImplicit false

namespace Listing

/-- The order of two character lists by code points. -/
def compareChars : List Char → List Char → Ordering
  | [], [] => .eq
  | [], _ :: _ => .lt
  | _ :: _, [] => .gt
  | a :: as, b :: bs => (compare a.toNat b.toNat).then (compareChars as bs)

/-- The order of two texts by code points. -/
def compareTexts (a b : String) : Ordering :=
  compareChars a.toList b.toList

namespace Value

/-- The first entry whose key is the given name. -/
def entryNamed? (name : String) : List (Value × Value) → Option Value
  | [] => none
  | (text s, v) :: rest => if s = name then some v else entryNamed? name rest
  | _ :: rest => entryNamed? name rest

/-- The first attribute with the given name. -/
def attributeNamed? (name : String) : List (String × Value) → Option Value
  | [] => none
  | (s, v) :: rest => if s = name then some v else attributeNamed? name rest

/-- The equality of two scalars. -/
def equalScalars (a b : Value) : Result Bool :=
  match a.number?, b.number? with
  | some x, some y =>
    if x.equalitySignals y then .error .invalidOperation
    else .ok (x.compare? y == some .eq)
  | _, _ =>
    match a, b with
    | null, null => .ok true
    | text s, text s' => .ok (s == s')
    | instant t, instant t' => .ok (t.compare? t' == some .eq)
    | day d, day d' => .ok (d == d')
    | uuid u, uuid u' => .ok (u.number == u'.number)
    | _, _ => .ok false

mutual

/-- The two values are equal. -/
def equal : Value → Value → Result Bool
  | list vs, w => match w with
    | list ws => if vs.length = ws.length then equalAll vs ws else .ok false
    | _ => .ok false
  | tuple vs, w => match w with
    | tuple ws => equalAll vs ws
    | _ => .ok false
  | map es, w => match w with
    | map fs => if es.length = fs.length then equalEntries es fs else .ok false
    | _ => .ok false
  | object as, w => match w with
    | object bs => if as.length = bs.length then equalAttributes as bs else .ok false
    | _ => .ok false
  | v, w => equalScalars v w

/-- The two lists have equal values in equal number. -/
def equalAll : List Value → List Value → Result Bool
  | [], ws => .ok ws.isEmpty
  | v :: vs, ws => match ws with
    | [] => .ok false
    | w :: ws => do if ← equal v w then equalAll vs ws else return false

/-- Every entry has a partner with an equal key and an equal value. -/
def equalEntries : List (Value × Value) → List (Value × Value) → Result Bool
  | [], _ => .ok true
  | (k, v) :: rest, fs =>
    match fs.find? (fun f => match equal k f.1 with | .ok true => true | _ => false) with
    | none => .ok false
    | some f => do if ← equal v f.2 then equalEntries rest fs else return false

/-- Every attribute has a partner with the same name and an equal value. -/
def equalAttributes : List (String × Value) → List (String × Value) → Result Bool
  | [], _ => .ok true
  | (name, v) :: rest, bs =>
    match attributeNamed? name bs with
    | none => .ok false
    | some w => do if ← equal v w then equalAttributes rest bs else return false

end

/-- The value equals one of the given ones; they are tried in order. -/
def isAmong (v : Value) : List Value → Result Bool
  | [] => .ok false
  | w :: ws => do if ← equal v w then return true else isAmong v ws

/-- The comparison of two values that hold no others. -/
def compareScalars (op : Comparison) (a b : Value) : Result Bool :=
  match a.number?, b.number? with
  | some x, some y =>
    if x.orderSignals y then .error .invalidOperation
    else match x.compare? y with
      | some o => .ok (op.admits o)
      | none => .ok false
  | _, _ =>
    match a, b with
    | text s, text s' => .ok (op.admits (compareTexts s s'))
    | instant t, instant t' =>
      match t.compare? t' with
      | some o => .ok (op.admits o)
      | none => .error .illTyped
    | day d, day d' => .ok (op.admits (d.compare d'))
    | uuid u, uuid u' => .ok (op.admits (compare u.number u'.number))
    | _, _ => .error .illTyped

mutual

/-- The comparison of two values. -/
def compares (op : Comparison) : Value → Value → Result Bool
  | list vs, w => match w with
    | list ws => comparesAll op vs ws
    | _ => .error .illTyped
  | tuple vs, w => match w with
    | tuple ws => comparesAll op vs ws
    | _ => .error .illTyped
  | v, w => compareScalars op v w

/-- The comparison of two lists by their first unequal values, and by their lengths if there are
none. -/
def comparesAll (op : Comparison) : List Value → List Value → Result Bool
  | [], ws => .ok (op.admits (if ws.isEmpty then .eq else .lt))
  | v :: vs, ws => match ws with
    | [] => .ok (op.admits .gt)
    | w :: ws => do if ← equal v w then comparesAll op vs ws else compares op v w

end

/-- The field of a row: an entry of a map or an attribute of an object. -/
def field? (row : Value) (name : String) : Option Value :=
  match row with
  | map es => entryNamed? name es
  | object as => attributeNamed? name as
  | _ => none

/-- The field of a row, missing ones read as null. -/
def fieldOrNull (row : Value) (name : String) : Value :=
  (row.field? name).getD .null

/-- The field of a row, which must be there. -/
def field (row : Value) (name : String) : Result Value :=
  match row.field? name with
  | some v => .ok v
  | none => .error (.missingField name)

/-- The values met when going through a value: the characters of a text, the values of a list, the
keys of a map. -/
def elements? : Value → Option (List Value)
  | text s => some (s.toList.map fun c => text (String.ofList [c]))
  | list vs => some vs
  | tuple vs => some vs
  | map es => some (es.map (·.1))
  | _ => none

/-- The values met when going through a value that must be a collection. -/
def elements (v : Value) : Result (List Value) :=
  match v.elements? with
  | some vs => .ok vs
  | none => .error .illTyped

end Value

end Listing
