import Listing.Text.Split
import Listing.Value.Basic

/-!
# The text of a value

`Value.display` is the text shown to a reader: a text is shown as it is, a point in time with a
space before the time of day. `Value.quoted` is the unambiguous text, with texts in quotes and types
named; collections are always displayed in it.

Both are texts of any length. An integer is only written when it has no more digits than `digitLimit`;
whether this is so of all integers that a text shows is told by `Value.isShowable` and
`Value.isQuotable`.
-/

set_option autoImplicit false

namespace Listing

open Text

/-- Fields of a constructor call between parentheses. -/
def callText (name : String) (fields : List String) : String :=
  name ++ "(" ++ joinWith ", " fields ++ ")"

/-- A length of time as days, seconds and microseconds, the zero ones left out. -/
def durationText (microseconds : Int) : String :=
  let days := microseconds.fdiv 86400000000
  let rest := microseconds.fmod 86400000000
  let parts := [("days", days), ("seconds", rest.fdiv 1000000), ("microseconds", rest.fmod 1000000)]
  let shown := (parts.filter (·.2 ≠ 0)).map fun (name, n) => name ++ "=" ++ integerText n
  callText "datetime.timedelta" (if shown.isEmpty then ["0"] else shown)

namespace Date

/-- The unambiguous text of a date. -/
def quoted (d : Date) : String :=
  callText "datetime.date" ([d.year, d.month, d.day].map fun (n : Nat) => integerText n)

end Date

namespace Instant

/-- The unambiguous text of a point in time; seconds and microseconds are left out from the end
while they are zero. -/
def quoted (t : Instant) : String :=
  let fields := [t.date.year, t.date.month, t.date.day, t.hour, t.minute] ++
    (if t.microsecond ≠ 0 then [t.second, t.microsecond]
      else if t.second ≠ 0 then [t.second] else [])
  let zone := match t.offset with
    | none => []
    | some 0 => ["tzinfo=datetime.timezone.utc"]
    | some o => ["tzinfo=" ++ callText "datetime.timezone" [durationText o]]
  callText "datetime.datetime" ((fields.map fun (n : Nat) => integerText n) ++ zone)

end Instant

namespace Value

mutual

/-- The unambiguous text of a value. -/
def quoted : Value → String
  | null => "None"
  | bool true => "True"
  | bool false => "False"
  | int i => integerText i
  | float x => x.text
  | decimal d => callText "Decimal" [Text.quoted d.text]
  | text s => Text.quoted s
  | instant t => t.quoted
  | day d => d.quoted
  | uuid u => callText "UUID" [Text.quoted u.text]
  | member ⟨v, type, name⟩ => "<" ++ type ++ "." ++ name ++ ": " ++ v.quoted ++ ">"
  | list vs => "[" ++ joinWith ", " (quotedAll vs) ++ "]"
  | tuple [v] => "(" ++ v.quoted ++ ",)"
  | tuple vs => "(" ++ joinWith ", " (quotedAll vs) ++ ")"
  | map es => "\x7b" ++ joinWith ", " (quotedEntries es) ++ "\x7d"
  | object attributes => callText "namespace" (quotedAttributes attributes)

/-- The unambiguous texts of values. -/
def quotedAll : List Value → List String
  | [] => []
  | v :: rest => v.quoted :: quotedAll rest

/-- The unambiguous texts of entries, key and value around a colon. -/
def quotedEntries : List (Value × Value) → List String
  | [] => []
  | (k, v) :: rest => (k.quoted ++ ": " ++ v.quoted) :: quotedEntries rest

/-- The unambiguous texts of attributes; one without a name is not shown. -/
def quotedAttributes : List (String × Value) → List String
  | [] => []
  | (name, v) :: rest =>
    if name = "" then quotedAttributes rest
    else (name ++ "=" ++ v.quoted) :: quotedAttributes rest

end

mutual

/-- The unambiguous text of a value can be written: it shows no integer that is too long. -/
def isQuotable : Value → Bool
  | int i => decide (Decimal.width i.natAbs ≤ digitLimit)
  | member ⟨v, _, _⟩ => v.isQuotable
  | list vs => areQuotable vs
  | tuple vs => areQuotable vs
  | map es => areQuotableEntries es
  | object attributes => areQuotableAttributes attributes
  | _ => true

/-- The unambiguous texts of values can be written. -/
def areQuotable : List Value → Bool
  | [] => true
  | v :: rest => v.isQuotable && areQuotable rest

/-- The unambiguous texts of entries can be written. -/
def areQuotableEntries : List (Value × Value) → Bool
  | [] => true
  | (k, v) :: rest => k.isQuotable && v.isQuotable && areQuotableEntries rest

/-- The unambiguous texts of the attributes that are shown can be written. -/
def areQuotableAttributes : List (String × Value) → Bool
  | [] => true
  | (name, v) :: rest => (decide (name = "") || v.isQuotable) && areQuotableAttributes rest

end

/-- The text of a value as shown to a reader. -/
def display : Value → String
  | decimal d => d.text
  | text s => s
  | instant t => t.text
  | day d => d.text
  | uuid u => u.text
  | member m => m.type ++ "." ++ m.name
  | v => v.quoted

/-- The text of a value as shown to a reader can be written. -/
def isShowable : Value → Bool
  | member _ => true
  | v => v.isQuotable

end Value

end Listing
