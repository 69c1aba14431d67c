import Listing.Entries
import Listing.Json.Basic
import Listing.Text.Encoding

/-!
# Reading structured text

The reader takes the common grammar and the names of infinities and not-a-number. Controls must be
escaped within quotes; half of a surrogate pair on its own is read as the replacement character. Of
fields under one name the last counts, in the place of the first. Values nested deeper than a limit
are refused as such; the limit is what the call stack leaves to the reader, so it is given to it.
-/

set_option autoImplicit false

namespace Listing

open Text

namespace Json

/-- Why a text is not read. -/
inductive ReadFault where
  | malformed
  | tooDeep
  deriving DecidableEq, Repr

/-- How deep values may be nested where no other limit is given: what a shallow call leaves to the
reader. -/
def depthLimit : Nat := 988

/-- A list in a list in a record is not too deep. -/
theorem three_le_depthLimit : 3 ≤ depthLimit :=
  Nat.le_of_ble_eq_true rfl

/-- The characters after blanks. -/
def skip (cs : List Char) : List Char :=
  cs.dropWhile fun c => c == ' ' || c == '\t' || c == '\n' || c == '\r'

/-- The value of four hexadecimal digits. -/
def unit? (a b c d : Char) : Option Nat :=
  let digit (x : Char) : Option Nat := if x.toNat < 128 then hexDigit? x else none
  match digit a, digit b, digit c, digit d with
  | some p, some q, some r, some s => some (((p * 16 + q) * 16 + r) * 16 + s)
  | _, _, _, _ => none

/-- The character of an escape with a letter of its own. -/
def escaped? (c : Char) : Option Char :=
  match c with
  | 'b' => some (Char.ofNat 8)
  | 'f' => some (Char.ofNat 12)
  | 'n' => some '\n'
  | 'r' => some '\r'
  | 't' => some '\t'
  | '/' => some '/'
  | '\\' => some '\\'
  | c => if c.toNat = 34 then some c else none

/-- The code points up to the closing quote and the characters after it. An escape gives one unit of
UTF-16. -/
def readUnits : List Char → Except ReadFault (List Nat × List Char)
  | [] => .error .malformed
  | '\\' :: 'u' :: a :: b :: c :: d :: rest =>
    match unit? a b c d with
    | none => .error .malformed
    | some n => do
      let (ns, tail) ← readUnits rest
      return (n :: ns, tail)
  | '\\' :: e :: rest =>
    match escaped? e with
    | none => .error .malformed
    | some c => do
      let (ns, tail) ← readUnits rest
      return (c.toNat :: ns, tail)
  | c :: rest =>
    if c.toNat = 34 then .ok ([], rest)
    else if c.toNat < 32 ∨ c = '\\' then .error .malformed
    else do
      let (ns, tail) ← readUnits rest
      return (c.toNat :: ns, tail)

/-- The text up to the closing quote and the characters after it. -/
def readQuoted (cs : List Char) : Except ReadFault (String × List Char) := do
  let (ns, tail) ← readUnits cs
  return (String.ofList (joinUnits ns), tail)

/-- The leading plain digits of a text and the characters after them. -/
def spanDigits (cs : List Char) : List Char × List Char :=
  (cs.takeWhile isPlainDigit, cs.dropWhile isPlainDigit)

/-- The fraction at the start of a text: a point and digits. -/
def readFraction : List Char → List Char × List Char
  | '.' :: rest =>
    match spanDigits rest with
    | ([], _) => ([], '.' :: rest)
    | (ds, tail) => ('.' :: ds, tail)
  | cs => ([], cs)

/-- The power at the start of a text: a letter, a sign and digits. -/
def readPower (cs : List Char) : List Char × List Char :=
  match cs with
  | e :: rest =>
    if e == 'e' || e == 'E' then
      let (sign, body) := match rest with
        | '+' :: body => (['+'], body)
        | '-' :: body => (['-'], body)
        | body => ([], body)
      match spanDigits body with
      | ([], _) => ([], cs)
      | (ds, tail) => (e :: (sign ++ ds), tail)
    else ([], cs)
  | [] => ([], [])

/-- The whole part at the start of a text: a zero, or digits. -/
def readWhole (cs : List Char) : List Char × List Char :=
  match cs with
  | '0' :: rest => (['0'], rest)
  | _ => spanDigits cs

/-- A number without its sign. -/
def readNumber (negative : Bool) (cs : List Char) : Except ReadFault (Json × List Char) :=
  let (whole, rest) := readWhole cs
  if whole.isEmpty then .error .malformed
  else
    let (fraction, rest) := readFraction rest
    let (power, rest) := readPower rest
    if fraction.isEmpty && power.isEmpty then
      match readInteger whole with
      | .read i => .ok (.int (if negative then -i else i), rest)
      | _ => .error .malformed
    else match Binary64.readChars ((if negative then ['-'] else []) ++ whole ++ fraction ++ power) with
      | some x => .ok (.float x, rest)
      | none => .error .malformed

/-- The characters after a word. -/
def after? (word : String) (cs : List Char) : Option (List Char) :=
  if word.toList.isPrefixOf cs then some (cs.drop word.length) else none

/-- A value that holds no others. -/
def readScalar (cs : List Char) : Except ReadFault (Json × List Char) :=
  match cs with
  | 'n' :: _ => match after? "null" cs with
    | some rest => .ok (.null, rest)
    | none => .error .malformed
  | 't' :: _ => match after? "true" cs with
    | some rest => .ok (.bool true, rest)
    | none => .error .malformed
  | 'f' :: _ => match after? "false" cs with
    | some rest => .ok (.bool false, rest)
    | none => .error .malformed
  | 'N' :: _ => match after? "NaN" cs with
    | some rest => .ok (.float .nan, rest)
    | none => .error .malformed
  | 'I' :: _ => match after? "Infinity" cs with
    | some rest => .ok (.float (.infinite false), rest)
    | none => .error .malformed
  | '-' :: body => match after? "Infinity" body with
    | some rest => .ok (.float (.infinite true), rest)
    | none => readNumber true body
  | c :: rest =>
    if c.toNat = 34 then do
      let (s, tail) ← readQuoted rest
      return (.text s, tail)
    else readNumber false cs
  | [] => .error .malformed

mutual

/-- A value, nested at a depth. -/
def readValue (limit depth : Nat) : Nat → List Char → Except ReadFault (Json × List Char)
  | 0, _ => .error .malformed
  | fuel + 1, cs =>
    match cs with
    | '[' :: rest =>
      if limit ≤ depth then .error .tooDeep
      else match skip rest with
        | ']' :: tail => .ok (.list [], tail)
        | body => do
          let (items, tail) ← readItems limit (depth + 1) fuel body
          return (.list items, tail)
    | c :: rest =>
      if c.toNat = 123 then
        if limit ≤ depth then .error .tooDeep
        else match skip rest with
          | [] => .error .malformed
          | d :: more =>
            if d.toNat = 125 then .ok (.record [], more)
            else do
              let (fields, tail) ← readFields limit (depth + 1) fuel (d :: more)
              return (.record (Entries.ofList fields), tail)
      else readScalar cs
    | [] => .error .malformed

/-- The items of a list after its opening bracket. -/
def readItems (limit depth : Nat) : Nat → List Char → Except ReadFault (List Json × List Char)
  | 0, _ => .error .malformed
  | fuel + 1, cs => do
    let (v, rest) ← readValue limit depth fuel cs
    match skip rest with
    | ',' :: more =>
      let (items, tail) ← readItems limit depth fuel (skip more)
      return (v :: items, tail)
    | ']' :: tail => return ([v], tail)
    | _ => .error .malformed

/-- The fields of a record after its opening brace. -/
def readFields (limit depth : Nat) :
    Nat → List Char → Except ReadFault (List (String × Json) × List Char)
  | 0, _ => .error .malformed
  | fuel + 1, cs =>
    match cs with
    | [] => .error .malformed
    | q :: rest =>
      if q.toNat ≠ 34 then .error .malformed
      else do
        let (name, rest) ← readQuoted rest
        match skip rest with
        | ':' :: body =>
          let (v, rest) ← readValue limit depth fuel (skip body)
          match skip rest with
          | [] => .error .malformed
          | c :: more =>
            if c = ',' then
              let (fields, tail) ← readFields limit depth fuel (skip more)
              return ((name, v) :: fields, tail)
            else if c.toNat = 125 then return ([(name, v)], more)
            else .error .malformed
        | _ => .error .malformed

end

/-- Reads a text that holds one value and blanks. -/
def readChars (limit : Nat) (cs : List Char) : Except ReadFault Json := do
  let (v, rest) ← readValue limit 0 (2 * cs.length + 2) (skip cs)
  if (skip rest).isEmpty then return v else .error .malformed

/-- Reads a text that holds one value and blanks. -/
def read (s : String) (limit : Nat := depthLimit) : Except ReadFault Json :=
  readChars limit s.toList

/-- Reads octets that hold one value and blanks. -/
def readOctets (limit : Nat) (octets : List UInt8) : Except ReadFault Json :=
  match decode octets with
  | some cs => readChars limit cs
  | none => .error .malformed

end Json

end Listing
