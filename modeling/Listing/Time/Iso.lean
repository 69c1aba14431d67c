import Listing.Number.Integer
import Listing.Time.Instant

/-!
# Reading standard date and time texts

A date is `YYYY-MM-DD`, `YYYYMMDD`, or a week date `YYYY-Www`, `YYYY-Www-D`, `YYYYWww`, `YYYYWwwD`.
A time of day has two digits for each of hour, minute and second, all separated by colons or none,
with digits of a second after a point or comma, and an offset after `+`, `-` or `Z`. Any one
character may stand between the date and the time of day. One plain character that is not understood
may stand between the time of day and its offset.
-/

set_option autoImplicit false

namespace Listing

open Text

namespace Iso

/-- A fixed count of plain digits and the characters after them. -/
def takeNumber (count : Nat) (cs : List Char) : Option (Nat × List Char) :=
  let ds := cs.take count
  if ds.length = count ∧ ds.all isPlainDigit then
    some (ofDigits 10 (ds.map fun c => c.toNat - 48), cs.drop count)
  else none

/-- The rest of a week date after the letter. -/
def readWeek (year : Nat) (dashed : Bool) (cs : List Char) : Option Date := do
  let (week, rest) ← takeNumber 2 cs
  match rest with
  | [] => Date.ofWeek? year week 1
  | c :: more =>
    let body ← if dashed then (if c == '-' then some more else none) else some rest
    let (day, _) ← takeNumber 1 body
    Date.ofWeek? year week day

/-- Reads a date that fills the whole text. -/
def readDateChars (cs : List Char) : Option Date := do
  let (year, rest) ← takeNumber 4 cs
  let (dashed, body) := match rest with
    | '-' :: more => (true, more)
    | _ => (false, rest)
  match body with
  | 'W' :: more => readWeek year dashed more
  | _ =>
    let (month, rest) ← takeNumber 2 body
    let body ← match dashed, rest with
      | true, '-' :: more => some more
      | true, _ => none
      | false, _ => some rest
    let (day, rest) ← takeNumber 2 body
    if rest.isEmpty then Date.make? year month day else none

/-- Reads a date text of one of the admitted lengths. -/
def readDate? (s : String) : Option Date :=
  let cs := s.toList
  if cs.length = 7 ∨ cs.length = 8 ∨ cs.length = 10 then readDateChars cs else none

/-- The length of the date at the start of a date and time text. -/
def dateLength (cs : List Char) : Nat :=
  let digitsFrom (n : Nat) : Nat := ((cs.drop n).takeWhile isPlainDigit).length
  if cs.length = 7 then 7
  else match cs.drop 4 with
    | '-' :: 'W' :: rest =>
      match rest.drop 2 with
      | '-' :: _ :: c :: _ => if isPlainDigit c then 8 else 10
      | '-' :: _ => 10
      | _ => 8
    | '-' :: _ => 10
    | 'W' :: _ =>
      let stop := 7 + digitsFrom 7
      if stop < 9 then stop else if stop % 2 = 0 then 7 else 8
    | _ => 8

/-- Hour, minute, second and microsecond as written. -/
structure Clock where
  hour : Nat
  minute : Nat
  second : Nat
  microsecond : Nat

/-- The digits of a second: six count, further ones are dropped. Tells whether all was read. -/
def readFraction (cs : List Char) : Option (Nat × Bool) := do
  let kept := cs.take 6
  let (n, _) ← takeNumber kept.length kept
  let rest := (cs.drop 6).dropWhile isPlainDigit
  return (n * Nat.pow 10 (6 - kept.length), rest.isEmpty)

/-- Fields of two digits, up to `left` more of them, then the digits of a second. The fields are
collected in order. Tells whether all was read. -/
def readFields (colons : Bool) (fields : List Nat) :
    Nat → List Char → Option (List Nat × Nat × Bool)
  | 0, cs => do
    let (n, all) ← readFraction cs
    return (fields, n, all)
  | left + 1, cs => do
    let (n, rest) ← takeNumber 2 cs
    let fields := fields ++ [n]
    match rest with
    | [] => return (fields, 0, true)
    | [c] => if c.toNat < 128 then return (fields, 0, false) else none
    | c :: more =>
      let colons := if left = 2 then c == ':' else colons
      if colons && c == ':' then readFields colons fields left more
      else if c == '.' || c == ',' then readFields colons fields 0 more
      else if colons then none
      else readFields colons fields left rest

/-- Reads a time of day without offset. Tells whether all was read. -/
def readClock (cs : List Char) : Option (Clock × Bool) := do
  let (fields, fraction, all) ← readFields false [] 3 cs
  return (⟨fields.getD 0 0, fields.getD 1 0, fields.getD 2 0, fraction⟩, all)

/-- The offset after its sign, in microseconds; a fraction of a second alone counts as none. -/
def readOffset (negative : Bool) (cs : List Char) : Option Int :=
  match readClock cs with
  | some (c, true) =>
    let seconds := c.hour * 3600 + c.minute * 60 + c.second
    let n : Int := if seconds = 0 then 0 else (seconds * 1000000 + c.microsecond : Nat)
    some (if negative then -n else n)
  | _ => none

/-- Reads a time of day with its offset, if it has one. -/
def readTime (cs : List Char) : Option (Clock × Option Int) :=
  let isMark (c : Char) : Bool := c == '+' || c == '-' || c == 'Z'
  match readClock (cs.takeWhile (!isMark ·)), cs.dropWhile (!isMark ·) with
  | some (clock, all), [] => if all then some (clock, none) else none
  | some (clock, _), mark :: rest =>
    if mark == 'Z' then if rest.isEmpty then some (clock, some 0) else none
    else (readOffset (mark == '-') rest).map fun o => (clock, some o)
  | none, _ => none

/-- Reads a date, alone or with a time of day. -/
def readInstantChars (cs : List Char) : Option Instant := do
  if cs.length < 7 then none
  let n := dateLength cs
  let date ← readDateChars (cs.take n)
  let (clock, offset) ← match cs.drop n with
    | [] => some (⟨0, 0, 0, 0⟩, none)
    | _ :: rest => readTime rest
  let t : Instant := ⟨date, clock.hour, clock.minute, clock.second, clock.microsecond, offset⟩
  if t.isValid then some t else none

/-- Reads a point in time. -/
def readInstant? (s : String) : Option Instant :=
  readInstantChars s.toList

end Iso

end Listing
