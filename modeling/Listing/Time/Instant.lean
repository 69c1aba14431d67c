import Listing.Time.Date

/-!
# Points in time

A point in time is a date, a time of day down to the microsecond, and optionally its distance from
universal time. Two points that both have an offset are compared after it is taken off; two that
have none by what they show; of a mixed pair neither is before the other.
-/

set_option autoImplicit false

namespace Listing

open Text

/-- A date and a time of day, with the offset from universal time in microseconds if known. -/
structure Instant where
  date : Date
  hour : Nat
  minute : Nat
  second : Nat
  microsecond : Nat
  offset : Option Int
  deriving DecidableEq, Repr

namespace Instant

/-- The microseconds of a day. -/
def dayLength : Int := 86400000000

/-- The time of day is in range and the offset shorter than a day. -/
def isValid (t : Instant) : Bool :=
  t.date.isValid && decide (t.hour < 24 ∧ t.minute < 60 ∧ t.second < 60 ∧ t.microsecond < 1000000) &&
    match t.offset with
    | none => true
    | some o => decide (-dayLength < o ∧ o < dayLength)

/-- The microseconds shown by the date and the time of day. -/
def shown (t : Instant) : Int :=
  (t.date.ordinal : Int) * dayLength +
    (((t.hour * 60 + t.minute) * 60 + t.second) * 1000000 + t.microsecond : Nat)

/-- The order of two points in time, if they can be ordered. -/
def compare? (a b : Instant) : Option Ordering :=
  match a.offset, b.offset with
  | none, none => some (compare a.shown b.shown)
  | some o, some o' => some (compare (a.shown - o) (b.shown - o'))
  | _, _ => none

/-- An offset as sign, hours and minutes, with seconds and microseconds when they are not zero. -/
def offsetChars (o : Int) : List Char :=
  let n := o.natAbs
  let seconds := n / 1000000
  let fraction := n % 1000000
  let head := (if o < 0 then '-' else '+') :: paddedDigits 2 (seconds / 3600) ++
    ':' :: paddedDigits 2 (seconds / 60 % 60)
  if fraction ≠ 0 then head ++ ':' :: paddedDigits 2 (seconds % 60) ++ '.' :: paddedDigits 6 fraction
  else if seconds % 60 ≠ 0 then head ++ ':' :: paddedDigits 2 (seconds % 60)
  else head

/-- The time of day, with microseconds when they are not zero. -/
def clockChars (t : Instant) : List Char :=
  paddedDigits 2 t.hour ++ ':' :: paddedDigits 2 t.minute ++ ':' :: paddedDigits 2 t.second ++
    if t.microsecond = 0 then [] else '.' :: paddedDigits 6 t.microsecond

/-- Date and time of day around a separator, then the offset. -/
def charsWith (separator : Char) (t : Instant) : List Char :=
  t.date.chars ++ separator :: t.clockChars ++
    match t.offset with
    | none => []
    | some o => offsetChars o

/-- The standard text of a point in time, with the letter `T` before the time of day. -/
def isoText (t : Instant) : String :=
  String.ofList (t.charsWith 'T')

/-- The text of a point in time for display, with a space before the time of day. -/
def text (t : Instant) : String :=
  String.ofList (t.charsWith ' ')

end Instant

end Listing
