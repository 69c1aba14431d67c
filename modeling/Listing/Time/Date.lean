import Listing.Text.Digit

/-!
# Calendar dates

Dates of the proleptic Gregorian calendar, years 1 to 9999. `Date.ordinal` counts the days from the
start of year 1, and `Date.ofWeek?` reads the numbering by weeks that begin on Monday.
-/

set_option autoImplicit false

namespace Listing

open Text

/-- A calendar date. -/
structure Date where
  year : Nat
  month : Nat
  day : Nat
  deriving DecidableEq, Repr

namespace Date

/-- The year has a leap day. -/
def isLeap (year : Nat) : Bool :=
  year % 4 == 0 && (year % 100 != 0 || year % 400 == 0)

/-- The days of a month. -/
def monthLength (year month : Nat) : Nat :=
  match month with
  | 2 => if isLeap year then 29 else 28
  | 4 | 6 | 9 | 11 => 30
  | _ => 31

/-- The days of a year. -/
def yearLength (year : Nat) : Nat :=
  if isLeap year then 366 else 365

/-- The date exists in the calendar. -/
def isValid (d : Date) : Bool :=
  decide (1 ≤ d.year ∧ d.year ≤ 9999 ∧ 1 ≤ d.month ∧ d.month ≤ 12 ∧ 1 ≤ d.day ∧
    d.day ≤ monthLength d.year d.month)

/-- The date with the given parts, if it exists. -/
def make? (year month day : Nat) : Option Date :=
  if isValid ⟨year, month, day⟩ then some ⟨year, month, day⟩ else none

/-- The days before the first day of a month within its year. -/
def daysBeforeMonth (year : Nat) : Nat → Nat
  | 0 | 1 => 0
  | month + 2 => daysBeforeMonth year (month + 1) + monthLength year (month + 1)

/-- The days before the first day of a year. -/
def daysBeforeYear (year : Nat) : Nat :=
  (year - 1) * 365 + (year - 1) / 4 - (year - 1) / 100 + (year - 1) / 400

/-- The number of a date, the first day of year 1 being day 1. -/
def ordinal (d : Date) : Nat :=
  daysBeforeYear d.year + daysBeforeMonth d.year d.month + d.day

/-- The month and the day of a day counted from zero within a year. -/
def monthDay (year : Nat) : Nat → Nat → Nat → Nat × Nat
  | 0, month, index => (month, index + 1)
  | fuel + 1, month, index =>
    let n := monthLength year month
    if index < n then (month, index + 1) else monthDay year fuel (month + 1) (index - n)

/-- The date a number of days after the first day of a year; the number may leave the year by a few
days on either side. -/
def ofYearDay? (year : Nat) (index : Int) : Option Date :=
  if index < 0 then
    if year = 0 then none else make? (year - 1) 12 (32 + index).toNat
  else if index < yearLength year then
    let (month, day) := monthDay year 11 1 index.toNat
    make? year month day
  else make? (year + 1) 1 (index.toNat - yearLength year + 1)

/-- The day of the week on which a year begins, Monday being 0. -/
def firstWeekday (year : Nat) : Nat :=
  (daysBeforeYear year) % 7

/-- The year has 53 weeks. -/
def hasLongWeeks (year : Nat) : Bool :=
  firstWeekday year == 3 || (firstWeekday year == 2 && isLeap year)

/-- The date of a day, Monday being 1, in a week of a year; the first week holds the first
Thursday. -/
def ofWeek? (year week day : Nat) : Option Date :=
  if year = 0 ∨ week = 0 ∨ day = 0 ∨ day > 7 ∨ week > 53 ∨ (week = 53 ∧ !hasLongWeeks year) then none
  else
    let w := firstWeekday year
    let monday : Int := if w > 3 then 7 - (w : Int) else -(w : Int)
    ofYearDay? year (monday + (week - 1) * 7 + (day - 1))

/-- The date as year, month and day with hyphens. -/
def chars (d : Date) : List Char :=
  paddedDigits 4 d.year ++ '-' :: paddedDigits 2 d.month ++ '-' :: paddedDigits 2 d.day

/-- The date as year, month and day with hyphens. -/
def text (d : Date) : String :=
  String.ofList d.chars

/-- The order of two dates. -/
def compare (a b : Date) : Ordering :=
  Ord.compare a.ordinal b.ordinal

end Date

end Listing
