import Listing.Number.Decimal

/-!
# Binary floating-point numbers

A finite number is a signed significand below `2 ^ 53` scaled by a power of two. Quotients are
rounded to the nearest number, a half to the even significand (`Binary64.ofRatio`). A number is
written with the fewest digits that read back as itself, the nearest of those to its value
(`Binary64.shortest`); the notation is positional from `10 ^ -4` up to `10 ^ 16`.
-/

set_option autoImplicit false

namespace Listing

open Text

/-- A binary floating-point number of 64 bits. A finite significand is at least `2 ^ 52`, or the
exponent is the least one, so equal data are equal bits. -/
inductive Binary64 where
  | nan
  | infinite (negative : Bool)
  | finite (negative : Bool) (significand : Nat) (exponent : Int)
  deriving DecidableEq, Repr

namespace Binary64

/-- The exponent of the least positive number. -/
def leastExponent : Int := -1074

/-- The exponent of the largest finite numbers. -/
def greatestExponent : Int := 971

/-- The zero of a sign. -/
def zero (negative : Bool) : Binary64 :=
  finite negative 0 leastExponent

/-! ## Rounding -/

/-- A quotient rounded to the nearest integer, a half to the even one. -/
def roundQuotient (n d : Nat) : Nat :=
  let q := n / d
  let r := n % d
  if 2 * r > d ∨ (2 * r = d ∧ q % 2 = 1) then q + 1 else q

/-- The quotient `n / d` divided by `2 ^ e`, as a fraction. -/
def scaled (n d : Nat) (e : Int) : Nat × Nat :=
  if 0 ≤ e then (n, d * Nat.pow 2 e.toNat) else (n * Nat.pow 2 e.natAbs, d)

/-- The exponent at which a positive quotient has a significand of 53 bits, or the least one. -/
def exponentOf (n d : Nat) : Int :=
  let e : Int := (n.log2 : Int) - d.log2 - 53
  let (a, b) := scaled n d e
  max leastExponent (if a / b < Nat.pow 2 53 then e else e + 1)

/-- The number nearest to `n / d`, a half going to the even significand. -/
def ofRatio (negative : Bool) (n d : Nat) : Binary64 :=
  if n = 0 then zero negative
  else
    let e := exponentOf n d
    let (a, b) := scaled n d e
    let q := roundQuotient a b
    let (m, e) := if q = Nat.pow 2 53 then (Nat.pow 2 52, e + 1) else (q, e)
    if e > greatestExponent then infinite negative else finite negative m e

/-- The number nearest to an integer. -/
def ofInt (i : Int) : Binary64 :=
  ofRatio (i < 0) i.natAbs 1

/-- The least integer that is not below a finite number. -/
def ceil? : Binary64 → Option Int
  | finite negative m e =>
    let signed : Int := if negative then -m else m
    let unit : Int := Nat.pow 2 e.natAbs
    some (if 0 ≤ e then signed * unit else -((-signed) / unit))
  | _ => none

/-- Twice a number. -/
def double : Binary64 → Binary64
  | finite negative m e =>
    if 0 ≤ e then ofRatio negative (2 * m * Nat.pow 2 e.toNat) 1
    else ofRatio negative (2 * m) (Nat.pow 2 e.natAbs)
  | x => x

/-! ## Writing -/

/-- The neighbours of `m · 2 ^ e` on the grid of multiples of `10 ^ p` that read back as it: first
the nearer one, the even one on a tie. All is measured in quarters of `2 ^ e`. -/
def gridHit (m : Nat) (e p : Int) : Option Nat :=
  let low := if m = Nat.pow 2 52 ∧ e > leastExponent then 4 * m - 1 else 4 * m - 2
  let high := 4 * m + 2
  let (num, den) := scaled 1 1 (-(e - 2))
  let tens := Nat.pow 10 p.natAbs
  let (value, unit) := if 0 ≤ p then (num, den * tens) else (num * tens, den)
  let inside (c : Nat) : Bool :=
    if m % 2 = 0 then decide (low * value ≤ c * unit ∧ c * unit ≤ high * value)
    else decide (low * value < c * unit ∧ c * unit < high * value)
  let c := 4 * m * value / unit
  let r := 4 * m * value % unit
  let upFirst := decide (2 * r > unit ∨ (2 * r = unit ∧ c % 2 = 1))
  match upFirst, inside c, inside (c + 1) with
  | true, _, true => some (c + 1)
  | true, true, false => some c
  | false, true, _ => some c
  | false, false, true => some (c + 1)
  | _, false, false => none

/-- The exponent of the leading decimal digit of `m · 2 ^ e`. -/
def leadingExponent (m : Nat) (e : Int) : Int :=
  if 0 ≤ e then (Decimal.width (m * Nat.pow 2 e.toNat) : Int) - 1
  else (Decimal.width (m * Nat.pow 5 e.natAbs) : Int) - 1 + e

/-- The first grid from `count` digits up to seventeen with a hit, as coefficient and scale. -/
def firstHit (m : Nat) (e lead : Int) (count : Nat) : Nat → Nat × Int
  | 0 => (0, 0)
  | fuel + 1 =>
    let p := lead - count + 1
    match gridHit m e p with
    | some c => (c, p)
    | none => firstHit m e lead (count + 1) fuel

/-- A coefficient without its trailing zeros, the scale raised for each. -/
def stripZeros (c : Nat) (p : Int) : Nat → Nat × Int
  | 0 => (c, p)
  | fuel + 1 => if c % 10 = 0 ∧ c ≠ 0 then stripZeros (c / 10) (p + 1) fuel else (c, p)

/-- The coefficient and the power of ten of the shortest text that reads back as `m · 2 ^ e`. -/
def shortest (m : Nat) (e : Int) : Nat × Int :=
  let (c, p) := firstHit m e (leadingExponent m e) 1 17
  stripZeros c p 17

/-- The text of an unsigned finite number. -/
def magnitudeChars (m : Nat) (e : Int) : List Char :=
  if m = 0 then "0.0".toList
  else
    let (c, p) := shortest m e
    let ds := digits c
    let place : Int := p + ds.length
    if -4 < place ∧ place ≤ 16 then
      if (ds.length : Int) ≤ place then Decimal.pointed ds place ++ ['.', '0']
      else Decimal.pointed ds place
    else
      let power := (place - 1).natAbs
      Decimal.pointed ds 1 ++ 'e' :: (if place - 1 < 0 then '-' else '+') ::
        (if power < 10 then '0' :: digits power else digits power)

/-- The text of a number, as a character list. -/
def chars : Binary64 → List Char
  | nan => "nan".toList
  | infinite negative => Decimal.signChars negative ++ "inf".toList
  | finite negative m e => Decimal.signChars negative ++ magnitudeChars m e

/-- The text of a number. -/
def text (x : Binary64) : String :=
  String.ofList x.chars

/-! ## Reading -/

/-- The number nearest to `coefficient · 10 ^ exponent`; far out of range without the power. -/
def ofDecimal (negative : Bool) (coefficient : Nat) (exponent : Int) : Binary64 :=
  let lead := exponent + Decimal.width coefficient
  if coefficient = 0 ∨ lead < -400 then zero negative
  else if lead > 400 then infinite negative
  else if 0 ≤ exponent then ofRatio negative (coefficient * Nat.pow 10 exponent.toNat) 1
  else ofRatio negative coefficient (Nat.pow 10 exponent.natAbs)

/-- Every underscore stands between two digits; the characters without the underscores. -/
def dropGrouping (afterDigit : Bool) : List Char → Option (List Char)
  | [] => some []
  | '_' :: c :: rest =>
    if afterDigit && isDigit c then (dropGrouping true rest).map (c :: ·) else none
  | c :: rest =>
    if c == '_' then none else (dropGrouping (isDigit c) rest).map (c :: ·)

/-- Reads a number: decimal digits with a point and a power of ten, an infinity or a
not-a-number. -/
def readChars (cs : List Char) : Option Binary64 :=
  match dropGrouping false (trimChars cs) with
  | none => none
  | some plain =>
    let (negative, body) := takeSign plain
    if Decimal.isWord "inf" body || Decimal.isWord "infinity" body then some (infinite negative)
    else if Decimal.isWord "nan" body then some nan
    else (Decimal.readMagnitude body).map fun (coefficient, exponent) =>
      ofDecimal negative coefficient exponent

/-- Reads the text of a number. -/
def read? (s : String) : Option Binary64 :=
  readChars s.toList

end Binary64

end Listing
