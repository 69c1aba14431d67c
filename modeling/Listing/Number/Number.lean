import Listing.Number.Binary64

/-!
# Comparing numbers of different formats

Integers, floating-point numbers and decimals are compared by their exact values, whatever their
formats. Every finite number is a signed coefficient times a power of ten; leading digits are
compared before the coefficients are brought to one scale, so far-apart exponents cost nothing.
-/

set_option autoImplicit false

namespace Listing

/-- A number in one of the three formats. -/
inductive Number where
  | int (i : Int)
  | float (x : Binary64)
  | decimal (d : Decimal)
  deriving DecidableEq, Repr

namespace Number

/-- The place of a number on the extended line, or nowhere. -/
inductive Extent where
  | least
  | finite (negative : Bool) (coefficient : Nat) (exponent : Int)
  | greatest
  | nowhere
  deriving DecidableEq, Repr

/-- The exact value of a number. -/
def extent : Number → Extent
  | int i => .finite (i < 0) i.natAbs 0
  | float .nan => .nowhere
  | float (.infinite negative) => if negative then .least else .greatest
  | float (.finite negative m e) =>
    if 0 ≤ e then .finite negative (m * Nat.pow 2 e.toNat) 0
    else .finite negative (m * Nat.pow 5 e.natAbs) e
  | decimal (.nan ..) => .nowhere
  | decimal (.infinite negative) => if negative then .least else .greatest
  | decimal (.finite negative c e) => .finite negative c e

/-- The order of two positive scaled coefficients. -/
def compareMagnitudes (c : Nat) (e : Int) (c' : Nat) (e' : Int) : Ordering :=
  let lead := e + Decimal.width c
  let lead' := e' + Decimal.width c'
  if lead ≠ lead' then compare lead lead'
  else if e ≤ e' then compare c (c' * Nat.pow 10 (e' - e).toNat)
  else compare (c * Nat.pow 10 (e - e').toNat) c'

/-- The order of two places, if both are on the line. -/
def Extent.compare? : Extent → Extent → Option Ordering
  | .nowhere, _ => none
  | _, .nowhere => none
  | .least, .least => some .eq
  | .least, _ => some .lt
  | _, .least => some .gt
  | .greatest, .greatest => some .eq
  | .greatest, _ => some .gt
  | _, .greatest => some .lt
  | .finite negative c e, .finite negative' c' e' =>
    match c, c' with
    | 0, 0 => some .eq
    | 0, _ + 1 => some (if negative' then .gt else .lt)
    | _ + 1, 0 => some (if negative then .lt else .gt)
    | _ + 1, _ + 1 =>
      match negative, negative' with
      | true, false => some .lt
      | false, true => some .gt
      | false, false => some (compareMagnitudes c e c' e')
      | true, true => some (compareMagnitudes c' e' c e)

/-- The order of two numbers; none when either is a not-a-number. -/
def compare? : Number → Number → Option Ordering
  | int a, int b => some (compare a b)
  | a, b => a.extent.compare? b.extent

/-- The number is a decimal. -/
def isDecimal : Number → Bool
  | decimal _ => true
  | _ => false

/-- The number is a not-a-number. -/
def isNaN (a : Number) : Bool :=
  a.extent == .nowhere

/-- The number is a signaling not-a-number. -/
def isSignaling : Number → Bool
  | decimal d => d.isSignaling
  | _ => false

/-- Asking whether the two are equal is an invalid operation. -/
def equalitySignals (a b : Number) : Bool :=
  a.isSignaling || b.isSignaling

/-- Asking for the order of the two is an invalid operation. -/
def orderSignals (a b : Number) : Bool :=
  (a.isDecimal || b.isDecimal) && (a.isNaN || b.isNaN)

end Number

end Listing
