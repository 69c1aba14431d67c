import Listing.Number.Integer

/-!
# Decimal numbers

A decimal is a signed coefficient scaled by a power of ten; the scale is part of the number, so
`1.5` and `1.50` are equal in value and distinct as data. `Decimal.text` writes the scale back:
positionally when the exponent is not positive and the number is not below `10 ^ -6`, and with a
power of ten otherwise.
-/

set_option autoImplicit false

namespace Listing

open Text

/-- A decimal number, an infinity, or a quiet or signaling not-a-number with its payload. -/
inductive Decimal where
  | finite (negative : Bool) (coefficient : Nat) (exponent : Int)
  | infinite (negative : Bool)
  | nan (negative signaling : Bool) (payload : Nat)
  deriving DecidableEq, Repr

namespace Decimal

/-- The number has a value. -/
def isFinite : Decimal → Bool
  | finite .. => true
  | _ => false

/-- The number is a not-a-number of either sort. -/
def isNaN : Decimal → Bool
  | nan .. => true
  | _ => false

/-- The number is a signaling not-a-number. -/
def isSignaling : Decimal → Bool
  | nan _ s _ => s
  | _ => false

/-! ## Writing -/

/-- The characters of a minus sign where one is due. -/
def signChars (negative : Bool) : List Char :=
  if negative then ['-'] else []

/-- The number of decimal digits of a coefficient. -/
def width (n : Nat) : Nat :=
  (digits n).length

/-- A signed power of ten, the plus sign written. -/
def powerChars (e : Int) : List Char :=
  (if e < 0 then '-' else '+') :: digits e.natAbs

/-- Digits with a point after the first `place` of them, zeros filling up on either side. -/
def pointed (ds : List Char) (place : Int) : List Char :=
  if place ≤ 0 then '0' :: '.' :: (List.replicate place.natAbs '0' ++ ds)
  else if (ds.length : Int) ≤ place then ds ++ List.replicate (place.toNat - ds.length) '0'
  else ds.take place.toNat ++ '.' :: ds.drop place.toNat

/-- The text of an unsigned finite decimal. -/
def magnitudeChars (coefficient : Nat) (exponent : Int) : List Char :=
  let ds := digits coefficient
  let place : Int := exponent + ds.length
  if exponent ≤ 0 ∧ place > -6 then pointed ds place
  else pointed ds 1 ++ if place = 1 then [] else 'E' :: powerChars (place - 1)

/-- The text of a decimal, as a character list. -/
def chars : Decimal → List Char
  | finite negative coefficient exponent =>
    signChars negative ++ magnitudeChars coefficient exponent
  | infinite negative => signChars negative ++ "Infinity".toList
  | nan negative signaling payload =>
    signChars negative ++ (if signaling then "sNaN" else "NaN").toList ++
      if payload = 0 then [] else digits payload

/-- The text of a decimal. -/
def text (d : Decimal) : String :=
  String.ofList d.chars

/-! ## Reading -/

/-- The largest exponent of the leading digit of a decimal. -/
def topExponent : Int := 999999999999999999

/-- The smallest exponent of the last digit of a decimal. -/
def bottomExponent : Int := -1999999999999999997

/-- A finite decimal, if its first and its last digit lie within the exponent range. -/
def bounded (negative : Bool) (coefficient : Nat) (exponent : Int) : Option Decimal :=
  if exponent + width coefficient - 1 > topExponent ∨ exponent < bottomExponent then none
  else some (finite negative coefficient exponent)

/-- The exponent part of a written decimal, empty or a letter and a signed integer. -/
def readPower : List Char → Option Int
  | [] => some 0
  | c :: rest =>
    if c == 'e' || c == 'E' then
      let (negative, body) := takeSign rest
      match takeDigits body with
      | ([], _) => none
      | (ds, []) => let n : Int := ofDigits 10 ds; some (if negative then -n else n)
      | (_, _ :: _) => none
    else none

/-- Digits, an optional point with more digits, and an exponent: coefficient and scale. -/
def readMagnitude (cs : List Char) : Option (Nat × Int) :=
  let (whole, rest) := takeDigits cs
  let (fraction, tail) := match rest with
    | '.' :: more => takeDigits more
    | _ => ([], rest)
  if whole.isEmpty && fraction.isEmpty then none
  else (readPower tail).map fun power =>
    (ofDigits 10 (whole ++ fraction), power - fraction.length)

/-- The payload of a not-a-number: digits, or nothing. -/
def readPayload (cs : List Char) : Option Nat :=
  match takeDigits cs with
  | (ds, []) => some (ofDigits 10 ds)
  | (_, _ :: _) => none

/-- A plain letter in lower case. -/
def lowerLetter (c : Char) : Char :=
  if 65 ≤ c.toNat ∧ c.toNat ≤ 90 then Char.ofNat (c.toNat + 32) else c

/-- The characters after a word, the word compared without regard to case. -/
def dropWord : List Char → List Char → Option (List Char)
  | [], cs => some cs
  | _ :: _, [] => none
  | w :: word, c :: cs => if w == lowerLetter c then dropWord word cs else none

/-- The word and nothing else, without regard to case. -/
def isWord (word : String) (cs : List Char) : Bool :=
  dropWord word.toList cs == some []

/-- An unsigned decimal. -/
def readUnsigned (negative : Bool) (cs : List Char) : Option Decimal :=
  if isWord "inf" cs || isWord "infinity" cs then some (infinite negative)
  else match dropWord "nan".toList cs with
    | some rest => (readPayload rest).map (nan negative false)
    | none => match dropWord "snan".toList cs with
      | some rest => (readPayload rest).map (nan negative true)
      | none => match readMagnitude cs with
        | some (coefficient, exponent) => bounded negative coefficient exponent
        | none => none

/-- Reads a decimal; blanks around it and underscores anywhere are passed over. -/
def readChars (cs : List Char) : Option Decimal :=
  let (negative, body) := takeSign ((trimChars cs).filter (· != '_'))
  readUnsigned negative body

/-- Reads a decimal text. -/
def read? (s : String) : Option Decimal :=
  readChars s.toList

/-! ## Doubling -/

/-- The significant digits that arithmetic keeps. -/
def precision : Nat := 28

/-- The largest exponent of the leading digit of a computed decimal. -/
def computedTop : Int := 999999

/-- A quotient by a power of ten, rounded to nearest, a half to the even neighbour. -/
def dropDigits (n places : Nat) : Nat :=
  let unit := Nat.pow 10 places
  let q := n / unit
  let r := n % unit
  if 2 * r > unit ∨ (2 * r = unit ∧ q % 2 = 1) then q + 1 else q

/-- A coefficient rounded to the kept precision. -/
def roundToPrecision (coefficient : Nat) (exponent : Int) : Nat × Int :=
  let excess := width coefficient - precision
  let c := dropDigits coefficient excess
  let e := exponent + excess
  if width c > precision then (dropDigits c 1, e + 1) else (c, e)

/-- Twice a decimal, or nothing when the result is out of range. -/
def double : Decimal → Option Decimal
  | finite negative coefficient exponent =>
    let tiny : Int := -computedTop - precision + 1
    if coefficient = 0 then
      some (finite negative 0 (max tiny (min computedTop exponent)))
    else
      let (c, e) := roundToPrecision (2 * coefficient) exponent
      if e + width c - 1 > computedTop then none
      else if e < tiny then
        let places := (tiny - exponent).toNat
        some (finite negative
          (if places > width (2 * coefficient) then 0 else dropDigits (2 * coefficient) places) tiny)
      else some (finite negative c e)
  | infinite negative => some (infinite negative)
  | nan negative signaling payload => some (nan negative signaling (payload % Nat.pow 10 precision))

end Decimal

end Listing
