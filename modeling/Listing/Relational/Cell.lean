import Listing.Number.Number
import Listing.Relational.Table
import Listing.Value.Compare

/-!
# Stored cells

A cell of a table holds nothing, an integer of 64 bits, a floating-point number or a text. A column
prefers texts or numbers: what is stored in it or compared with it is brought to the preferred form,
where a text that is no number stays a text. Numbers come before texts, and numbers are compared by
value, texts by code points. Nothing compares with a null. All this is what SQLite documents of its
storage classes, of the affinity of columns and of its binary collation.
-/

set_option autoImplicit false

namespace Listing

open Text

/-- What a table stores in one column of a row. -/
inductive Cell where
  | null
  | int (i : Int)
  | real (x : Binary64)
  | text (s : String)
  deriving DecidableEq, Repr

namespace Cell

/-- The cell is empty. -/
def isNull : Cell → Bool
  | null => true
  | _ => false

/-- The number in a cell. -/
def number? : Cell → Option Number
  | int i => some (.int i)
  | real x => some (.float x)
  | _ => none

/-- One more than the greatest integer that a cell holds. -/
def integerBound : Int := 9223372036854775808

/-- The integer fits a cell. -/
def isStorable (i : Int) : Bool :=
  decide (-integerBound ≤ i ∧ i < integerBound)

/-! ## Numbers as texts -/

/-- A positive finite number rounded to fifteen digits: the digits, without zeros at their end, and
the power of ten of the first one. -/
def fifteenDigits (m : Nat) (e : Int) : List Char × Int :=
  let lead := Binary64.leadingExponent m e
  let (n, d) := Binary64.scaled m 1 (-e)
  let (n, d) := if 14 ≤ lead then (n, d * Nat.pow 10 (lead - 14).toNat)
    else (n * Nat.pow 10 (14 - lead).toNat, d)
  let q := (2 * n + d) / (2 * d)
  let (q, lead) := if q = Nat.pow 10 15 then (Nat.pow 10 14, lead + 1) else (q, lead)
  (digits (Binary64.stripZeros q 0 15).1, lead)

/-- The text of a positive finite number. -/
def magnitudeChars (m : Nat) (e : Int) : List Char :=
  let (ds, lead) := fifteenDigits m e
  if lead < -4 ∨ 14 < lead then
    ds.take 1 ++ '.' :: (if ds.length = 1 then ['0'] else ds.drop 1) ++
      'e' :: (if lead < 0 then '-' else '+') ::
        (if lead.natAbs < 10 then '0' :: digits lead.natAbs else digits lead.natAbs)
  else if (ds.length : Int) ≤ lead + 1 then Decimal.pointed ds (lead + 1) ++ ['.', '0']
  else Decimal.pointed ds (lead + 1)

/-- The text of a floating-point number in a cell. -/
def realText : Binary64 → String
  | .nan => ""
  | .infinite negative => if negative then "-Inf" else "Inf"
  | .finite negative m e =>
    if m = 0 then "0.0"
    else String.ofList (Decimal.signChars negative ++ magnitudeChars m e)

/-- The text of a cell that is not empty. -/
def text? : Cell → Option String
  | null => none
  | int i => some (integerText i)
  | real x => some (realText x)
  | text s => some s

/-- The cell in the form of a text. -/
def textual : Cell → Cell
  | int i => text (integerText i)
  | real x => text (realText x)
  | c => c

/-! ## Texts as numbers -/

/-- The character is a blank around a number. -/
def isNumberBlank (c : Char) : Bool :=
  c == ' ' || (decide (9 ≤ c.toNat) && decide (c.toNat ≤ 13))

/-- The number that a text is, leading and trailing blanks apart: an integer that can be stored, or
else a floating-point number. -/
def ofNumberText? (s : String) : Option Cell :=
  let body := ((s.toList.dropWhile isNumberBlank).reverse.dropWhile isNumberBlank).reverse
  if body.all fun c => c.toNat < 128 then
    let (negative, unsigned) := takeSign body
    match Decimal.readMagnitude unsigned with
    | none => none
    | some (coefficient, exponent) =>
      let i : Int := if negative then -coefficient else coefficient
      if unsigned.all isPlainDigit && isStorable i then some (int i)
      else some (real (Binary64.ofDecimal negative coefficient exponent))
  else none

/-- A floating-point number that is an integer of moderate size, as that integer. -/
def integral (x : Binary64) : Cell :=
  match x with
  | .finite negative m e =>
    let unit := Nat.pow 2 e.natAbs
    let (whole, exact) := if 0 ≤ e then (m * unit, true) else (m / unit, m % unit == 0)
    let i : Int := if negative then -whole else whole
    if exact && decide (-integerBound < i ∧ i < integerBound) then int i else real x
  | _ => real x

/-- The cell in the form of a number, if it is one. -/
def numeric : Cell → Cell
  | text s => (ofNumberText? s).getD (text s)
  | c => c

/-! ## Preference -/

/-- The cell in the form that a column prefers for comparison. -/
def preferredBy (type : ColumnType) (c : Cell) : Cell :=
  match type with
  | .text => c.textual
  | _ => c.numeric

/-- The cell in the form that a column stores. -/
def storedIn (type : ColumnType) (c : Cell) : Cell :=
  match c.preferredBy type with
  | real x => match type with
    | .text => real x
    | _ => integral x
  | c => c

/-! ## Order -/

/-- The order of two cells, empty ones first. -/
def compare (a b : Cell) : Ordering :=
  match a, b with
  | null, null => .eq
  | null, _ => .lt
  | _, null => .gt
  | text s, text t => compareTexts s t
  | text _, _ => .gt
  | _, text _ => .lt
  | a, b => match a.number?, b.number? with
    | some x, some y => (x.compare? y).getD .eq
    | _, _ => .eq

/-- The order of two cells neither of which is empty. -/
def compare? (a b : Cell) : Option Ordering :=
  if a.isNull || b.isNull then none else some (a.compare b)

end Cell

end Listing
