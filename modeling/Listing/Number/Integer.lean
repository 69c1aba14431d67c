import Listing.Text.Blank
import Listing.Text.Digit

/-!
# Written integers

Integers are written in plain decimal digits with an optional minus sign. They are read in any
digit row, with an optional sign; a reader of settings also takes surrounding blanks, the separators
of files, groups, records and units excepted, and single underscores between digits. A text with more
digits than `digitLimit` is refused as too long.
-/

set_option autoImplicit false

namespace Listing

open Text

/-- The most digits that a written integer may have. -/
def digitLimit : Nat := 4300

/-- The outcome of reading an integer. -/
inductive IntegerReading where
  | read (value : Int)
  | tooLong (digits : Nat)
  | malformed
  deriving DecidableEq, Repr

/-- The integer with the given sign and digit values. -/
def signedInteger (negative : Bool) (ds : List Nat) : IntegerReading :=
  if ds.length > digitLimit then .tooLong ds.length
  else
    let n : Int := ofDigits 10 ds
    .read (if negative then -n else n)

/-- A leading sign and the characters after it. -/
def takeSign : List Char → Bool × List Char
  | '-' :: rest => (true, rest)
  | '+' :: rest => (false, rest)
  | cs => (false, cs)

/-- The leading digits of a character list and the characters after them. -/
def takeDigits : List Char → List Nat × List Char
  | [] => ([], [])
  | c :: rest =>
    match digit? c with
    | some d => let (ds, tail) := takeDigits rest; (d :: ds, tail)
    | none => ([], c :: rest)

/-- A sign and at least one digit, and nothing else. -/
def readInteger (cs : List Char) : IntegerReading :=
  let (negative, body) := takeSign cs
  match takeDigits body with
  | ([], _) => .malformed
  | (ds, []) => signedInteger negative ds
  | (_, _ :: _) => .malformed

/-- Digits of a base with single underscores between them. -/
def groupedDigits (digitOf : Char → Option Nat) : List Char → Option (List Nat)
  | [] => none
  | [c] => (digitOf c).map ([·])
  | c :: '_' :: rest => do return (← digitOf c) :: (← groupedDigits digitOf rest)
  | c :: rest => do return (← digitOf c) :: (← groupedDigits digitOf rest)

/-- The character is a blank that may stand around an integer. -/
def isIntegerBlank (c : Char) : Bool :=
  isBlank c && !(decide (28 ≤ c.toNat) && decide (c.toNat ≤ 31))

/-- An integer with surrounding blanks and grouped digits. -/
def readLooseInteger (s : String) : IntegerReading :=
  let trimmed := ((s.toList.dropWhile isIntegerBlank).reverse.dropWhile isIntegerBlank).reverse
  let (negative, body) := takeSign trimmed
  match groupedDigits digit? body with
  | some ds => signedInteger negative ds
  | none => .malformed

/-- The decimal text of an integer. -/
def integerChars (i : Int) : List Char :=
  if i < 0 then '-' :: digits i.natAbs else digits i.natAbs

/-- The decimal text of an integer. -/
def integerText (i : Int) : String :=
  String.ofList (integerChars i)

end Listing
