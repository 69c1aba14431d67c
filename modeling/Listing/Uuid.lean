import Listing.Number.Integer

/-!
# Universally unique identifiers

An identifier is a number of 128 bits, written as 32 hexadecimal digits in groups of 8, 4, 4, 4 and
12. A reader passes over hyphens, the words `urn:` and `uuid:`, and braces at either end, and wants
32 characters of a hexadecimal number to remain.
-/

set_option autoImplicit false

namespace Listing

open Text

/-- An identifier of 128 bits. -/
structure Uuid where
  number : Nat
  bounded : number < Nat.pow 2 128
  deriving DecidableEq

namespace Uuid

/-- The 32 hexadecimal digits of an identifier. -/
def hexChars (u : Uuid) : List Char :=
  paddedHex 32 u.number

/-- The hexadecimal digits in their five groups. -/
def chars (u : Uuid) : List Char :=
  let h := u.hexChars
  h.take 8 ++ '-' :: (h.drop 8).take 4 ++ '-' :: (h.drop 12).take 4 ++
    '-' :: (h.drop 16).take 4 ++ '-' :: h.drop 20

/-- The text of an identifier. -/
def text (u : Uuid) : String :=
  String.ofList u.chars

/-- A character list without the occurrences of a word, found from the left; `skip` characters of
the occurrence last found are still to be passed over. -/
def dropWords (word : List Char) : Nat → List Char → List Char
  | _, [] => []
  | skip + 1, _ :: rest => dropWords word skip rest
  | 0, c :: rest =>
    if word.isPrefixOf (c :: rest) then dropWords word (word.length - 1) rest
    else c :: dropWords word 0 rest

/-- A character list without the braces at its ends. -/
def stripBraces (cs : List Char) : List Char :=
  let isBrace (c : Char) : Bool := c.toNat == 123 || c.toNat == 125
  ((cs.dropWhile isBrace).reverse.dropWhile isBrace).reverse

/-- A hexadecimal number: a sign, the mark `0x`, single underscores between digits and blanks at
the ends are taken. -/
def readHex (cs : List Char) : Option Int :=
  let (negative, body) := takeSign (trimChars cs)
  let digitsOnly := match body with
    | '0' :: x :: '_' :: rest => if x == 'x' || x == 'X' then rest else body
    | '0' :: x :: rest => if x == 'x' || x == 'X' then rest else body
    | _ => body
  (groupedDigits hexDigit? digitsOnly).map fun ds =>
    let n : Int := ofDigits 16 ds
    if negative then -n else n

/-- Reads an identifier. -/
def readChars (cs : List Char) : Option Uuid :=
  let plain := dropWords "uuid:".toList 0 (dropWords "urn:".toList 0 cs)
  let hex := (stripBraces plain).filter (· != '-')
  if hex.length = 32 then
    match readHex hex with
    | some (.ofNat n) => if h : n < Nat.pow 2 128 then some ⟨n, h⟩ else none
    | _ => none
  else none

/-- Reads the text of an identifier. -/
def read? (s : String) : Option Uuid :=
  readChars s.toList

end Uuid

end Listing
