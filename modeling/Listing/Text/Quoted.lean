import Listing.Text.Digit
import Listing.Text.LetterCase
import Listing.Text.PrintableTable

/-!
# Quoted text

A text is quoted with single quotes, or with double ones when it holds a single quote and no double
one. The backslash and the quote in use are escaped; line feeds, returns and tabs have letters of
their own; any other character without a printed form is written by its code point in hexadecimal.
-/

set_option autoImplicit false

namespace Listing.Text

/-- The character has a printed form of its own. -/
def isPrintable (c : Char) : Bool :=
  if c.toNat < 128 then decide (32 ≤ c.toNat ∧ c.toNat ≤ 126)
  else !inRanges unprintableRanges c.toNat

/-- The escape that names a character by its code point. -/
def codeEscape (c : Char) : List Char :=
  let n := c.toNat
  if n < 0x100 then '\\' :: 'x' :: paddedHex 2 n
  else if n < 0x10000 then '\\' :: 'u' :: paddedHex 4 n
  else '\\' :: 'U' :: paddedHex 8 n

/-- One character inside the given quotes. -/
def quoteChar (quote c : Char) : List Char :=
  if c == quote || c == '\\' then ['\\', c]
  else if c == '\n' then ['\\', 'n']
  else if c == '\r' then ['\\', 'r']
  else if c == '\t' then ['\\', 't']
  else if isPrintable c then [c]
  else codeEscape c

/-- The quote that a text is written in. -/
def quoteFor (cs : List Char) : Char :=
  let single := Char.ofNat 39
  let double := Char.ofNat 34
  if cs.contains single && !cs.contains double then double else single

/-- The text between quotes, with escapes. -/
def quoted (s : String) : String :=
  let quote := quoteFor s.toList
  String.ofList (quote :: (s.toList.flatMap (quoteChar quote) ++ [quote]))

end Listing.Text
