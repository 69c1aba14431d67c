import Listing.Json.Basic
import Listing.Text.Split

/-!
# Writing structured text

Texts are written in double quotes; the quote, the backslash and the controls are escaped, and in
plain style every character outside the printed plain ones, by its units of UTF-16. A style also says
what stands between items and after names.
-/

set_option autoImplicit false

namespace Listing

open Text

namespace Json

/-- How structured text is written. -/
structure Style where
  itemSeparator : String
  nameSeparator : String
  plainOnly : Bool

/-- No blanks, plain characters only. -/
def compact : Style := ⟨",", ":", true⟩

/-- A blank after each separator, all characters as they are. -/
def spaced : Style := ⟨", ", ": ", false⟩

/-- The escape of a unit of UTF-16. -/
def unitEscape (n : Nat) : List Char :=
  '\\' :: 'u' :: paddedHex 4 n

/-- The escapes of a character by its units of UTF-16. -/
def charEscape (n : Nat) : List Char :=
  if n < 0x10000 then unitEscape n
  else unitEscape (0xD800 + (n - 0x10000) / 1024) ++ unitEscape (0xDC00 + (n - 0x10000) % 1024)

/-- One character within quotes. -/
def writeChar (plainOnly : Bool) (c : Char) : List Char :=
  let n := c.toNat
  if n = 34 ∨ n = 92 then ['\\', c]
  else if n = 10 then ['\\', 'n']
  else if n = 13 then ['\\', 'r']
  else if n = 9 then ['\\', 't']
  else if n = 8 then ['\\', 'b']
  else if n = 12 then ['\\', 'f']
  else if n < 32 ∨ (plainOnly ∧ 126 < n) then charEscape n
  else [c]

/-- A text within quotes. -/
def writeText (plainOnly : Bool) (s : String) : String :=
  String.ofList ('"' :: (s.toList.flatMap (writeChar plainOnly) ++ ['"']))

/-- A floating-point number; infinities and not-a-number have names. -/
def writeFloat : Binary64 → String
  | .nan => "NaN"
  | .infinite negative => if negative then "-Infinity" else "Infinity"
  | x => x.text

mutual

/-- The text of a value. -/
def write (style : Style) : Json → String
  | null => "null"
  | bool true => "true"
  | bool false => "false"
  | int i => integerText i
  | float x => writeFloat x
  | text s => writeText style.plainOnly s
  | list items => "[" ++ joinWith style.itemSeparator (writeAll style items) ++ "]"
  | record fields => "\x7b" ++ joinWith style.itemSeparator (writeFields style fields) ++ "\x7d"

/-- The texts of values in order. -/
def writeAll (style : Style) : List Json → List String
  | [] => []
  | v :: rest => write style v :: writeAll style rest

/-- The texts of fields in order. -/
def writeFields (style : Style) : List (String × Json) → List String
  | [] => []
  | (name, v) :: rest =>
    (writeText style.plainOnly name ++ style.nameSeparator ++ write style v) ::
      writeFields style rest

end

end Json

end Listing
