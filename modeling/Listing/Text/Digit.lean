/-!
# Decimal digits

Ten consecutive code points form a digit row, from its zero to its nine. `digit?` reads a character
of any row, so a number may be written in any script; `digits` writes plain ones.
-/

set_option autoImplicit false

namespace Listing.Text

/-- The zeros of the digit rows outside the plain one. -/
def zeros : List Nat := [
  0x660, 0x6F0, 0x7C0, 0x966, 0x9E6, 0xA66, 0xAE6, 0xB66, 0xBE6, 0xC66, 0xCE6, 0xD66, 0xDE6,
  0xE50, 0xED0, 0xF20, 0x1040, 0x1090, 0x17E0, 0x1810, 0x1946, 0x19D0, 0x1A80, 0x1A90, 0x1B50,
  0x1BB0, 0x1C40, 0x1C50, 0xA620, 0xA8D0, 0xA900, 0xA9D0, 0xA9F0, 0xAA50, 0xABF0, 0xFF10,
  0x104A0, 0x10D30, 0x11066, 0x110F0, 0x11136, 0x111D0, 0x112F0, 0x11450, 0x114D0, 0x11650,
  0x116C0, 0x11730, 0x118E0, 0x11950, 0x11C50, 0x11D50, 0x11DA0, 0x16A60, 0x16AC0, 0x16B50,
  0x1D7CE, 0x1D7D8, 0x1D7E2, 0x1D7EC, 0x1D7F6, 0x1E140, 0x1E2F0, 0x1E950, 0x1FBF0]

/-- The value of a decimal digit of any script. -/
def digit? (c : Char) : Option Nat :=
  let n := c.toNat
  if n < 128 then
    if 48 ≤ n ∧ n ≤ 57 then some (n - 48) else none
  else
    (zeros.find? fun z => decide (z ≤ n ∧ n < z + 10)).map (n - ·)

/-- The character is a decimal digit of some script. -/
def isDigit (c : Char) : Bool :=
  (digit? c).isSome

/-- The character is a digit of the plain row. -/
def isPlainDigit (c : Char) : Bool :=
  decide (48 ≤ c.toNat ∧ c.toNat ≤ 57)

/-- The value of a plain or alphabetic digit in a base up to sixteen. -/
def hexDigit? (c : Char) : Option Nat :=
  match digit? c with
  | some d => some d
  | none =>
    let n := c.toNat
    if 97 ≤ n ∧ n ≤ 102 then some (n - 87)
    else if 65 ≤ n ∧ n ≤ 70 then some (n - 55)
    else none

/-- The plain character of a digit below sixteen, in lower case. -/
def digitChar (d : Nat) : Char :=
  if d < 10 then Char.ofNat (48 + d) else Char.ofNat (87 + d)

/-- The decimal digits of a number, most significant first. -/
def digits (n : Nat) : List Char :=
  if n < 10 then [digitChar n] else digits (n / 10) ++ [digitChar (n % 10)]
termination_by n
decreasing_by omega

/-- The number written by digit values, most significant first. -/
def ofDigits (base : Nat) (ds : List Nat) : Nat :=
  ds.foldl (fun acc d => base * acc + d) 0

/-- The last `width` decimal digits of a number, with leading zeros. -/
def paddedDigits (width n : Nat) : List Char :=
  match width with
  | 0 => []
  | w + 1 => paddedDigits w (n / 10) ++ [digitChar (n % 10)]

/-- The last `width` hexadecimal digits of a number, with leading zeros. -/
def paddedHex (width n : Nat) : List Char :=
  match width with
  | 0 => []
  | w + 1 => paddedHex w (n / 16) ++ [digitChar (n % 16)]

end Listing.Text
