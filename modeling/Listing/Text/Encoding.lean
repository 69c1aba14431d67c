/-!
# Texts as octets

A text is stored as UTF-8. Octets of unknown origin are read as UTF-8, UTF-16 or UTF-32: the mark at
their start tells which, or else the places of the zeros among the first four of them. Half of a
surrogate pair on its own is read as the replacement character.
-/

set_option autoImplicit false

namespace Listing.Text

/-- The octets of one character. -/
def encodeChar (c : Char) : List UInt8 :=
  let n := c.toNat
  if n < 0x80 then [n.toUInt8]
  else if n < 0x800 then [(0xC0 + n / 64).toUInt8, (0x80 + n % 64).toUInt8]
  else if n < 0x10000 then
    [(0xE0 + n / 4096).toUInt8, (0x80 + n / 64 % 64).toUInt8, (0x80 + n % 64).toUInt8]
  else
    [(0xF0 + n / 262144).toUInt8, (0x80 + n / 4096 % 64).toUInt8, (0x80 + n / 64 % 64).toUInt8,
      (0x80 + n % 64).toUInt8]

/-- The octets of a text. -/
def encode (s : String) : List UInt8 :=
  s.toList.flatMap encodeChar

/-- The character that stands for what is none. -/
def replacement : Char := Char.ofNat 0xFFFD

/-- The character with a code point; half of a surrogate pair gives the replacement. -/
def charAt (n : Nat) : Char :=
  if 0xD800 ≤ n ∧ n ≤ 0xDFFF then replacement else Char.ofNat n

/-- The octet continues a character. -/
def isTail (b : Nat) : Bool :=
  decide (0x80 ≤ b ∧ b ≤ 0xBF)

/-- Reads UTF-8. -/
def decodeUtf8 : List UInt8 → Option (List Char)
  | [] => some []
  | a :: rest =>
    let x := a.toNat
    if x < 0x80 then (decodeUtf8 rest).map (Char.ofNat x :: ·)
    else match rest with
      | [] => none
      | b :: rest =>
        let y := b.toNat
        if 0xC2 ≤ x ∧ x ≤ 0xDF then
          if isTail y then (decodeUtf8 rest).map (Char.ofNat ((x - 0xC0) * 64 + (y - 0x80)) :: ·)
          else none
        else match rest with
          | [] => none
          | c :: rest =>
            let z := c.toNat
            if 0xE0 ≤ x ∧ x ≤ 0xEF then
              if isTail y && isTail z && (x != 0xE0 || decide (0xA0 ≤ y)) then
                (decodeUtf8 rest).map
                  (charAt ((x - 0xE0) * 4096 + (y - 0x80) * 64 + (z - 0x80)) :: ·)
              else none
            else match rest with
              | [] => none
              | d :: rest =>
                let w := d.toNat
                if 0xF0 ≤ x ∧ x ≤ 0xF4 then
                  if isTail y && isTail z && isTail w && (x != 0xF0 || decide (0x90 ≤ y)) &&
                      (x != 0xF4 || decide (y ≤ 0x8F)) then
                    (decodeUtf8 rest).map (Char.ofNat ((x - 0xF0) * 262144 + (y - 0x80) * 4096 +
                      (z - 0x80) * 64 + (w - 0x80)) :: ·)
                  else none
                else none

/-- Octets as numbers of two octets each. -/
def pairUnits (bigEndian : Bool) : List UInt8 → Option (List Nat)
  | [] => some []
  | a :: b :: rest =>
    let n := if bigEndian then a.toNat * 256 + b.toNat else b.toNat * 256 + a.toNat
    (pairUnits bigEndian rest).map (n :: ·)
  | [_] => none

/-- Units of UTF-16 as characters. -/
def joinUnits : List Nat → List Char
  | [] => []
  | n :: rest =>
    match rest with
    | m :: more =>
      if 0xD800 ≤ n ∧ n ≤ 0xDBFF ∧ 0xDC00 ≤ m ∧ m ≤ 0xDFFF then
        Char.ofNat (0x10000 + (n - 0xD800) * 1024 + (m - 0xDC00)) :: joinUnits more
      else charAt n :: joinUnits (m :: more)
    | [] => [charAt n]

/-- Reads UTF-16. -/
def decodeUtf16 (bigEndian : Bool) (octets : List UInt8) : Option (List Char) :=
  (pairUnits bigEndian octets).map joinUnits

/-- Reads UTF-32. -/
def decodeUtf32 (bigEndian : Bool) : List UInt8 → Option (List Char)
  | [] => some []
  | a :: b :: c :: d :: rest =>
    let n := if bigEndian then ((a.toNat * 256 + b.toNat) * 256 + c.toNat) * 256 + d.toNat
      else ((d.toNat * 256 + c.toNat) * 256 + b.toNat) * 256 + a.toNat
    if n < 0x110000 then (decodeUtf32 bigEndian rest).map (charAt n :: ·) else none
  | _ => none

/-- Reads octets of unknown origin. -/
def decode (octets : List UInt8) : Option (List Char) :=
  if [0, 0, 0xFE, 0xFF].isPrefixOf octets then decodeUtf32 true (octets.drop 4)
  else if [0xFF, 0xFE, 0, 0].isPrefixOf octets then decodeUtf32 false (octets.drop 4)
  else if [0xFE, 0xFF].isPrefixOf octets then decodeUtf16 true (octets.drop 2)
  else if [0xFF, 0xFE].isPrefixOf octets then decodeUtf16 false (octets.drop 2)
  else if [0xEF, 0xBB, 0xBF].isPrefixOf octets then decodeUtf8 (octets.drop 3)
  else match octets with
    | a :: b :: c :: d :: _ =>
      if a = 0 then if b = 0 then decodeUtf32 true octets else decodeUtf16 true octets
      else if b = 0 then
        if c = 0 ∧ d = 0 then decodeUtf32 false octets else decodeUtf16 false octets
      else decodeUtf8 octets
    | [a, b] =>
      if a = 0 then decodeUtf16 true octets
      else if b = 0 then decodeUtf16 false octets
      else decodeUtf8 octets
    | _ => decodeUtf8 octets

end Listing.Text
