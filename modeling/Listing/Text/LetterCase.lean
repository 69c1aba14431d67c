import Listing.Text.CaseTable

/-!
# Upper case, lower case and case folding

`lower` and `upper` change a whole text; an image may be longer than the character it comes from,
and a capital sigma at the end of a word becomes the final small sigma. `fold` names the class of a
letter under comparison without regard to case: two characters are the same letter when they have
one fold.
-/

set_option autoImplicit false

namespace Listing.Text

/-- The code point moved by the first run that holds it. -/
def shiftBy (runs : List CaseRun) (n : Nat) : Nat :=
  match runs.find? (·.covers n) with
  | some r => ((n : Int) + r.shift).toNat
  | none => n

/-- The single-character lower case of a character. -/
def lowerChar (c : Char) : Char :=
  if c.toNat < 128 then
    if 65 ≤ c.toNat ∧ c.toNat ≤ 90 then Char.ofNat (c.toNat + 32) else c
  else Char.ofNat (shiftBy lowerRuns c.toNat)

/-- One representative for all characters that differ in case only. -/
def fold (c : Char) : Char :=
  let l := lowerChar c
  if l.toNat < 128 then l
  else match foldRepresentatives.find? (·.1 == l.toNat) with
    | some (_, r) => Char.ofNat r
    | none => l

/-- The code point lies in one of the intervals. -/
def inRanges (ranges : List (Nat × Nat)) (n : Nat) : Bool :=
  ranges.any fun r => decide (r.1 ≤ n ∧ n ≤ r.2)

/-- The next character that carries case context is a cased letter. -/
def meetsCased (cs : List Char) : Bool :=
  match cs.dropWhile (fun c => inRanges caseIgnorableRanges c.toNat) with
  | [] => false
  | c :: _ => inRanges casedRanges c.toNat

/-- Lower case of a text whose earlier characters, last first, are `before`. -/
def lowerAfter (before : List Char) : List Char → List Char
  | [] => []
  | c :: rest =>
    let image :=
      if c.toNat = 0x3A3 then
        [if meetsCased before && !meetsCased rest then Char.ofNat 0x3C2 else Char.ofNat 0x3C3]
      else if c.toNat = 0x130 then [Char.ofNat 0x69, Char.ofNat 0x307]
      else [lowerChar c]
    image ++ lowerAfter (c :: before) rest

/-- The text in lower case. -/
def lower (s : String) : String :=
  String.ofList (lowerAfter [] s.toList)

/-- The upper case of one character, possibly several characters long. -/
def upperChar (c : Char) : List Char :=
  if c.toNat < 128 then
    [if 97 ≤ c.toNat ∧ c.toNat ≤ 122 then Char.ofNat (c.toNat - 32) else c]
  else match upperExpansions.find? (·.1 == c.toNat) with
    | some (_, image) => image.map Char.ofNat
    | none => [Char.ofNat (shiftBy upperRuns c.toNat)]

/-- The text in upper case. -/
def upper (s : String) : String :=
  String.ofList (s.toList.flatMap upperChar)

end Listing.Text
