import Listing.Operator
import Listing.Value.Compare
import Listing.Value.Written
import Listing.Wildcard

/-!
# Filter tokens

A filter token is an operator name, a colon and a value. Several tokens may stand in one text,
separated by commas; a comma starts a new token only where an operator name and a colon follow, so
`in:A,B` is one token and `gte:1,lte:9` is two.
-/

set_option autoImplicit false

namespace Listing.Filter

open Text

/-- The characters start with a word, whose letters are compared without regard to case. -/
def startsWith : List Char → List Char → Bool
  | [], _ => true
  | _ :: _, [] => false
  | w :: word, c :: cs => Wildcard.sameLetter true w c && startsWith word cs

/-- The characters start with an operator name and a colon. -/
def startsToken (cs : List Char) : Bool :=
  Operator.all.any fun op => startsWith (op.name.toList ++ [':']) cs

/-- The comma at the head of the characters separates two tokens. -/
def isBoundary (afterComma : List Char) : Bool :=
  startsToken (afterComma.dropWhile isBlank)

/-- The pieces of a text between the commas that separate tokens. -/
def pieces : List Char → List (List Char)
  | [] => [[]]
  | c :: rest =>
    if c == ',' && isBoundary rest then [] :: pieces rest
    else match pieces rest with
      | [] => [[c]]
      | piece :: more => (c :: piece) :: more

/-- The tokens of one text. -/
def tokensOfText (s : String) : List String :=
  ((pieces s.toList).map fun piece => String.ofList (trimChars piece)).filter (· ≠ "")

/-- The tokens of the items of a collection; a missing item has none. -/
def tokensOfItems : List Value → Result (List String)
  | [] => .ok []
  | item :: rest =>
    if item.isNull then tokensOfItems rest
    else do return tokensOfText (← item.displayed) ++ (← tokensOfItems rest)

/-- The tokens of a text, or of the items of a collection. -/
def tokens (raw : Value) : Result (List String) :=
  match raw with
  | .text s => .ok (tokensOfText s)
  | v => do tokensOfItems (← v.elements)

end Listing.Filter
