import Listing.Text.LetterCase
import Listing.Text.Split

/-!
# Wildcard patterns

In a pattern `%` stands for any run of characters, `_` for any one character, and a backslash for
the character after it; a backslash at the end stands for itself. `Wildcard.matchesAll` decides
whether a whole text is described by a pattern; characters are compared as they are or by their
folds. `Wildcard.containing` is the pattern of all texts that contain a given one.
-/

set_option autoImplicit false

namespace Listing

/-- One element of a pattern. -/
inductive Wildcard where
  | letter (c : Char)
  | anyOne
  | anyRun
  deriving DecidableEq, Repr

namespace Wildcard

/-- The elements of a written pattern. -/
def ofChars : List Char → List Wildcard
  | [] => []
  | ['\\'] => [letter '\\']
  | '\\' :: c :: rest => letter c :: ofChars rest
  | '%' :: rest => anyRun :: ofChars rest
  | '_' :: rest => anyOne :: ofChars rest
  | c :: rest => letter c :: ofChars rest

/-- Two characters are the same letter, with or without regard to case. -/
def sameLetter (anyCase : Bool) (a b : Char) : Bool :=
  if anyCase then Text.fold a == Text.fold b else a == b

/-- Whether any entry from each place on is true. -/
def anyFrom : List Bool → List Bool
  | [] => []
  | b :: rest =>
    let later := anyFrom rest
    (b || later.headD false) :: later

/-- Whether an element followed by a pattern describes each tail of a text, given whether the
pattern alone does. -/
def extend (anyCase : Bool) (text : List Char) (tails : List Bool) : Wildcard → List Bool
  | letter p => List.zipWith (fun c b => sameLetter anyCase p c && b) text tails.tail ++ [false]
  | anyOne => tails.tail ++ [false]
  | anyRun => anyFrom tails

/-- Whether a pattern describes each tail of a text, the whole text first. -/
def describedTails (anyCase : Bool) (text : List Char) : List Wildcard → List Bool
  | [] => text.map (fun _ => false) ++ [true]
  | p :: rest => extend anyCase text (describedTails anyCase text rest) p

/-- The pattern describes the whole text. -/
def matchesChars (anyCase : Bool) (pattern : List Wildcard) (text : List Char) : Bool :=
  (describedTails anyCase text pattern).headD false

/-- The written pattern describes the whole text. -/
def matchesAll (anyCase : Bool) (pattern text : String) : Bool :=
  matchesChars anyCase (ofChars pattern.toList) text.toList

/-- One character of a text as a pattern that describes it alone. -/
def escapeChar (c : Char) : List Char :=
  if c == '\\' || c == '%' || c == '_' then ['\\', c] else [c]

/-- The pattern that describes the given text alone. -/
def escape (s : String) : String :=
  String.ofList (s.toList.flatMap escapeChar)

/-- The pattern that describes the texts containing the given one. -/
def containing (s : String) : String :=
  "%" ++ escape s ++ "%"

end Wildcard

end Listing
