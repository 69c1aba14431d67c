import Listing.Text.Blank

/-!
# Cutting and joining text

`splitAt` cuts a text at every separator, `cutAt` at the first one, and `parts` keeps what remains
of the pieces once they are trimmed. `joinWith` puts pieces together again.
-/

set_option autoImplicit false

namespace Listing.Text

/-- The pieces of a character list between the separators; one more piece than separators. -/
def splitChars (sep : Char) : List Char → List (List Char)
  | [] => [[]]
  | c :: rest =>
    if c == sep then [] :: splitChars sep rest
    else match splitChars sep rest with
      | [] => [[c]]
      | piece :: more => (c :: piece) :: more

/-- The characters before the first separator and those after it, if there is one. -/
def cutChars (sep : Char) : List Char → Option (List Char × List Char)
  | [] => none
  | c :: rest =>
    if c == sep then some ([], rest)
    else (cutChars sep rest).map fun (before, after) => (c :: before, after)

/-- The text before the first separator and the text after it, if there is one. -/
def cutAt (sep : Char) (s : String) : Option (String × String) :=
  (cutChars sep s.toList).map fun (before, after) => (String.ofList before, String.ofList after)

/-- The trimmed pieces between separators that are not blank. -/
def parts (sep : Char) (s : String) : List String :=
  ((splitChars sep s.toList).map fun piece => String.ofList (trimChars piece)).filter (· ≠ "")

/-- The pieces in order with a separator between neighbours. -/
def joinWith (sep : String) : List String → String
  | [] => ""
  | [s] => s
  | s :: rest => s ++ sep ++ joinWith sep rest

/-- Every occurrence of a character exchanged for a text. -/
def replaceChar (old : Char) (new : List Char) (cs : List Char) : List Char :=
  cs.flatMap fun c => if c == old then new else [c]

end Listing.Text
