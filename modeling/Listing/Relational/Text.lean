import Listing.Relational.Condition
import Listing.Wildcard

/-!
# The text of a condition

A condition is written in the query language in pieces: fixed text, and places for parameters. No
piece depends on a value, so values never reach the text. A place is named after its column and
numbered within the places of one name, in the order of the text; a list of values has one place,
unless a null stands in it.

What is written follows the default dialect of SQLAlchemy 2.1 as far as conditions on columns need it.
Names are quoted when they are reserved, not in lower case or not plain; a comparison with null is
`IS`, one with a truth value `=` or `!=`; a list is one parameter that is expanded when the statement
is executed; a group is in parentheses inside one of the other kind only where its word binds less.
The name of a column becomes that of a parameter without the characters that parameters cannot have,
and the parameters are numbered under what it became. Names are not cut, which the dialect does to
those longer than 9993 characters.
-/

set_option autoImplicit false

namespace Listing

open Text

/-! ## Names -/

/-- The words of the query language, which name nothing unless quoted. -/
def reservedWords : List String := [
  "all", "analyse", "analyze", "and", "any", "array", "as", "asc", "asymmetric", "authorization",
  "between", "binary", "both", "case", "cast", "check", "collate", "column", "constraint", "create",
  "cross", "current_date", "current_role", "current_time", "current_timestamp", "current_user",
  "default", "deferrable", "desc", "distinct", "do", "else", "end", "except", "false", "for",
  "foreign", "freeze", "from", "full", "grant", "group", "having", "ilike", "in", "initially",
  "inner", "intersect", "into", "is", "isnull", "join", "leading", "left", "like", "limit",
  "localtime", "localtimestamp", "natural", "new", "not", "notnull", "null", "off", "offset", "old",
  "on", "only", "or", "order", "outer", "overlaps", "placing", "primary", "references", "right",
  "select", "session_user", "set", "similar", "some", "symmetric", "table", "then", "to",
  "trailing", "true", "union", "unique", "user", "using", "verbose", "when", "where"]

/-- The character may stand in a name that is not quoted. -/
def isNameChar (c : Char) : Bool :=
  isPlainDigit c || c == '_' || c == '$' ||
    "abcdefghijklmnopqrstuvwxyz".toList.any fun a => Wildcard.sameLetter true a c

/-- The name can be written as it is. -/
def isPlainName (s : String) : Bool :=
  s.toList.all isNameChar && lower s == s && !reservedWords.contains s &&
    match s.toList with
    | c :: _ => !isPlainDigit c && c != '$'
    | [] => false

/-- A name in the query language, in double quotes if need be. -/
def nameText (s : String) : String :=
  if isPlainName s then s
  else "\"" ++ String.ofList (replaceChar '"' "\"\"".toList s.toList) ++ "\""

namespace Column

/-- A column of a table in the query language. -/
def text (table : String) (c : Column) : String :=
  nameText table ++ "." ++ nameText c.name

/-- The character cannot stand in the name of a parameter, and a run of such ones becomes an
underscore. -/
def isStemBreak (c : Char) : Bool :=
  "%() $:.[]".toList.contains c

/-- The characters with one underscore for each run of breaks. -/
def joinBreaks (afterBreak : Bool) : List Char → List Char
  | [] => []
  | c :: rest =>
    if isStemBreak c then
      if afterBreak then joinBreaks true rest else '_' :: joinBreaks true rest
    else c :: joinBreaks false rest

/-- The name that the parameters of a column are numbered under. -/
def stem (c : Column) : String :=
  let cs := (joinBreaks false c.name.toList).dropWhile (· == '_')
  String.ofList (cs.reverse.dropWhile (· == '_')).reverse

end Column

/-- The name of the parameter with a number. -/
def parameterName (stem : String) (number : Nat) : String :=
  stem ++ "_" ++ integerText number

/-- The names of parameters with given stems; `before` has the stems before them. -/
def parameterNames (before : List String) : List String → List String
  | [] => []
  | s :: rest => parameterName s (before.count s + 1) :: parameterNames (s :: before) rest

/-! ## Pieces -/

/-- A piece of the text of a condition. -/
inductive Piece where
  | fixed (s : String)
  | one (stem : String)
  | many (stem : String)
  deriving DecidableEq, Repr

namespace Piece

/-- The stem of the parameter that a piece has a place for. -/
def stem? : Piece → Option String
  | fixed _ => none
  | one s | many s => some s

/-- The text of pieces, given the names of their parameters. -/
def fill : List Piece → List String → String
  | [], _ => ""
  | fixed s :: rest, names => s ++ fill rest names
  | one _ :: rest, name :: names => ":" ++ name ++ fill rest names
  | many _ :: rest, name :: names => "__[POSTCOMPILE_" ++ name ++ "]" ++ fill rest names
  | one _ :: rest, [] => fill rest []
  | many _ :: rest, [] => fill rest []

/-- The names of the parameters of pieces, in order. -/
def names (pieces : List Piece) : List String :=
  parameterNames [] (pieces.filterMap stem?)

/-- The text of pieces. -/
def text (pieces : List Piece) : String :=
  fill pieces (names pieces)

end Piece

namespace Condition

/-- The escape of patterns in the query language. -/
def escapeText : String := " ESCAPE '\\'"

/-- The word for a constant. -/
def constantText (b : Bool) : String :=
  if b then "true" else "false"

/-- The pieces of the values of a list, with nulls as such. -/
def listedPieces (stem : String) : List Value → List Piece
  | [] => []
  | [v] => [if v.isNull then .fixed "NULL" else .one stem]
  | v :: rest =>
    (if v.isNull then .fixed "NULL" else .one stem) :: .fixed ", " :: listedPieces stem rest

/-- The pieces of a list of values. -/
def listPieces (stem : String) (vs : List Value) : List Piece :=
  if vs.any (·.isNull) then listedPieces stem vs else [.many stem]

/-- The pieces of a match with a pattern. -/
def likePieces (column stem : String) (anyCase negated : Bool) : List Piece :=
  let sign := if negated then " NOT LIKE " else " LIKE "
  if anyCase then
    [.fixed ("lower(" ++ column ++ ")" ++ sign ++ "lower("), .one stem, .fixed (")" ++ escapeText)]
  else [.fixed (column ++ sign), .one stem, .fixed escapeText]

/-- The pieces of the membership in a list. -/
def amongPieces (column stem : String) (vs : List Value) (negated : Bool) : List Piece :=
  if negated then .fixed ("(" ++ column ++ " NOT IN (") :: listPieces stem vs ++ [.fixed "))"]
  else .fixed (column ++ " IN (") :: listPieces stem vs ++ [.fixed ")"]

/-- The condition is written in parentheses inside a group. -/
def isEnclosed (conjunctive : Bool) : Condition → Bool
  | group c _ => conjunctive && !c
  | _ => false

/-- The pieces in parentheses where they are due. -/
def enclose (due : Bool) (pieces : List Piece) : List Piece :=
  if due then .fixed "(" :: pieces ++ [.fixed ")"] else pieces

mutual

/-- The pieces of a condition on the columns of a table. -/
def pieces (table : String) : Condition → List Piece
  | constant b => [.fixed (constantText b)]
  | settled b => [.fixed (constantText b)]
  | relates c r _ => [.fixed (c.text table ++ " " ++ r.sign ++ " "), .one c.stem]
  | null c negated => [.fixed (c.text table ++ if negated then " IS NOT NULL" else " IS NULL")]
  | truth c negated b =>
    [.fixed (c.text table ++ (if negated then " != " else " = ") ++ constantText b)]
  | like c _ anyCase negated => likePieces (c.text table) c.stem anyCase negated
  | among c vs negated => amongPieces (c.text table) c.stem vs negated
  | group conjunctive parts => groupPieces table conjunctive parts

/-- The pieces of the parts of a group, the word of the group between them. -/
def groupPieces (table : String) (conjunctive : Bool) : List Condition → List Piece
  | [] => []
  | [c] => enclose (c.isEnclosed conjunctive) (pieces table c)
  | c :: rest =>
    enclose (c.isEnclosed conjunctive) (pieces table c) ++
      .fixed (if conjunctive then " AND " else " OR ") :: groupPieces table conjunctive rest

end

mutual

/-- The values of the parameters of a condition, in the order of its text. -/
def parameterValues : Condition → List Value
  | relates _ _ v => [v]
  | like _ p _ _ => [p]
  | among _ vs _ => if vs.any (·.isNull) then vs.filter (!·.isNull) else [.list vs]
  | group _ parts => parameterValuesOf parts
  | _ => []

/-- The values of the parameters of conditions, in order. -/
def parameterValuesOf : List Condition → List Value
  | [] => []
  | c :: rest => c.parameterValues ++ parameterValuesOf rest

end

/-- The text of a condition on the columns of a table. -/
def text (table : String) (c : Condition) : String :=
  Piece.text (c.pieces table)

/-- The names and the values of the parameters of a condition. -/
def parameters (c : Condition) : List (String × Value) :=
  (Piece.names (c.pieces "")).zip c.parameterValues

end Condition

/-- The text of a sort by a column. -/
def sortText (table : String) (c : Column) (d : Direction) : String :=
  c.text table ++ " " ++ d.name

end Listing
