import Listing.Relational.Operand
import Listing.Wildcard

/-!
# The meaning of conditions

A condition is true, false or unknown of a row, as SQLite documents its expressions. A comparison with
an empty cell is unknown; a group is decided by one part that decides it, and unknown if none does and
one is unknown. Only rows of which a condition is true are selected.

Patterns are those of its LIKE operator with a backslash for escape. Pattern and text end at their
first zero character, letters of the plain alphabet are compared without regard to case, and the two
last code points of the first plane read as the replacement character. A pattern with a backslash at
its end matches nothing, and one of more than `Wildcard.sizeLimit` octets is refused as soon as it is
compared with a cell. Parts of a group are taken from left to right, and only as far as needed; this is
the order where no index gives the engine a reason for another.
-/

set_option autoImplicit false

namespace Listing

/-- The cells of a row by the names of their columns. -/
abbrev Tuple : Type := List (String × Cell)

namespace Tuple

/-- The cell of a column. -/
def cell (t : Tuple) (c : Column) : Cell :=
  (Entries.get? c.name t).getD .null

end Tuple

/-! ## Truth values -/

namespace Truth

/-- The negation of a truth value. -/
def negate (t : Option Bool) : Option Bool :=
  t.map (!·)

/-- The negation, if it is asked for. -/
def negateIf (negated : Bool) (t : Option Bool) : Option Bool :=
  if negated then negate t else t

/-- Both hold. -/
def both : Option Bool → Option Bool → Option Bool
  | some false, _ => some false
  | _, some false => some false
  | some true, some true => some true
  | _, _ => none

/-- Either holds. -/
def either : Option Bool → Option Bool → Option Bool
  | some true, _ => some true
  | _, some true => some true
  | some false, some false => some false
  | _, _ => none

end Truth

/-! ## Patterns -/

namespace Wildcard

/-- A plain letter in lower case. -/
def plainLower (c : Char) : Char :=
  Decimal.lowerLetter c

/-- The characters before the first zero character. -/
def beforeZero (cs : List Char) : List Char :=
  cs.takeWhile (·.toNat ≠ 0)

/-- The written pattern ends within an escape. -/
def endsEscaping : List Char → Bool
  | [] => false
  | ['\\'] => true
  | '\\' :: _ :: rest => endsEscaping rest
  | _ :: rest => endsEscaping rest

/-- A character as it is compared: a plain letter in lower case, and the two last code points of the
first plane as the replacement character. -/
def plainFold (c : Char) : Char :=
  if c.toNat = 0xFFFE ∨ c.toNat = 0xFFFF then Char.ofNat 0xFFFD else plainLower c

/-- The elements of a pattern with their letters as they are compared. -/
def plainFolded : Wildcard → Wildcard
  | letter c => letter (plainFold c)
  | w => w

/-- The written pattern describes the text, plain letters compared without regard to case. -/
def matchesPlain (pattern text : String) : Bool :=
  let p := beforeZero pattern.toList
  !endsEscaping p &&
    matchesChars false ((ofChars p).map plainFolded) ((beforeZero text.toList).map plainFold)

/-- The most octets that a pattern may have. -/
def sizeLimit : Nat := 50000

end Wildcard

namespace Cell

/-- A cell with its plain letters in lower case. -/
def lowered (c : Cell) : Cell :=
  match c.text? with
  | some s => text (String.ofList (s.toList.map Wildcard.plainLower))
  | none => null

/-- A cell is described by a pattern. -/
def described (c pattern : Cell) : Option Bool :=
  match c.text?, pattern.text? with
  | some s, some p => some (Wildcard.matchesPlain p s)
  | _, _ => none

/-- A cell of a column relates to another cell. -/
def relates (type : ColumnType) (r : Relation) (a b : Cell) : Option Bool :=
  (a.compare? (b.preferredBy type)).map r.admits

/-- A cell of a column equals one of some cells. -/
def isAmong (type : ColumnType) (a : Cell) : List Cell → Option Bool
  | [] => some false
  | b :: rest => Truth.either (relates type .equal a b) (isAmong type a rest)

end Cell

namespace Condition

mutual

/-- The truth of a condition of a row. -/
def truthOf (t : Tuple) : Condition → Option Bool
  | constant b => some b
  | settled b => some b
  | relates c r v => (t.cell c).relates c.type r (Operand.ofValue c v).cell
  | null c negated => some ((t.cell c).isNull != negated)
  | truth c negated b =>
    (t.cell c).relates c.type (if negated then .differ else .equal) (.int (if b then 1 else 0))
  | like c p anyCase negated =>
    let pattern := (Operand.ofValue c p).cell
    Truth.negateIf negated
      (if anyCase then (t.cell c).lowered.described pattern.lowered
        else (t.cell c).described pattern)
  | among c vs negated =>
    Truth.negateIf negated ((t.cell c).isAmong c.type ((Operand.ofValues c vs).map (·.cell)))
  | group true parts => truthOfAll t parts
  | group false parts => truthOfAny t parts

/-- The truth of all of some conditions. -/
def truthOfAll (t : Tuple) : List Condition → Option Bool
  | [] => some true
  | c :: rest => Truth.both (truthOf t c) (truthOfAll t rest)

/-- The truth of any of some conditions. -/
def truthOfAny (t : Tuple) : List Condition → Option Bool
  | [] => some false
  | c :: rest => Truth.either (truthOf t c) (truthOfAny t rest)

end

/-- The pattern is too long to be compared with anything. -/
def isOverlong (c : Column) (p : Value) : Bool :=
  match (Operand.ofValue c p).cell.text? with
  | some pattern => decide (Wildcard.sizeLimit < pattern.utf8ByteSize)
  | none => false

mutual

/-- The condition comes to a pattern of a row that is too long. -/
def refuses (t : Tuple) : Condition → Bool
  | like c p _ _ => isOverlong c p
  | group true parts => refusesAll t parts
  | group false parts => refusesAny t parts
  | _ => false

/-- The conditions, all of which must hold, come to a pattern that is too long. -/
def refusesAll (t : Tuple) : List Condition → Bool
  | [] => false
  | c :: rest => refuses t c || (truthOf t c != some false && refusesAll t rest)

/-- The conditions, any of which must hold, come to a pattern that is too long. -/
def refusesAny (t : Tuple) : List Condition → Bool
  | [] => false
  | c :: rest => refuses t c || (truthOf t c != some true && refusesAny t rest)

end

mutual

/-- The operands of a condition in order. -/
def operands : Condition → List Operand
  | relates c _ v => [.ofValue c v]
  | like c p _ _ => [.ofValue c p]
  | among c vs _ => Operand.ofValues c vs
  | group _ parts => operandsOf parts
  | _ => []

/-- The operands of conditions in order. -/
def operandsOf : List Condition → List Operand
  | [] => []
  | c :: rest => c.operands ++ operandsOf rest

end

/-- The row is selected. -/
def selects (c : Condition) (t : Tuple) : Bool :=
  c.truthOf t == some true

/-- The condition can be decided of all tuples. -/
def checkPatterns (c : Condition) (tuples : List Tuple) : Result Unit :=
  if tuples.any c.refuses then .error .complexPattern else .ok ()

end Condition

end Listing
