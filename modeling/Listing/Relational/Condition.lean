import Listing.Predicate.Basic
import Listing.Relational.Table
import Listing.SortOrder.Basic
import Listing.Value.Written

/-!
# Conditions on columns

A condition is what a predicate becomes when each field is replaced by the column that stores it.
Equality with null becomes a test for null and equality with a truth value a test against a constant.
Groups are simplified as they are built: a constant that decides a group takes its place, one that
does not is dropped, a group inside a group of its own kind is dissolved, and a group of one part is
that part. Only constants that stand for the neutral predicate or a group without parts simplify; one
that a group was simplified to is `settled` and is kept. The operators of columns and the conjunctions
`and_` and `or_` of SQLAlchemy 2.1 are documented to do so.
-/

set_option autoImplicit false

namespace Listing

/-- How a column relates to a value. -/
inductive Relation where
  | equal
  | differ
  | order (c : Comparison)
  deriving DecidableEq, Repr

namespace Relation

/-- The sign of a relation. -/
def sign : Relation → String
  | equal => "="
  | differ => "!="
  | order c => c.sign

/-- The relation holds of a left and a right side in the given order. -/
def admits : Relation → Ordering → Bool
  | equal, o => o == .eq
  | differ, o => o != .eq
  | order c, o => c.admits o

end Relation

/-- A condition on the columns of a row. -/
inductive Condition where
  | constant (b : Bool)
  | settled (b : Bool)
  | relates (column : Column) (relation : Relation) (value : Value)
  | null (column : Column) (negated : Bool)
  | truth (column : Column) (negated b : Bool)
  | like (column : Column) (pattern : Value) (anyCase negated : Bool)
  | among (column : Column) (values : List Value) (negated : Bool)
  | group (conjunctive : Bool) (parts : List Condition)

instance : Inhabited Condition := ⟨.constant true⟩

namespace Condition

/-- The condition is the given constant. -/
def isConstant (b : Bool) : Condition → Bool
  | constant c => c == b
  | _ => false

/-- The parts that a condition brings into a group. -/
def members (conjunctive : Bool) : Condition → List Condition
  | group c parts => if c == conjunctive then parts else [group c parts]
  | c => [c]

/-- The group of conditions, simplified. -/
def gather (conjunctive : Bool) (parts : List Condition) : Condition :=
  if parts.isEmpty then constant conjunctive
  else if parts.any (isConstant (!conjunctive)) then settled (!conjunctive)
  else match parts.filter (!isConstant conjunctive ·) with
    | [] => settled conjunctive
    | [c] => c
    | rest => group conjunctive (rest.flatMap (members conjunctive))

/-- The value is null or a truth value, which are tested and not compared. -/
def isTested : Value → Bool
  | .null | .bool _ => true
  | _ => false

/-- The equality of a column with a value, or its negation. -/
def equality (column : Column) (negated : Bool) : Value → Condition
  | .null => null column negated
  | .bool b => truth column negated b
  | v => relates column (if negated then .differ else .equal) v

/-- The comparison of a column with a value. -/
def ordering (column : Column) (op : Comparison) (v : Value) : Result Condition :=
  if isTested v then .error .badOperand else .ok (relates column (.order op) v)

/-- The match of a column with a pattern, or its negation. -/
def pattern (column : Column) (p : Value) (anyCase negated : Bool) : Result Condition :=
  if isTested p then .error .badOperand else .ok (like column p anyCase negated)

end Condition

namespace Mapping

open Condition

mutual

/-- The condition that a predicate becomes. -/
def condition (m : Mapping) : Predicate → Result Condition
  | .always => .ok (constant true)
  | .equal f v => do return equality (← m.column f) false v
  | .differ f v => do return equality (← m.column f) true v
  | .order f op v => do ordering (← m.column f) op v
  | .like f p anyCase => do pattern (← m.column f) p anyCase false
  | .unlike f p => do pattern (← m.column f) p false true
  | .among f vs => do return among (← m.column f) vs false
  | .outside f vs => do return among (← m.column f) vs true
  | .all parts => do return gather true (← conditions m parts)
  | .any parts => do return gather false (← conditions m parts)
  | .foreign v => do .error (.uncompilable (← v.quotation))

/-- The conditions that predicates become, in order. -/
def conditions (m : Mapping) : List Predicate → Result (List Condition)
  | [] => .ok []
  | p :: rest => do return (← condition m p) :: (← conditions m rest)

end

/-- The columns that a sort becomes. -/
def sortColumns (m : Mapping) : List SortKey → Result (List (Column × Direction))
  | [] => .ok []
  | k :: rest => do return (← m.column k.field, k.direction) :: (← m.sortColumns rest)

end Mapping

end Listing
