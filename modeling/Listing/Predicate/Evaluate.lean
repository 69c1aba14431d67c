import Listing.Predicate.Basic
import Listing.Value.Written
import Listing.Wildcard

/-!
# Evaluation of predicates

`Predicate.holds` tells whether a row satisfies a predicate. A field that the row lacks reads as
null. Null satisfies no ordering, no pattern and no negated comparison; it may equal null. A value is
compared with a pattern by its text, which must be written for that. Parts of a group are evaluated
from left to right, and only as far as needed.
-/

set_option autoImplicit false

namespace Listing

namespace Predicate

/-- A value that is not null is described by a pattern, which must be a text. -/
def describes (v pattern : Value) (anyCase : Bool) : Result Bool :=
  match v with
  | .null => .ok false
  | v => match pattern with
    | .text p => do return Wildcard.matchesAll anyCase p (← v.displayed)
    | _ => .error .illTyped

/-- Two values that are not null compare as told. -/
def comparesKnown (op : Comparison) (v w : Value) : Result Bool :=
  if v.isNull || w.isNull then .ok false else v.compares op w

/-- The value is not null and the condition fails. -/
def knownNot (v : Value) (condition : Result Bool) : Result Bool :=
  if v.isNull then .ok false else condition.map (!·)

mutual

/-- The row satisfies the predicate. -/
def holds : Predicate → Value → Result Bool
  | always, _ => .ok true
  | equal f v, row => (row.fieldOrNull f).equal v
  | differ f v, row => knownNot (row.fieldOrNull f) ((row.fieldOrNull f).equal v)
  | order f op v, row => comparesKnown op (row.fieldOrNull f) v
  | like f p anyCase, row => describes (row.fieldOrNull f) p anyCase
  | unlike f p, row => knownNot (row.fieldOrNull f) (describes (row.fieldOrNull f) p false)
  | among f vs, row => (row.fieldOrNull f).isAmong vs
  | outside f vs, row => knownNot (row.fieldOrNull f) ((row.fieldOrNull f).isAmong vs)
  | all parts, row => holdsAll parts row
  | any parts, row => holdsAny parts row
  | foreign v, _ => .error (.notAPredicate v.typeName)

/-- The row satisfies all predicates. -/
def holdsAll : List Predicate → Value → Result Bool
  | [], _ => .ok true
  | p :: rest, row => do if ← p.holds row then holdsAll rest row else return false

/-- The row satisfies one of the predicates. -/
def holdsAny : List Predicate → Value → Result Bool
  | [], _ => .ok false
  | p :: rest, row => do if ← p.holds row then return true else holdsAny rest row

end

/-- The values that satisfy a condition which may fail, in order; the first fault stops. -/
def select (condition : Value → Result Bool) : List Value → Result (List Value)
  | [] => .ok []
  | row :: rest => do
    let keep ← condition row
    let others ← select condition rest
    return if keep then row :: others else others

end Predicate

end Listing
