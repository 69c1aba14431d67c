import Listing.Predicate.Basic

/-!
# Normal form and composition

The normal form of a predicate has no neutral part inside a group, no group directly inside a group
of its own kind, and no group of fewer than two parts. `conjoin` and `disjoin` compose predicates
into normal form; with no parts left they give the neutral predicate.
-/

set_option autoImplicit false

namespace Listing

namespace Predicate

/-- The parts that a normal predicate brings into a conjunction. -/
def conjuncts : Predicate → List Predicate
  | always => []
  | all parts => parts
  | p => [p]

/-- The parts that a normal predicate brings into a disjunction. -/
def disjuncts : Predicate → List Predicate
  | always => []
  | any parts => parts
  | p => [p]

/-- The conjunction of parts, without a group around a single one. -/
def groupAll : List Predicate → Predicate
  | [] => always
  | [p] => p
  | parts => all parts

/-- The disjunction of parts, without a group around a single one. -/
def groupAny : List Predicate → Predicate
  | [] => always
  | [p] => p
  | parts => any parts

mutual

/-- The normal form of a predicate. -/
def normal : Predicate → Predicate
  | all parts => groupAll (normalConjuncts parts)
  | any parts => groupAny (normalDisjuncts parts)
  | p => p

/-- The parts that predicates in normal form bring into a conjunction. -/
def normalConjuncts : List Predicate → List Predicate
  | [] => []
  | p :: rest => p.normal.conjuncts ++ normalConjuncts rest

/-- The parts that predicates in normal form bring into a disjunction. -/
def normalDisjuncts : List Predicate → List Predicate
  | [] => []
  | p :: rest => p.normal.disjuncts ++ normalDisjuncts rest

end

/-- The conjunction of predicates in normal form. -/
def conjoin (parts : List Predicate) : Predicate :=
  groupAll (normalConjuncts parts)

/-- The disjunction of predicates in normal form. -/
def disjoin (parts : List Predicate) : Predicate :=
  groupAny (normalDisjuncts parts)

/-- The normal form of a predicate with nothing foreign in it. -/
def normalized (p : Predicate) : Result Predicate :=
  p.genuine.map normal

/-- The conjunction of predicates with nothing foreign in them. -/
def conjoined (parts : List Predicate) : Result Predicate :=
  if anyForeign parts then .error .noSuchOperation else .ok (conjoin parts)

/-- The disjunction of predicates with nothing foreign in them. -/
def disjoined (parts : List Predicate) : Result Predicate :=
  if anyForeign parts then .error .noSuchOperation else .ok (disjoin parts)

end Predicate

end Listing
