import Listing.Operator
import Listing.Value.Compare

/-!
# Predicates

A predicate is a condition on the named fields of a row: a comparison of one field, or a group of
predicates that all or any must hold. `always` is the neutral predicate of composition. A group may
also hold a thing that is no predicate; such a leaf is kept as it is and refused by whatever would
have to ask it something.
-/

set_option autoImplicit false

namespace Listing

/-- A condition on the fields of a row. -/
inductive Predicate where
  | always
  | equal (field : String) (value : Value)
  | differ (field : String) (value : Value)
  | order (field : String) (op : Comparison) (value : Value)
  | like (field : String) (pattern : Value) (anyCase : Bool)
  | unlike (field : String) (pattern : Value)
  | among (field : String) (values : List Value)
  | outside (field : String) (values : List Value)
  | all (parts : List Predicate)
  | any (parts : List Predicate)
  | foreign (thing : Value)

instance : Inhabited Predicate := ⟨.always⟩

namespace Predicate

/-- The predicate is the neutral one. -/
def isAlways : Predicate → Bool
  | always => true
  | _ => false

/-- The field that a leaf compares. -/
def leafField? : Predicate → Option String
  | equal f _ | differ f _ | order f _ _ | like f _ _ | unlike f _ | among f _ | outside f _ =>
    some f
  | _ => none

mutual

/-- The predicate holds a thing that is none. -/
def hasForeign : Predicate → Bool
  | all parts => anyForeign parts
  | any parts => anyForeign parts
  | foreign _ => true
  | _ => false

/-- One of the predicates holds a thing that is none. -/
def anyForeign : List Predicate → Bool
  | [] => false
  | p :: rest => p.hasForeign || anyForeign rest

end

mutual

/-- The predicate and every predicate inside it, depth first. -/
def nodes : Predicate → List Predicate
  | all parts => all parts :: nodesOf parts
  | any parts => any parts :: nodesOf parts
  | p => [p]

/-- The nodes of predicates in order. -/
def nodesOf : List Predicate → List Predicate
  | [] => []
  | p :: rest => p.nodes ++ nodesOf rest

end

/-- The fields of the leaves in order. -/
def fields (p : Predicate) : List String :=
  p.nodes.filterMap leafField?

/-- The predicate itself, if nothing in it is foreign. -/
def genuine (p : Predicate) : Result Predicate :=
  if p.hasForeign then .error .noSuchOperation else .ok p

mutual

/-- The two predicates are of one shape with equal values. -/
def equals : Predicate → Predicate → Result Bool
  | always, q => .ok q.isAlways
  | equal f v, q => match q with
    | equal g w => if f = g then v.equal w else .ok false
    | _ => .ok false
  | differ f v, q => match q with
    | differ g w => if f = g then v.equal w else .ok false
    | _ => .ok false
  | order f op v, q => match q with
    | order g op' w => if f = g ∧ op = op' then v.equal w else .ok false
    | _ => .ok false
  | like f v c, q => match q with
    | like g w c' => do
      if f = g then
        if ← v.equal w then return c == c' else return false
      else return false
    | _ => .ok false
  | unlike f v, q => match q with
    | unlike g w => if f = g then v.equal w else .ok false
    | _ => .ok false
  | among f vs, q => match q with
    | among g ws => if f = g then Value.equalAll vs ws else .ok false
    | _ => .ok false
  | outside f vs, q => match q with
    | outside g ws => if f = g then Value.equalAll vs ws else .ok false
    | _ => .ok false
  | all ps, q => match q with
    | all qs => equalsAll ps qs
    | _ => .ok false
  | any ps, q => match q with
    | any qs => equalsAll ps qs
    | _ => .ok false
  | foreign v, q => match q with
    | foreign w => v.equal w
    | _ => .ok false

/-- The two lists have equal predicates in equal number. -/
def equalsAll : List Predicate → List Predicate → Result Bool
  | [], qs => .ok qs.isEmpty
  | p :: ps, qs => match qs with
    | [] => .ok false
    | q :: qs => do if ← p.equals q then equalsAll ps qs else return false

end

end Predicate

end Listing
