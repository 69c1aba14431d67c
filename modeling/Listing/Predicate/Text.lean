import Listing.Predicate.Basic
import Listing.Value.Written

/-!
# The text of a predicate

Leaves are written as the field, a sign or word, and the value as shown to a reader; groups as their
parts in parentheses, joined by `AND` or `OR`. In a list of values a missing one is written `null`.

A predicate is written only if all its values can be: `Predicate.written` is the text or the fault,
and whatever puts a predicate into the log goes through it.
-/

set_option autoImplicit false

namespace Listing

open Text

namespace Predicate

/-- The text of a value within a list of values. -/
def itemText (v : Value) : String :=
  if v.isNull then "null" else v.display

/-- The text of a list of values. -/
def itemsText (vs : List Value) : String :=
  "[" ++ joinWith ", " (vs.map itemText) ++ "]"

mutual

/-- The text of a predicate. -/
def text : Predicate → String
  | always => "()"
  | equal f v => f ++ " = " ++ v.display
  | differ f v => f ++ " != " ++ v.display
  | order f op v => f ++ " " ++ op.sign ++ " " ++ v.display
  | like f v anyCase => f ++ (if anyCase then " ILIKE " else " LIKE ") ++ v.display
  | unlike f v => f ++ " NOT LIKE " ++ v.display
  | among f vs => f ++ " IN " ++ itemsText vs
  | outside f vs => f ++ " NOT IN " ++ itemsText vs
  | all parts => "(" ++ joinWith " AND " (texts parts) ++ ")"
  | any parts => "(" ++ joinWith " OR " (texts parts) ++ ")"
  | foreign v => v.display

/-- The texts of predicates in order. -/
def texts : List Predicate → List String
  | [] => []
  | p :: rest => p.text :: texts rest

end

mutual

/-- The text of a predicate can be written. -/
def isWritable : Predicate → Bool
  | always => true
  | equal _ v | differ _ v | order _ _ v | like _ v _ | unlike _ v => v.isShowable
  | among _ vs | outside _ vs => vs.all Value.isShowable
  | all parts => areWritable parts
  | any parts => areWritable parts
  | foreign v => v.isShowable

/-- The texts of predicates can be written. -/
def areWritable : List Predicate → Bool
  | [] => true
  | p :: rest => p.isWritable && areWritable rest

end

/-- The text of a predicate, if it can be written. -/
def written (p : Predicate) : Result String :=
  if p.isWritable then .ok p.text else .error .longInteger

end Predicate

end Listing
