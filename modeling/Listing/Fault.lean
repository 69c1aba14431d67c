import Listing.Report.Basic

/-!
# Faults

Everything that can stop an operation of the library, by its cause. A fault is either a report made
for a client or an operator of the service, or one of the plain causes listed here; `Fault.message`
has the words of those causes that speak.
-/

set_option autoImplicit false

namespace Listing

open Text

/-- The way in which a store is out of service. -/
inductive OutageKind where
  | connection
  | timeout
  | runtime
  deriving DecidableEq, Repr

/-- A store out of service. -/
structure Outage where
  kind : OutageKind
  message : String
  deriving DecidableEq, Repr

/-- The cause that stopped an operation. -/
inductive Fault where
  /-- An error reported to the caller. -/
  | reported (r : Report)
  /-- A text names no member of a fixed set of names. -/
  | notAMember (given : Value) (set : String)
  /-- An operator compares nothing by order. -/
  | notAnOrdering (operator : String)
  /-- A sort has no keys. -/
  | emptySort
  /-- A cursor secret is empty. -/
  | emptySecret
  /-- A cursor secret holds a number that is no octet. -/
  | octetRange
  /-- A row lacks a field of the sort. -/
  | keyAbsent (field : String)
  /-- A row has no value in a field of the sort. -/
  | keyNull (field : String)
  /-- A position has another number of values than the sort has keys. -/
  | positionMismatch
  /-- A value of this type cannot be carried by a cursor. -/
  | unsupportedKey (typeName : String)
  /-- An integer has more digits than a written integer may have. -/
  | longInteger
  /-- A keyset has another number of values than the sort has keys. -/
  | keyCount (expected given : Nat)
  /-- A field is stored in no column. -/
  | unmapped (field : String)
  /-- A thing that is no predicate cannot be compiled. -/
  | uncompilable (shown : String)
  /-- A row has no such field. -/
  | missingField (name : String)
  /-- The store is out of service. -/
  | outage (o : Outage)
  /-- A thing that is no predicate cannot be evaluated. -/
  | notAPredicate (typeName : String)
  /-- A value does not fit the kind asked for, for the given reason. -/
  | unfit (reason : String)
  /-- A value has a type that the operation does not take. -/
  | illTyped
  /-- A thing that is no predicate lacks a predicate's operations. -/
  | noSuchOperation
  /-- A number without a value is asked for its order. -/
  | invalidOperation
  /-- A number does not fit a floating-point format. -/
  | overflow
  /-- A decimal result is out of range. -/
  | decimalOverflow
  /-- A text is nested too deeply to be read. -/
  | tooDeep
  /-- A comparison cannot be expressed in the query language. -/
  | badOperand
  /-- A value cannot be converted to the type of its column. -/
  | unconvertible
  /-- A value cannot be bound to a statement. -/
  | unbindable
  /-- A pattern is too long for a table to compare it with anything. -/
  | complexPattern
  /-- The key of a stored row is missing, of another type than the keys of the table, or taken. -/
  | badKey

/-- The text of a computation that may stop by a fault. -/
abbrev Result (α : Type) : Type := Except Fault α

namespace Fault

/-- The words of a fault, if it has any of its own. -/
def message : Fault → Option String
  | notAMember given set => some (given.quoted ++ " is not a valid " ++ set)
  | notAnOrdering operator => some (Text.quoted operator ++ " is not an ordering operator")
  | emptySort => some "SortSpec requires at least one directive"
  | emptySecret => some "A cursor secret is required"
  | octetRange => some "bytes must be in range(0, 256)"
  | keyAbsent field => some ("Row has no sort field '" ++ field ++ "'")
  | keyNull field => some ("Sort field '" ++ field ++ "' is None; cursors need non-null keys")
  | positionMismatch => some "Cursor position does not match the sort"
  | unsupportedKey typeName => some ("Unsupported cursor value type: " ++ typeName)
  | longInteger =>
    some ("Exceeds the limit (" ++ integerText digitLimit ++
      " digits) for integer string conversion; use sys.set_int_max_str_digits() to increase the limit")
  | keyCount expected given =>
    some ("Expected " ++ integerText expected ++ " key values, got " ++ integerText given)
  | unmapped field => some ("Field '" ++ field ++ "' has no mapped column")
  | uncompilable shown => some ("Criteria " ++ shown ++ " is not supported")
  | missingField name => some (Text.quoted name)
  | outage o => some o.message
  | unfit reason => some reason
  | notAPredicate typeName => some ("Unsupported criteria node: " ++ typeName)
  | _ => none

end Fault

/-- Stops with a reported error. -/
def reject {α : Type} (r : Report) : Result α :=
  .error (.reported r)

end Listing
