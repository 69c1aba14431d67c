import Listing.Predicate.Text
import Listing.SortOrder.Basic

/-!
# Traced computations

A traced computation leaves notes as it goes: log events, and the calls made to a store. The notes
stay when the computation stops by a fault. `Window` is what a store is asked for.

An event is noted with its fields as they are. Whether a log renders it, and how, is for its
configuration to say and stops no computation.
-/

set_option autoImplicit false

namespace Listing

/-- A range of the rows that satisfy a predicate, under an order. -/
structure Window where
  predicate : Predicate
  order : SortOrder
  limit : Int
  offset : Int

/-- How serious a log event is. -/
inductive Level where
  | debug
  | warning
  deriving DecidableEq, Repr

/-- A log event. -/
structure Event where
  level : Level
  name : String
  fields : List (String × Value)

/-- A call made to a store. -/
inductive StoreCall where
  | fetch (w : Window)
  | count (p : Predicate)

/-- What a traced computation leaves behind. -/
inductive Note where
  | event (e : Event)
  | call (c : StoreCall)

/-- A computation that leaves notes and may stop by a fault. -/
structure Traced (α : Type) where
  notes : List Note
  result : Result α

namespace Traced

variable {α β : Type}

/-- The computation that leaves no notes. -/
def ofResult (r : Result α) : Traced α :=
  ⟨[], r⟩

/-- One computation after another. -/
def andThen (x : Traced α) (f : α → Traced β) : Traced β :=
  match x.result with
  | .ok a => ⟨x.notes ++ (f a).notes, (f a).result⟩
  | .error e => ⟨x.notes, .error e⟩

instance : Monad Traced where
  pure a := ofResult (.ok a)
  bind := andThen

instance : MonadLift (Except Fault) Traced where
  monadLift := ofResult

/-- Leaves a note. -/
def note (n : Note) : Traced Unit :=
  ⟨[n], .ok ()⟩

/-- Leaves a log event. -/
def log (level : Level) (name : String) (fields : List (String × Value)) : Traced Unit :=
  note (.event ⟨level, name, fields⟩)

/-- The log events of a computation. -/
def events (x : Traced α) : List Event :=
  x.notes.filterMap fun
    | .event e => some e
    | .call _ => none

/-- The calls that a computation made to the store. -/
def calls (x : Traced α) : List StoreCall :=
  x.notes.filterMap fun
    | .event _ => none
    | .call c => some c

end Traced

end Listing
