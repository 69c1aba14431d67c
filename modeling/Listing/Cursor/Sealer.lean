import Listing.Base64Url
import Listing.Cursor.Key
import Listing.Cursor.Position
import Listing.Digest.Hmac
import Listing.Json.Reader
import Listing.Json.Writer
import Listing.Schema.Basic
import Listing.Trace

/-!
# Sealed cursors

A cursor is a payload and a signature, both in safe text, with a point between them. The payload has
the format version, the entity, the signature of the sort order, the side, and the key values; the
signature is the keyed digest of the payload text. A cursor is accepted only for the entity and the
order it was made for, and any change to it breaks the signature.
-/

set_option autoImplicit false

namespace Listing

open Text

/-- What seals and opens the cursors of one entity. -/
structure Sealer where
  key : List UInt8
  schema : Schema
  maxLength : Value
  /-- How deep the contents of a payload may be nested. -/
  depth : Nat := Json.depthLimit
  /-- The contents that a sealer writes are not too deep for it. -/
  deep : 3 ≤ depth := by exact Json.three_le_depthLimit

/-- What is wrong with a cursor. -/
inductive CursorFlaw where
  | empty
  | tooLong
  | malformed
  | badSignature
  | malformedPayload
  | unsupportedVersion
  | entityMismatch
  | sortMismatch
  | unknownSide
  | countMismatch
  | badValue (field : String)
  | typeMismatch (field : String)
  deriving DecidableEq, Repr

namespace CursorFlaw

/-- The flaw in words. -/
def reason : CursorFlaw → String
  | empty => "empty"
  | tooLong => "too long"
  | malformed => "malformed"
  | badSignature => "bad signature"
  | malformedPayload => "malformed payload"
  | unsupportedVersion => "unsupported version"
  | entityMismatch => "entity mismatch"
  | sortMismatch => "sort mismatch"
  | unknownSide => "unknown direction"
  | countMismatch => "value count mismatch"
  | badValue field => "bad value for '" ++ field ++ "'"
  | typeMismatch field => "type mismatch for '" ++ field ++ "'"

end CursorFlaw

/-- Why a cursor is not opened: a flaw in it, or a fault while looking. -/
inductive CursorFault where
  | flaw (f : CursorFlaw)
  | fault (f : Fault)

namespace Sealer

/-- The version of the payload format. -/
def version : Int := 1

/-- The longest cursor that is opened where no other length is given. -/
def lengthLimit : Int := 2048

/-- The octet that a number stands for. -/
def octetOf (v : Value) : Result UInt8 :=
  match v.number? with
  | some (.int i) => if 0 ≤ i ∧ i < 256 then .ok i.toNat.toUInt8 else .error .octetRange
  | _ => .error .illTyped

/-- The octets that numbers stand for. -/
def octetsOf : List Value → Result (List UInt8)
  | [] => .ok []
  | v :: rest => do return (← octetOf v) :: (← octetsOf rest)

/-- The key of a secret: the octets of a text, or those that a collection of numbers stands for. -/
def keyOf (secret : Value) : Result (List UInt8) :=
  if !secret.isTruthy then .error .emptySecret
  else match secret with
    | .text s => .ok (encode s)
    | v => do octetsOf (← v.elements)

/-- The sealer with a secret. -/
def ofSecret (secret : Value) (schema : Schema) (maxLength : Value) : Result Sealer := do
  return { key := ← keyOf secret, schema, maxLength }

/-! ## Sealing -/

/-- The signature of a payload text. -/
def sign (s : Sealer) (payload : List Char) : List Char :=
  Base64Url.encode (Hmac.digest s.key (payload.flatMap encodeChar))

/-- The contents of a payload. -/
def contents (s : Sealer) (order : SortOrder) (side : Side) (keys : List Json) : Json :=
  .record [("v", .int version), ("e", .text s.schema.entity), ("s", .text order.signature),
    ("d", .text side.name), ("k", .list keys)]

/-- The cursor with the given contents. -/
def token (s : Sealer) (body : Json) : String :=
  let payload := Base64Url.encode (encode (Json.write Json.compact body))
  String.ofList (payload ++ '.' :: s.sign payload)

/-- The cursor of a position under an order. -/
def sealPosition (s : Sealer) (order : SortOrder) (p : Position) : Result String :=
  if p.values.length = order.size then do
    let keys ← Key.writeAll p.values
    if keys.all Key.isWritable then return s.token (s.contents order p.side keys)
    else .error .longInteger
  else .error .positionMismatch

/-- The sort values of a row, none of which may be missing or null. -/
def keyValues (row : Value) : List SortKey → Result (List Value)
  | [] => .ok []
  | k :: rest =>
    match row.field? k.field with
    | none => .error (.keyAbsent k.field)
    | some .null => .error (.keyNull k.field)
    | some v => do return v :: (← keyValues row rest)

/-- The cursor of a side of a row under an order. -/
def sealRow (s : Sealer) (order : SortOrder) (row : Value) (side : Side) : Result String := do
  s.sealPosition order ⟨← keyValues row order.keys, side⟩

/-! ## Opening -/

/-- Refuses a cursor. -/
def refuse {α : Type} (f : CursorFlaw) : Except CursorFault α :=
  .error (.flaw f)

/-- The payload and the signature of a cursor text. -/
def splitToken (cs : List Char) : Except CursorFault (List Char × List Char) :=
  let isPart (part : List Char) : Bool :=
    !part.isEmpty && part.all fun c => (Base64Url.index? c).isSome
  match cutChars '.' cs with
  | some (payload, signature) =>
    if isPart payload && isPart signature then .ok (payload, signature) else refuse .malformed
  | none => refuse .malformed

/-- The contents of a payload text. -/
def readPayload (s : Sealer) (payload : List Char) : Except CursorFault Json :=
  match Base64Url.decode payload with
  | none => refuse .malformedPayload
  | some octets =>
    match Json.readOctets s.depth octets with
    | .ok body => .ok body
    | .error .malformed => refuse .malformedPayload
    | .error .tooDeep => .error (.fault .tooDeep)

/-- The value equals the version; a truth value counts as a number. -/
def isVersion : Option Json → Bool
  | some (.int i) => i == version
  | some (.bool b) => b
  | some (.float x) => (Number.float x).compare? (.int version) == some .eq
  | _ => false

/-- The value is the given text. -/
def isText (s : String) : Option Json → Bool
  | some (.text t) => t == s
  | _ => false

/-- The side that a value names. -/
def readSide : Option Json → Except CursorFault Side
  | some (.text s) =>
    match Side.ofName? s with
    | some side => .ok side
    | none => refuse .unknownSide
  | _ => refuse .unknownSide

/-- The value of one key, which must be of the kind of its field. -/
def readKey (s : Sealer) (field : String) (item : Json) : Except CursorFault Value :=
  match Key.read item with
  | .error .unreadable => refuse (.badValue field)
  | .error .overflow => .error (.fault .overflow)
  | .ok v =>
    match s.schema.get? field with
    | some f => if f.accepts v then .ok v else refuse (.typeMismatch field)
    | none => refuse (.typeMismatch field)

/-- The values of the keys in order. -/
def readKeys (s : Sealer) : List SortKey → List Json → Except CursorFault (List Value)
  | k :: keys, item :: items => do
    return (← s.readKey k.field item) :: (← s.readKeys keys items)
  | _, _ => .ok []

/-- The position in the contents of a payload. -/
def readContents (s : Sealer) (order : SortOrder) (body : Json) : Except CursorFault Position :=
  match body with
  | .record fields =>
    let get (name : String) : Option Json := Json.fieldNamed? name fields
    if !isVersion (get "v") then refuse .unsupportedVersion
    else if !isText s.schema.entity (get "e") then refuse .entityMismatch
    else if !isText order.signature (get "s") then refuse .sortMismatch
    else do
      let side ← readSide (get "d")
      match get "k" with
      | some (.list items) =>
        if items.length = order.size then return ⟨← s.readKeys order.keys items, side⟩
        else refuse .countMismatch
      | _ => refuse .countMismatch
  | _ => refuse .unsupportedVersion

/-- The text is longer than the sealer admits. -/
def exceeds (s : Sealer) (t : String) : Except CursorFault Bool :=
  match (Value.int t.length).compares .gt s.maxLength with
  | .ok b => .ok b
  | .error e => .error (.fault e)

/-- The position of a cursor text. -/
def openText (s : Sealer) (order : SortOrder) (t : String) : Except CursorFault Position := do
  if t = "" then refuse .empty
  else if ← s.exceeds t then refuse .tooLong
  else
    let (payload, signature) ← splitToken t.toList
    if signature = s.sign payload then s.readContents order (← s.readPayload payload)
    else refuse .badSignature

/-- The position of a cursor, which must be a text. -/
def openValue (s : Sealer) (order : SortOrder) (cursor : Value) : Except CursorFault Position :=
  match cursor with
  | .text t => s.openText order t
  | _ => refuse .empty

/-- The position of a cursor; a flaw is noted in the log and reported. -/
def resume (s : Sealer) (order : SortOrder) (cursor : Value) : Traced Position :=
  match s.openValue order cursor with
  | .ok p => pure p
  | .error (.fault e) => Traced.ofResult (.error e)
  | .error (.flaw f) => do
    Traced.log .warning "cursor_rejected"
      [("entity", s.schema.entity), ("reason", f.reason)]
    Traced.ofResult (reject (.cursor f.reason))

end Sealer

end Listing
