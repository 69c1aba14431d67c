import Listing.Text.LetterCase
import Listing.Value.Basic

/-!
# Redaction

A key is sensitive when its lower-case text is listed or ends with one of the listed endings. What
stands under a sensitive key is replaced, at any depth of maps, lists and tuples. This is the library's
own processor of events; the others, and the order of all, are those of a log line.
-/

set_option autoImplicit false

namespace Listing

open Text

/-- The keys that are sensitive, in lower case. -/
structure Redaction where
  names : List String
  endings : List String

namespace Redaction

/-- What stands in the place of a sensitive value. -/
def mask : String := "[REDACTED]"

/-- The names that are sensitive where no others are given. -/
def defaultNames : List String :=
  ["cursor_secret", "secret", "password", "token", "authorization"]

/-- The endings that are sensitive where no others are given. -/
def defaultEndings : List String :=
  ["_secret", "_token", "_password"]

/-- The redaction of given names and endings; with no names the default ones count. -/
def make (names : Option (List String)) (endings : Option (List String)) : Redaction :=
  let names := names.getD []
  ⟨(if names.isEmpty then defaultNames else names).map lower,
    (endings.getD defaultEndings).map lower⟩

/-- The key is sensitive. -/
def isSensitive (r : Redaction) (key : String) : Bool :=
  let k := lower key
  r.names.contains k || r.endings.any fun e => e.toList.isSuffixOf k.toList

/-- The key of an entry is sensitive; only texts are. -/
def isSensitiveKey (r : Redaction) : Value → Bool
  | .text key => r.isSensitive key
  | _ => false

mutual

/-- The value without what stands under sensitive keys. -/
def redact (r : Redaction) : Value → Value
  | .list vs => .list (redactAll r vs)
  | .tuple vs => .tuple (redactAll r vs)
  | .map es => .map (redactEntries r es)
  | v => v

/-- The values without what stands under sensitive keys. -/
def redactAll (r : Redaction) : List Value → List Value
  | [] => []
  | v :: rest => redact r v :: redactAll r rest

/-- The entries without what stands under sensitive keys. -/
def redactEntries (r : Redaction) : List (Value × Value) → List (Value × Value)
  | [] => []
  | (k, v) :: rest =>
    (k, if r.isSensitiveKey k then .text mask else redact r v) :: redactEntries r rest

end

end Redaction

end Listing
