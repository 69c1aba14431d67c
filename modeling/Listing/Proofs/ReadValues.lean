import Listing.Proofs.WrittenIntegers
import Listing.Schema.Kind
import Listing.Value.Text

/-!
# Values that are read from texts

What a kind reads from a text has the form of the kind (`Kind.reads_of_coerce`). Such a value is plain
data and never too long to be written (`Kind.Reads.isShowable`).
-/

set_option autoImplicit false

namespace Listing

/-- The value has the form in which the kind reads values from texts: a number is an integer with no
more digits than may be written or a finite decimal, a date is a point in time, and a choice is a
text. -/
def Kind.Reads : Kind → Value → Prop
  | .number, .int i => Decimal.width i.natAbs ≤ digitLimit
  | .number, .decimal d => d.isFinite = true
  | .text, .text _ | .choice, .text _ => True
  | .date, .instant _ => True
  | .boolean, .bool _ => True
  | .uuid, .uuid _ => True
  | _, _ => False

namespace Kind

theorem reads_of_readNumber {cs : List Char} {v : Value} (h : readNumber cs = .ok v) :
    number.Reads v := by
  unfold readNumber at h
  split at h
  · next i hi =>
      obtain rfl := Except.ok.inj h
      exact width_le_of_readInteger hi
  · exact absurd h (by simp)
  · split at h
    · exact absurd h (by simp)
    · next d _ =>
        split at h
        · next hfinite =>
            obtain rfl := Except.ok.inj h
            exact hfinite
        · exact absurd h (by simp)

theorem reads_of_readDate {cs : List Char} {v : Value} (h : readDate cs = .ok v) : date.Reads v := by
  unfold readDate at h
  split at h
  · obtain rfl := Except.ok.inj h
    trivial
  · exact absurd h (by simp)

theorem reads_of_readBoolean {s : String} {v : Value} (h : readBoolean s = .ok v) :
    boolean.Reads v := by
  simp only [readBoolean] at h
  split at h
  · obtain rfl := Except.ok.inj h
    trivial
  · split at h
    · obtain rfl := Except.ok.inj h
      trivial
    · exact absurd h (by simp)

theorem reads_of_read {k : Kind} {choices : List String} {s : String} {v : Value}
    (h : k.read choices s = .ok v) : k.Reads v := by
  cases k <;> simp only [read] at h
  case text =>
      obtain rfl := Except.ok.inj h
      trivial
  case number => exact reads_of_readNumber h
  case date => exact reads_of_readDate h
  case choice => exact absurd h (by simp)
  case boolean => exact reads_of_readBoolean h
  case uuid =>
      split at h
      · obtain rfl := Except.ok.inj h
        trivial
      · exact absurd h (by simp)

theorem coerce_text (k : Kind) (choices : List String) (s : String) :
    k.coerce choices (.text s) =
      if k.accepts choices (.text s) then .ok (.text s) else k.read choices s :=
  rfl

/-- **What a kind reads from a text has the form of the kind.** -/
theorem reads_of_coerce {k : Kind} {choices : List String} {s : String} {v : Value}
    (h : k.coerce choices (.text s) = .ok v) : k.Reads v := by
  rw [coerce_text] at h
  split at h
  · next haccepts =>
      obtain rfl := Except.ok.inj h
      -- only texts and choices are texts already
      cases k with
      | text | choice => trivial
      | number | date | boolean | uuid => exact absurd haccepts Bool.false_ne_true
  · exact reads_of_read h

/-- **What has the form of a kind can be written.** -/
theorem Reads.isShowable {k : Kind} {v : Value} (h : k.Reads v) : v.isShowable = true := by
  cases v with
  | int i =>
      cases k with
      | number => exact decide_eq_true h
      | _ => exact absurd h not_false
  | list | tuple | map | object => cases k <;> exact absurd h not_false
  | _ => rfl

end Kind

end Listing
