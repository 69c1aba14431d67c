import Listing.Proofs.SealedCursor
import Listing.Proofs.WrittenDecimals
import Listing.Proofs.WrittenTimes
import Listing.Proofs.WrittenUuids

/-!
# Positions that are resumed

A position whose values are of the kinds of their fields, once sealed, is resumed with the same side
and the same values, types, scales and offsets included (`Sealer.resume_token`). The one
exception is an offset shorter than a second: the reader of dates takes it for none, so a position is
given back exactly as it was if and only if it has no such offset. The only cursor of a sealed
position that is rejected is one that is too long.
-/

set_option autoImplicit false

namespace Listing

/-! ## Values -/

namespace Value

/-- The value is one that a cursor gives back with its type: no floating-point number, no member of
an enumeration, no collection, and a date or decimal within the range of its type. -/
def IsCarried : Value → Prop
  | bool _ | int _ | text _ | uuid _ => True
  | decimal d => d.IsInRange
  | instant t => t.isValid = true
  | day d => d.isValid = true
  | _ => False

/-- The value with an offset shorter than a second taken for none. -/
def settled : Value → Value
  | instant t => instant t.settled
  | v => v

/-- An offset in the value is none or at least a second long. -/
def IsSettled (v : Value) : Prop :=
  ∀ t o, v = instant t → t.offset = some o → o = 0 ∨ 1000000 ≤ o.natAbs

theorem settled_eq_iff {v : Value} : v.settled = v ↔ v.IsSettled := by
  cases v with
  | instant t =>
      rw [settled, instant.injEq, Instant.settled_eq_iff]
      constructor
      · intro h u o hu
        obtain rfl := instant.inj hu
        exact h o
      · exact fun h o => h t o rfl
  | _ => exact ⟨fun _ t o h => absurd h (by simp), fun _ => rfl⟩

end Value

/-- The kind of a value is not a matter of its offset. -/
theorem Field.accepts_settled (f : Field) (v : Value) : f.accepts v.settled = f.accepts v := by
  cases v with
  | instant t =>
      obtain ⟨kind⟩ := f
      cases kind <;> rfl
  | _ => rfl

namespace Key

/-- **A value is read back from the form it is carried in**, which can be written if the value can. -/
theorem exists_form {v : Value} (h : v.IsCarried) : ∃ form, write v = .ok form ∧
    (isWritable form = true ↔ v.IsWritable) ∧
      (v.IsWritable → Json.Readable 1 form ∧ read form.reread = .ok v.settled) := by
  have htext : ∀ tag s, Json.Readable 1 (tagged tag (.text s)) := fun tag s =>
    readable_tagged (by rw [Json.Readable]; trivial)
  have hwritable : ∀ tag s, isWritable (tagged tag (.text s)) = true ↔ True := fun _ _ =>
    iff_true_intro rfl
  cases v with
  | bool b =>
      refine ⟨_, rfl, iff_true_intro rfl, fun _ => ⟨?_, rfl⟩⟩
      exact readable_tagged (by rw [Json.Readable]; trivial)
  | int i => exact ⟨_, rfl, decide_eq_true_iff, fun hw => ⟨(readsBack_int hw).readable, rfl⟩⟩
  | text s => exact ⟨_, rfl, hwritable "s" s, fun _ => ⟨htext "s" s, rfl⟩⟩
  | decimal d =>
      refine ⟨_, rfl, hwritable "n" _, fun _ => ⟨htext "n" _, ?_⟩⟩
      refine (congrArg read (reread_text "n" _)).trans ?_
      simp only [tagged, read, Decimal.read?_text h, Option.map_some, orUnreadable, Value.settled]
  | instant t =>
      refine ⟨_, rfl, hwritable "t" _, fun _ => ⟨htext "t" _, ?_⟩⟩
      refine (congrArg read (reread_text "t" _)).trans ?_
      simp only [tagged, read, Iso.readInstant?_isoText h, Option.map_some, orUnreadable,
        Value.settled]
  | day d =>
      refine ⟨_, rfl, hwritable "d" _, fun _ => ⟨htext "d" _, ?_⟩⟩
      refine (congrArg read (reread_text "d" _)).trans ?_
      simp only [tagged, read, Iso.readDate?_text h, Option.map_some, orUnreadable, Value.settled]
  | uuid u =>
      refine ⟨_, rfl, hwritable "u" _, fun _ => ⟨htext "u" _, ?_⟩⟩
      refine (congrArg read (reread_text "u" _)).trans ?_
      simp only [tagged, read, Uuid.read?_text, Option.map_some, orUnreadable, Value.settled]
  | null => exact absurd h id
  | float x => exact absurd h id
  | member v => exact absurd h id
  | list vs => exact absurd h id
  | tuple vs => exact absurd h id
  | map entries => exact absurd h id
  | object attributes => exact absurd h id

end Key

/-! ## Positions -/

namespace Position

/-- The position with every offset shorter than a second taken for none. -/
def settled (p : Position) : Position :=
  ⟨p.values.map Value.settled, p.side⟩

theorem settled_eq_iff {p : Position} : p.settled = p ↔ ∀ v ∈ p.values, v.IsSettled := by
  obtain ⟨values, side⟩ := p
  have hid : values.map id = values := List.map_id values
  calc settled ⟨values, side⟩ = ⟨values, side⟩ ↔ values.map Value.settled = values.map id := by
        rw [settled, Position.mk.injEq, and_iff_left rfl, hid]
    _ ↔ ∀ v ∈ values, v.settled = v := List.map_inj_left
    _ ↔ ∀ v ∈ values, v.IsSettled := forall₂_congr fun _ _ => Value.settled_eq_iff

end Position

namespace Sealer

/-- The values of a position match the keys of an order: each can be carried and is of the kind of
the field it stands for. -/
def Matches (s : Sealer) (order : SortOrder) (p : Position) : Prop :=
  List.Forall₂ (fun k v => v.IsCarried ∧ ∃ f, s.schema.get? k.field = some f ∧ f.accepts v = true)
    order.keys p.values

/-- **The keys of a position are read back from the forms they are carried in**, which can be written
if the keys can. -/
theorem exists_keyForms {s : Sealer} {keys : List SortKey} {values : List Value}
    (h : List.Forall₂ (fun (k : SortKey) v => v.IsCarried ∧
      ∃ f, s.schema.get? k.field = some f ∧ f.accepts v = true) keys values) :
    ∃ forms, Key.writeAll values = .ok forms ∧
      (forms.all Key.isWritable = true ↔ ∀ v ∈ values, v.IsWritable) ∧
      ((∀ v ∈ values, v.IsWritable) → forms.length = keys.length ∧ Json.ReadableItems 1 forms ∧
        s.readKeys keys (Json.rereadItems forms) = .ok (values.map Value.settled)) := by
  induction h with
  | nil => exact ⟨[], rfl, by simp, fun _ => ⟨rfl, by rw [Json.ReadableItems]; trivial, rfl⟩⟩
  | @cons k v keys values hkey _ ih =>
      obtain ⟨hcarried, f, hf, haccepts⟩ := hkey
      obtain ⟨form, hform, hwritable, hback⟩ := Key.exists_form hcarried
      obtain ⟨forms, hforms, hwritables, hbacks⟩ := ih
      refine ⟨form :: forms, ?_, ?_, ?_⟩
      · rw [Key.writeAll, hform, hforms]
        rfl
      · rw [List.all_cons, Bool.and_eq_true, hwritable, hwritables, List.forall_mem_cons]
      · intro hw
        rw [List.forall_mem_cons] at hw
        obtain ⟨hreadable, hread⟩ := hback hw.1
        obtain ⟨hlength, hreadables, hreads⟩ := hbacks hw.2
        -- the kind is checked again, on the value read back
        have hkey : s.readKey k.field form.reread = .ok v.settled := by
          rw [readKey, hread]
          simp only [hf, Field.accepts_settled, haccepts, if_true]
        refine ⟨by rw [List.length_cons, hlength, List.length_cons], ?_, ?_⟩
        · rw [Json.ReadableItems]
          exact ⟨hreadable, hreadables⟩
        · rw [Json.rereadItems, readKeys, hkey, hreads]
          rfl

/-- A position that matches an order is sealed if and only if its integers can be written. -/
theorem exists_sealPosition_iff {s : Sealer} {order : SortOrder} {p : Position}
    (h : s.Matches order p) :
    (∃ t, s.sealPosition order p = .ok t) ↔ ∀ v ∈ p.values, v.IsWritable := by
  have hsize : p.values.length = order.size := h.length_eq.symm
  obtain ⟨forms, hforms, hwritables, -⟩ := exists_keyForms h
  rw [sealPosition, if_pos hsize, hforms, Result.ok_bind, ← hwritables]
  by_cases hall : forms.all Key.isWritable = true
  · rw [if_pos hall]
    exact ⟨fun _ => hall, fun _ => ⟨_, rfl⟩⟩
  · rw [if_neg hall]
    constructor
    · rintro ⟨t, ht⟩
      exact absurd ht (by simp)
    · exact fun h => absurd h hall

/-- What becomes of a cursor that is too long: it is noted in the log and rejected. -/
def tooLong (s : Sealer) : Traced Position where
  notes := [.event ⟨.warning, "cursor_rejected", [("entity", s.schema.entity),
    ("reason", "too long")]⟩]
  result := reject (.cursor "too long")

theorem pure_inj {p q : Position} (h : (pure p : Traced Position) = pure q) : p = q :=
  Except.ok.inj (congrArg Traced.result h)

/-- What becomes of the cursor of a sealed position. -/
theorem resume_eq {s : Sealer} {order : SortOrder} {p : Position} {t : String} {limit : Int}
    (hlimit : s.maxLength = .int limit) (hvalues : s.Matches order p)
    (ht : s.sealPosition order p = .ok t) :
    s.resume order (.text t) = if limit < t.length then s.tooLong else pure p.settled := by
  have hsize : p.values.length = order.size := hvalues.length_eq.symm
  have hw := (exists_sealPosition_iff hvalues).1 ⟨t, ht⟩
  obtain ⟨forms, hforms, hwritables, hbacks⟩ := exists_keyForms hvalues
  obtain ⟨hlength, hreadable, hkeys⟩ := hbacks hw
  rw [sealPosition, if_pos hsize, hforms, Result.ok_bind, if_pos (hwritables.2 hw)] at ht
  obtain rfl := Except.ok.inj ht
  rw [resume, openValue,
    s.openText_token order p.side hreadable hlength hkeys (exceeds_eq hlimit _)]
  by_cases hlong : limit < (s.token (s.contents order p.side forms)).length
  · rw [decide_eq_true hlong, if_pos hlong]
    rfl
  · rw [decide_eq_false hlong, if_neg hlong]
    rfl

end Sealer

/-! ## Measurements -/

namespace Measured

/-- A field of a kind that may be sorted. -/
def field (kind : Kind) : Field :=
  ⟨kind, [], true, false, ["low", "high"], false⟩

/-- Measurements, with a field of every kind. -/
def schema : Schema where
  entity := "measurements"
  fields := [("at", field .date), ("day", field .date), ("price", field .number),
    ("count", field .number), ("checked", field .boolean), ("level", field .choice),
    ("note", field .text), ("id", field .uuid)]
  tieBreaker := "id"
  defaultSort := []

/-- A sealer of measurements that opens cursors of up to `limit` characters. -/
def sealer (limit : Int) : Sealer :=
  { key := [1], schema, maxLength := .int limit }

/-- The latest first, and the rest in ascending order. -/
def order : SortOrder :=
  ⟨⟨"at", .descending⟩ :: ["day", "price", "count", "checked", "level", "note", "id"].map
    fun name => ⟨name, .ascending⟩, List.cons_ne_nil _ _⟩

/-- A point in time with the given offset. -/
def instant (offset : Int) : Instant :=
  ⟨⟨2024, 1, 2⟩, 3, 4, 5, 600, some offset⟩

/-- Keys of every kind, at a point in time with the given offset. -/
def position (offset : Int) : Position where
  values := [.instant (instant offset), .day ⟨2024, 2, 29⟩, .decimal (.finite true 150 (-2)), .int (-7),
    .bool true, .text "high", .text "\u1F600 \n", .uuid ⟨0xABCDEF, by decide⟩]
  side := .before

theorem matches_position {offset : Int} (h : (instant offset).isValid = true) (limit : Int) :
    (sealer limit).Matches order (position offset) := by
  have hprice : (Decimal.finite true 150 (-2)).IsInRange := by
    have hdigits : Text.digits 150 = ['1', '5', '0'] := by simp [Text.digits]; decide
    rw [Decimal.IsInRange, Decimal.width, hdigits]
    decide
  have hday : Date.isValid ⟨2024, 2, 29⟩ = true := by decide
  exact .cons ⟨h, _, rfl, rfl⟩ (.cons ⟨hday, _, rfl, rfl⟩ (.cons ⟨hprice, _, rfl, rfl⟩
    (.cons ⟨trivial, _, rfl, rfl⟩ (.cons ⟨trivial, _, rfl, rfl⟩ (.cons ⟨trivial, _, rfl, rfl⟩
      (.cons ⟨trivial, _, rfl, rfl⟩ (.cons ⟨trivial, _, rfl, rfl⟩ .nil)))))))

/-- The bound does not count in sealing. -/
theorem exists_sealPosition {offset : Int} (h : (instant offset).isValid = true) :
    ∃ t, ∀ limit, (sealer limit).sealPosition order (position offset) = .ok t := by
  suffices hw : ∀ v ∈ (position offset).values, v.IsWritable by
    obtain ⟨t, ht⟩ := (Sealer.exists_sealPosition_iff (matches_position h 0)).2 hw
    exact ⟨t, fun _ => ht⟩
  have hcount : (Value.int (-7)).IsWritable := by
    rw [Value.IsWritable, Decimal.width, Text.digits]
    decide
  simp only [position, List.forall_mem_cons, hcount, true_and]
  simp [Value.IsWritable]

end Measured

namespace Sealer

/-- **A sealed position is resumed**, unless its cursor is too long, for which alone it is rejected.
It is resumed exactly as it was if and only if it has no offset shorter than a second but zero. -/
theorem resume_token {s : Sealer} {order : SortOrder} {p : Position} {t : String} {limit : Int}
    (hlimit : s.maxLength = .int limit) (hvalues : s.Matches order p)
    (ht : s.sealPosition order p = .ok t) :
    (limit < t.length → s.resume order (.text t) = s.tooLong) ∧
    (t.length ≤ limit → s.resume order (.text t) = pure p.settled ∧
      (s.resume order (.text t) = pure p ↔ ∀ v ∈ p.values, v.IsSettled)) := by
  have hresume := resume_eq hlimit hvalues ht
  constructor
  · intro hlong
    rw [hresume, if_pos hlong]
  · intro hfits
    rw [if_neg (Int.not_lt.2 hfits)] at hresume
    refine ⟨hresume, ?_⟩
    rw [hresume, ← Position.settled_eq_iff]
    exact ⟨pure_inj, congrArg pure⟩

/-- Keys of every kind are resumed, an offset of two hours and a microsecond included, and are
rejected by a sealer that admits one character less. -/
theorem resume_token_measured : ∃ t : String,
    (∀ limit, (Measured.sealer limit).Matches Measured.order (Measured.position 7200000001) ∧
      (Measured.sealer limit).sealPosition Measured.order (Measured.position 7200000001) = .ok t) ∧
    (Measured.sealer t.length).resume Measured.order (.text t) =
      pure (Measured.position 7200000001) ∧
    ((Measured.sealer (t.length - 1)).resume Measured.order (.text t)).result =
      reject (.cursor "too long") := by
  have hvalid : (Measured.instant 7200000001).isValid = true := by decide
  have hmatches := Measured.matches_position hvalid
  have hsettled := (Position.settled_eq_iff (p := Measured.position 7200000001)).1 rfl
  obtain ⟨t, ht⟩ := Measured.exists_sealPosition hvalid
  have hfits := (resume_token rfl (hmatches t.length) (ht t.length)).2 (Int.le_refl _)
  have hlong := (resume_token rfl (hmatches (t.length - 1)) (ht (t.length - 1))).1 (by omega)
  exact ⟨t, fun limit => ⟨hmatches limit, ht limit⟩, hfits.2.2 hsettled, by rw [hlong]; rfl⟩

/-- An offset of one microsecond is not resumed, by a sealer that admits the cursor. -/
theorem resume_token_fails : ∃ t : String,
    (Measured.sealer t.length).Matches Measured.order (Measured.position 1) ∧
    (Measured.sealer t.length).sealPosition Measured.order (Measured.position 1) = .ok t ∧
    (Measured.sealer t.length).resume Measured.order (.text t) ≠ pure (Measured.position 1) := by
  have hvalid : (Measured.instant 1).isValid = true := by decide
  have hmatches := Measured.matches_position hvalid
  obtain ⟨t, ht⟩ := Measured.exists_sealPosition hvalid
  refine ⟨t, hmatches t.length, ht t.length, ?_⟩
  rw [resume_eq rfl (hmatches t.length) (ht t.length), if_neg (Int.lt_irrefl _)]
  intro h
  -- the key that comes back has no offset
  have hkeys := congrArg Position.values (pure_inj h)
  have hinstant := Value.instant.inj (List.cons.inj hkeys).1
  exact absurd hinstant (by decide)

end Sealer

end Listing
