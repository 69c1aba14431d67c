import Mathlib.Data.List.Basic
import Mathlib.Data.List.Forall2
import Listing.Cursor.Sealer
import Listing.Proofs.CutTexts
import Listing.Proofs.JsonText
import Listing.Proofs.KeyOrder

/-!
# Cursors that are opened again

A sealed cursor passes every check of the sealer that made it: it is cut where it was joined, its
signature is the one computed, and its payload is read back with the version, entity, order and side
it was given (`Sealer.openText_token`). What is left to ask of key values is that each is read back
from its carried form and is of the kind of its field; integers and texts are.
-/

set_option autoImplicit false

namespace Listing

open Text

/-! ## Digests -/

theorem Sha256.length_octets (count n : Nat) : (Sha256.octets count n).length = count := by
  induction count generalizing n with
  | zero => rfl
  | succ count ih => rw [Sha256.octets, List.length_append, ih, List.length_singleton]

theorem Hmac.length_digest (key message : List UInt8) : (Hmac.digest key message).length = 32 := by
  rw [Hmac.digest, Sha256.digest]
  simp [Sha256.length_octets]

theorem Hmac.digest_ne_nil (key message : List UInt8) : Hmac.digest key message ≠ [] := by
  rw [← List.length_pos_iff, length_digest]
  decide

/-! ## Key values -/

namespace Key

/-- A value is read back from the form it is carried in, which can be written. -/
structure ReadsBack (v : Value) (form : Json) : Prop where
  written : write v = .ok form
  writable : isWritable form = true
  readable : Json.Readable 1 form
  read : read form.reread = .ok v

theorem readable_tagged {tag : String} {form : Json} (h : Json.Readable 0 form) :
    Json.Readable 1 (tagged tag form) := by
  rw [tagged, Json.Readable, Json.ReadableItems, Json.ReadableItems, Json.ReadableItems]
  exact ⟨by decide, by rw [Json.Readable]; trivial, h, trivial⟩

/-- A text in a form comes back as it is. -/
theorem reread_text (tag s : String) : (tagged tag (.text s)).reread = tagged tag (.text s) := rfl

/-- Integers that are not too long are read back. -/
theorem readsBack_int {i : Int} (h : Decimal.width i.natAbs ≤ digitLimit) :
    ReadsBack (.int i) (tagged "i" (.int i)) where
  written := rfl
  writable := decide_eq_true h
  readable := readable_tagged (by rw [Json.Readable]; exact h)
  read := rfl

/-- Texts are read back. -/
theorem readsBack_text (s : String) : ReadsBack (.text s) (tagged "s" (.text s)) where
  written := rfl
  writable := rfl
  readable := readable_tagged (by rw [Json.Readable]; trivial)
  read := rfl

theorem writeAll_eq {values : List Value} {forms : List Json}
    (h : List.Forall₂ ReadsBack values forms) : writeAll values = .ok forms := by
  induction h with
  | nil => rfl
  | cons hv _ ih =>
      rw [writeAll, hv.written, ih]
      rfl

theorem all_isWritable {values : List Value} {forms : List Json}
    (h : List.Forall₂ ReadsBack values forms) : forms.all isWritable = true := by
  induction h with
  | nil => rfl
  | cons hv _ ih => rw [List.all_cons, hv.writable, ih, Bool.and_self]

theorem readableItems {values : List Value} {forms : List Json}
    (h : List.Forall₂ ReadsBack values forms) : Json.ReadableItems 1 forms := by
  induction h with
  | nil =>
      rw [Json.ReadableItems]
      trivial
  | cons hv _ ih =>
      rw [Json.ReadableItems]
      exact ⟨hv.readable, ih⟩

/-- Whatever is written can be read as structured text. -/
theorem readable_of_write {v : Value} {form : Json} (h : write v = .ok form)
    (hw : isWritable form = true) : Json.Readable 1 form := by
  have hplain : ∀ {tag : String} {inner : Json}, (∀ room, Json.Readable room inner) →
      Json.Readable 1 (tagged tag inner) := fun hinner => readable_tagged (hinner 0)
  unfold write at h
  split at h
  case h_2 i _ =>
    -- the one form that may be too long
    obtain rfl := Except.ok.inj h
    refine readable_tagged ?_
    rw [Json.Readable]
    exact of_decide_eq_true hw
  case h_9 => exact absurd h (by simp)
  all_goals
    obtain rfl := Except.ok.inj h
    refine hplain fun room => ?_
    rw [Json.Readable]
    trivial

theorem length_writeAll {values : List Value} : ∀ {forms : List Json},
    writeAll values = .ok forms → forms.length = values.length := by
  induction values with
  | nil =>
      intro forms h
      obtain rfl := Except.ok.inj h
      rfl
  | cons v values ih =>
      intro forms h
      rw [writeAll] at h
      obtain ⟨form, -, h⟩ := Result.bind_eq_ok.1 h
      obtain ⟨rest, hrest, h⟩ := Result.bind_eq_ok.1 h
      obtain rfl := Except.ok.inj h
      rw [List.length_cons, ih hrest, List.length_cons]

theorem readableItems_of_writeAll {values : List Value} : ∀ {forms : List Json},
    writeAll values = .ok forms → forms.all isWritable = true → Json.ReadableItems 1 forms := by
  induction values with
  | nil =>
      intro forms h _
      obtain rfl := Except.ok.inj h
      rw [Json.ReadableItems]
      trivial
  | cons v values ih =>
      intro forms h hw
      rw [writeAll] at h
      obtain ⟨form, hform, h⟩ := Result.bind_eq_ok.1 h
      obtain ⟨rest, hrest, h⟩ := Result.bind_eq_ok.1 h
      obtain rfl := Except.ok.inj h
      rw [List.all_cons, Bool.and_eq_true] at hw
      rw [Json.ReadableItems]
      exact ⟨readable_of_write hform hw.1, ih hrest hw.2⟩

end Key

namespace Sealer

/-! ## Opening -/

/-- A sealer is made of the key of its secret, its schema and its bound. -/
theorem of_ofSecret {secret limit : Value} {schema : Schema} {s : Sealer}
    (h : ofSecret secret schema limit = .ok s) :
    keyOf secret = .ok s.key ∧ s.schema = schema ∧ s.maxLength = limit := by
  obtain ⟨key, hkey, h⟩ := Result.bind_eq_ok.1 h
  obtain rfl := Except.ok.inj h
  exact ⟨hkey, rfl, rfl⟩

theorem readable_contents (s : Sealer) (order : SortOrder) (side : Side) {forms : List Json}
    (h : Json.ReadableItems 1 forms) : Json.Readable 3 (s.contents order side forms) := by
  -- the version has one digit, and the payload leaves room for the forms
  have hversion : Decimal.width version.natAbs ≤ digitLimit := by
    rw [show version.natAbs = 1 from rfl, Decimal.width, digits]
    decide
  have hnames : ["v", "e", "s", "d", "k"].Nodup := by decide
  simp only [contents, Json.Readable, Json.ReadableFields]
  exact ⟨by decide, hnames, hversion, trivial, trivial, trivial, ⟨by decide, h⟩, trivial⟩

/-- What a position is sealed to: the token of contents that can be read as structured text. -/
theorem exists_contents {s : Sealer} {order : SortOrder} {p : Position} {t : String}
    (h : s.sealPosition order p = .ok t) : ∃ forms, Key.writeAll p.values = .ok forms ∧
      Json.ReadableItems 1 forms ∧ forms.all Key.isWritable = true ∧ forms.length = order.size ∧
        t = s.token (s.contents order p.side forms) := by
  unfold sealPosition at h
  split at h
  · next hsize =>
      obtain ⟨forms, hforms, h⟩ := Result.bind_eq_ok.1 h
      split at h
      · next hw =>
          obtain rfl := Except.ok.inj h
          exact ⟨forms, hforms, Key.readableItems_of_writeAll hforms hw, hw,
            (Key.length_writeAll hforms).trans hsize, rfl⟩
      · exact absurd h (by simp)
  · exact absurd h (by simp)

/-- The two parts of a token are found again. -/
theorem splitToken_append {payload signature : List Char} (hne : payload ≠ [])
    (hpayload : ∀ c ∈ payload, (Base64Url.index? c).isSome = true) (hne' : signature ≠ [])
    (hsignature : ∀ c ∈ signature, (Base64Url.index? c).isSome = true) :
    splitToken (payload ++ '.' :: signature) = .ok (payload, signature) := by
  have hpart : ∀ {part : List Char}, part ≠ [] →
      (∀ c ∈ part, (Base64Url.index? c).isSome = true) →
      (!part.isEmpty && part.all fun c => (Base64Url.index? c).isSome) = true := by
    intro part hpart hall
    rw [Bool.and_eq_true, Bool.not_eq_true', List.isEmpty_eq_false_iff]
    exact ⟨hpart, List.all_eq_true.2 hall⟩
  have hpoint : '.' ∉ payload := fun hmem => absurd (hpayload '.' hmem) (by decide)
  rw [splitToken, cutChars_append hpoint]
  simp only [hpart hne hpayload, hpart hne' hsignature, Bool.and_self, if_true]

/-- A signature is text of the safe alphabet. -/
theorem sign_letters (s : Sealer) (payload : List Char) :
    s.sign payload ≠ [] ∧ ∀ c ∈ s.sign payload, (Base64Url.index? c).isSome = true :=
  ⟨Base64Url.encode_ne_nil (Hmac.digest_ne_nil _ _), Base64Url.isSome_index?_of_mem_encode _⟩

/-- A token with the signature of the sealer is opened up to its payload. -/
theorem openText_signed {s : Sealer} {t : String} {payload : List Char}
    (ht : t.toList = payload ++ '.' :: s.sign payload) (hne : payload ≠ [])
    (hpayload : ∀ c ∈ payload, (Base64Url.index? c).isSome = true) (order : SortOrder) {long : Bool}
    (hlong : s.exceeds t = .ok long) : s.openText order t =
      if long then refuse .tooLong else s.readPayload payload >>= s.readContents order := by
  have hempty : t ≠ "" := by
    rintro rfl
    exact absurd ht.symm (List.append_ne_nil_of_right_ne_nil _ (List.cons_ne_nil _ _))
  obtain ⟨hsign, hsigned⟩ := s.sign_letters payload
  rw [openText, if_neg hempty, hlong, ht]
  cases long with
  | true => rfl
  | false =>
      simp only [bind, Except.bind, Bool.false_eq_true, if_false, if_true,
        splitToken_append hne hpayload hsign hsigned]

theorem readPayload_encode (s : Sealer) {body : Json} (h : Json.Readable 3 body) :
    s.readPayload (Base64Url.encode (encode (Json.write Json.compact body))) = .ok body.reread := by
  rw [readPayload, Base64Url.decode_encode]
  simp only [Json.readOctets_write h s.deep]

theorem readSide_name (side : Side) : readSide (some (.text side.name)) = .ok side := by
  cases side <;> rfl

/-- What is made of the contents of a payload, by whichever sealer: the entity and the order must be
its own, and then the keys are read. -/
theorem readContents_contents (a b : Sealer) (o₁ o₂ : SortOrder) (side : Side) (forms : List Json) :
    b.readContents o₂ (a.contents o₁ side forms).reread =
      if a.schema.entity ≠ b.schema.entity then refuse .entityMismatch
      else if o₁.signature ≠ o₂.signature then refuse .sortMismatch
      else if forms.length = o₂.size then
        (b.readKeys o₂.keys (Json.rereadItems forms)).map fun values => ⟨values, side⟩
      else refuse .countMismatch := by
  have hversion : isVersion (some (.int version)) = true := rfl
  have htext : ∀ s t : String, isText t (some (.text s)) = (s == t) := fun _ _ => rfl
  simp only [contents, Json.reread, Json.rereadFields, readContents, Json.fieldNamed?,
    String.reduceEq, if_true, if_false, hversion, htext, Bool.not_true, Bool.false_eq_true,
    readSide_name, Json.length_rereadItems, Bool.not_eq_true', beq_eq_false_iff_ne]
  split
  · rfl
  split
  · rfl
  · show (if _ then _ else _) = _
    split
    · cases b.readKeys o₂.keys (Json.rereadItems forms) <;> rfl
    · rfl

/-- Written text is not empty. -/
theorem encode_write_ne_nil (body : Json) : encode (Json.write Json.compact body) ≠ [] := by
  obtain ⟨c, rest, hchars, -⟩ := Json.opens_chars body
  have hplain := Json.isPlain_chars body c (by simp [hchars])
  rw [encode, show (Json.write Json.compact body).toList = c :: rest from hchars, List.flatMap_cons,
    encodeChar_of_isPlain hplain]
  exact List.cons_ne_nil _ _

/-- A token has four characters for three octets of its payload, and the signature. -/
theorem length_token (s : Sealer) (body : Json) :
    (s.token body).length = (4 * (Json.chars body).length + 2) / 3 + 44 := by
  have hplain : (encode (Json.write Json.compact body)).length = (Json.chars body).length :=
    length_flatMap_encodeChar (Json.isPlain_chars body)
  rw [token, String.length_ofList, List.length_append, List.length_cons, sign,
    Base64Url.length_encode, Base64Url.length_encode, Hmac.length_digest, hplain]

/-- The characters of a payload: the names and marks of its form, and what it holds. -/
theorem length_chars_contents (s : Sealer) (order : SortOrder) (side : Side) (forms : List Json) :
    (Json.chars (s.contents order side forms)).length =
      (Json.quotedChars s.schema.entity).length + (Json.quotedChars order.signature).length +
        (Json.quotedChars side.name).length + (Json.itemsChars forms).length + 29 := by
  have hname : ∀ name ∈ ["v", "e", "s", "d", "k"], (Json.quotedChars name).length = 3 := by decide
  have hversion : (integerChars version).length = 1 := by
    rw [integerChars, if_neg (by decide), show version.natAbs = 1 from rfl, digits]
    rfl
  simp only [contents, Json.chars_record, Json.fieldsChars_cons_cons, Json.fieldsChars_singleton,
    Json.chars_int, Json.chars_text, Json.chars_list, List.length_cons, List.length_append,
    List.length_nil, hversion]
  rw [hname "v" (by decide), hname "e" (by decide), hname "s" (by decide), hname "d" (by decide),
    hname "k" (by decide)]
  omega

/-- **A cursor is opened up to its contents** by whoever has the key that it was sealed with, unless
it is longer than admitted. -/
theorem openText_sealed {a b : Sealer} (hkey : a.key = b.key) (order : SortOrder) {body : Json}
    (h : Json.Readable 3 body) {long : Bool} (hlong : b.exceeds (a.token body) = .ok long) :
    b.openText order (a.token body) =
      if long then refuse .tooLong else b.readContents order body.reread := by
  have ht : (a.token body).toList =
      Base64Url.encode (encode (Json.write Json.compact body)) ++
        '.' :: b.sign (Base64Url.encode (encode (Json.write Json.compact body))) := by
    rw [token, String.toList_ofList, sign, sign, hkey]
  rw [openText_signed ht (Base64Url.encode_ne_nil (encode_write_ne_nil body))
    (Base64Url.isSome_index?_of_mem_encode _) order hlong, b.readPayload_encode h]
  rfl

/-- **A sealed cursor is opened again**, unless it is longer than the sealer admits. -/
theorem openText_token (s : Sealer) (order : SortOrder) (side : Side) {values : List Value}
    {forms : List Json} (h : Json.ReadableItems 1 forms) (hlength : forms.length = order.size)
    (hkeys : s.readKeys order.keys (Json.rereadItems forms) = .ok values) {long : Bool}
    (hlong : s.exceeds (s.token (s.contents order side forms)) = .ok long) :
    s.openText order (s.token (s.contents order side forms)) =
      if long then refuse .tooLong else .ok ⟨values, side⟩ := by
  rw [openText_sealed rfl order (s.readable_contents order side h) hlong, readContents_contents,
    if_neg (not_not_intro rfl), if_neg (not_not_intro rfl), if_pos hlength, hkeys]
  rfl

/-- A text is too long for a sealer when it has more characters than the sealer's bound. -/
theorem exceeds_eq {s : Sealer} {limit : Int} (h : s.maxLength = .int limit) (t : String) :
    s.exceeds t = .ok (decide (limit < t.length)) := by
  rw [exceeds, h, (Value.Alike.int (t.length : Int) limit).compares_gt]
  rfl

/-- A cursor that is opened at all fits. -/
theorem exceeds_of_openText {s : Sealer} {order : SortOrder} {t : String} {here : Position}
    (h : s.openText order t = .ok here) : s.exceeds t = .ok false := by
  cases hlong : s.exceeds t with
  | error e =>
      rw [Sealer.openText, hlong] at h
      split at h
      · exact absurd h (by simp [refuse])
      · exact absurd h (by simp [bind, Except.bind])
  | ok long =>
      cases long with
      | false => rfl
      | true =>
          rw [Sealer.openText, hlong] at h
          split at h
          · exact absurd h (by simp [refuse])
          · exact absurd h (by simp [refuse, bind, Except.bind])

/-- What comes of a cursor: a flaw is reported, and a fault is not. -/
theorem result_resume (s : Sealer) (order : SortOrder) (t : String) :
    (s.resume order (.text t)).result =
      match s.openText order t with
      | .ok p => .ok p
      | .error (.flaw f) => reject (.cursor f.reason)
      | .error (.fault e) => .error e := by
  rw [resume, openValue]
  cases s.openText order t with
  | ok p => rfl
  | error e => cases e <;> rfl

/-! ## Rows -/

/-- The key values of a row are its fields, key by key. -/
theorem keyValues_cons {row : Value} {k : SortKey} {keys : List SortKey} {values : List Value}
    (h : keyValues row (k :: keys) = .ok values) : ∃ v rest, row.fieldOrNull k.field = v ∧
      keyValues row keys = .ok rest ∧ values = v :: rest := by
  rw [keyValues] at h
  split at h
  · exact absurd h (by simp)
  · exact absurd h (by simp)
  · next v _ hv =>
      obtain ⟨rest, hrest, h⟩ := Result.bind_eq_ok.1 h
      exact ⟨v, rest, by rw [Value.fieldOrNull, hv]; rfl, hrest, (Except.ok.inj h).symm⟩

theorem keyValues_eq {s : Sealer} {row : Value} : ∀ {keys : List SortKey},
    s.schema.HoldsKeys keys row → keyValues row keys = .ok (valuesIn keys row) := by
  intro keys
  induction keys with
  | nil =>
      intro _
      rfl
  | cons k keys ih =>
      intro h
      obtain ⟨hfield, hkey⟩ := h.fieldOrNull (k := k) (by simp)
      -- a key value is an integer or a text, and neither is null
      have hscalar := hkey.scalar
      rw [keyValues, hfield, ih fun k' hk' => h k' (List.mem_cons_of_mem k hk'), valuesIn_cons]
      generalize row.fieldOrNull k.field = v at hscalar
      cases hscalar <;> rfl

end Sealer

/-- The value is no integer that is too long to be written. -/
def Value.IsWritable : Value → Prop
  | .int i => Decimal.width i.natAbs ≤ digitLimit
  | _ => True

/-- Integers and texts that can be written are read back. -/
theorem Value.Alike.readsBack {v : Value} (h : v.Alike v) (hw : v.IsWritable) :
    ∃ form, Key.ReadsBack v form := by
  cases h with
  | int i _ => exact ⟨_, Key.readsBack_int hw⟩
  | text t _ => exact ⟨_, Key.readsBack_text t⟩

/-- Forms that can all be written carry values that can. -/
theorem Key.isWritable_of_writeAll {values : List Value} : ∀ {forms : List Json},
    (∀ v ∈ values, v.Alike v) → writeAll values = .ok forms → forms.all isWritable = true →
    ∀ v ∈ values, v.IsWritable := by
  induction values with
  | nil =>
      intro forms _ _ _ v hv
      exact absurd hv List.not_mem_nil
  | cons w values ih =>
      intro forms hscalar hforms hall v hv
      -- the limit is on the form of an integer, which is the integer itself
      obtain ⟨form, hform, hback⟩ : ∃ form, write w = .ok form ∧
          (isWritable form = true → w.IsWritable) := by
        cases hscalar w (by simp) with
        | int i _ => exact ⟨_, rfl, of_decide_eq_true⟩
        | text t _ => exact ⟨_, rfl, fun _ => trivial⟩
      rw [writeAll, hform, Result.ok_bind] at hforms
      obtain ⟨rest, hrest, hforms⟩ := Result.bind_eq_ok.1 hforms
      obtain rfl := Except.ok.inj hforms
      rw [List.all_cons, Bool.and_eq_true] at hall
      rcases List.mem_cons.1 hv with rfl | hv
      · exact hback hall.1
      · exact ih (fun u hu => hscalar u (by simp [hu])) hrest hall.2 v hv

namespace Sealer

/-- The carried forms of key values that can be written are read back as the values. -/
theorem exists_forms {s : Sealer} {row : Value} : ∀ {keys : List SortKey},
    s.schema.HoldsKeys keys row → (∀ v ∈ valuesIn keys row, v.IsWritable) →
    ∃ forms, List.Forall₂ Key.ReadsBack (valuesIn keys row) forms ∧
      s.readKeys keys (Json.rereadItems forms) = .ok (valuesIn keys row) := by
  intro keys
  induction keys with
  | nil =>
      intro _ _
      exact ⟨[], .nil, rfl⟩
  | cons k keys ih =>
      intro h hw
      obtain ⟨-, hkey⟩ := h.fieldOrNull (k := k) (by simp)
      obtain ⟨f, hf, haccepts⟩ := hkey.accepted
      obtain ⟨form, hform⟩ := hkey.scalar.readsBack (hw _ (by simp [valuesIn_cons]))
      obtain ⟨forms, hforms, hread⟩ := ih (fun k' hk' => h k' (List.mem_cons_of_mem k hk'))
        (fun v hv => hw v (by simp [valuesIn_cons, hv]))
      refine ⟨form :: forms, .cons hform hforms, ?_⟩
      -- the value read back is of the kind of its field, as it was in the row
      have hreadKey : s.readKey k.field form.reread = .ok (row.fieldOrNull k.field) := by
        rw [readKey, hform.read]
        simp only [hf, haccepts, if_true]
      rw [Json.rereadItems, readKeys, hreadKey, hread]
      rfl

/-- What a row of keys is sealed to: the token of its key values. -/
theorem sealRow_eq {s : Sealer} {order : SortOrder} {row : Value} (side : Side)
    (h : s.schema.HoldsKeys order.keys row) :
    s.sealRow order row side = s.sealPosition order ⟨order.valuesOf row, side⟩ := by
  rw [sealRow, keyValues_eq h]
  rfl

/-- A row that was sealed has key values that can be written. -/
theorem isWritable_of_sealRow {s : Sealer} {order : SortOrder} {row : Value} {side : Side}
    {t : String} (h : s.schema.HoldsKeys order.keys row) (ht : s.sealRow order row side = .ok t) :
    ∀ v ∈ order.valuesOf row, v.IsWritable := by
  have hscalar : ∀ v ∈ order.valuesOf row, v.Alike v := by
    intro v hv
    obtain ⟨k, hk, rfl⟩ := List.mem_map.1 hv
    exact (h.fieldOrNull hk).2.scalar
  rw [sealRow_eq side h, sealPosition, if_pos (order.length_valuesOf row)] at ht
  obtain ⟨forms, hforms, ht⟩ := Result.bind_eq_ok.1 ht
  by_cases hall : forms.all Key.isWritable = true
  · exact Key.isWritable_of_writeAll hscalar hforms hall
  · rw [if_neg hall] at ht
    exact absurd ht (by simp)

/-- **A row is sealed** when its key values can be written, and the cursor is opened again as its
key values, unless it is longer than the sealer admits. -/
theorem sealRow_spec {s : Sealer} {order : SortOrder} {row : Value} (side : Side)
    (h : s.schema.HoldsKeys order.keys row) (hw : ∀ v ∈ order.valuesOf row, v.IsWritable) :
    ∃ t, s.sealRow order row side = .ok t ∧ ∀ long, s.exceeds t = .ok long →
      s.openText order t = if long then refuse .tooLong else .ok ⟨order.valuesOf row, side⟩ := by
  obtain ⟨forms, hforms, hread⟩ := exists_forms h hw
  refine ⟨s.token (s.contents order side forms), ?_, ?_⟩
  · rw [sealRow_eq side h, sealPosition, if_pos (order.length_valuesOf row)]
    simp only [bind, Except.bind, SortOrder.valuesOf, Key.writeAll_eq hforms,
      Key.all_isWritable hforms, if_true]
    rfl
  · intro long hlong
    have hlength : forms.length = order.size := hforms.length_eq ▸ order.length_valuesOf row
    exact s.openText_token order side (Key.readableItems hforms) hlength hread hlong

end Sealer

end Listing
