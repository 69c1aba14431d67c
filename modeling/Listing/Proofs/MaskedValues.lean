import Mathlib.Data.Bool.AllAny
import Listing.Log.Redaction
import Listing.Json.OfValue
import Listing.Proofs.WritableTexts
import Listing.Proofs.WrittenDecimals

/-!
# Redacted values as structured text

A redacted value is written with the mask under every sensitive name, at any depth, as long as no
key that is not a text is written as a sensitive name (`Redaction.spares_iff`). The default names
are spared by such keys: numbers, truth values and null are written without a letter that each of
them has (`Redaction.spares_default`).
-/

set_option autoImplicit false

namespace Listing

namespace Json

theorem ofValues_cons_eq_ok {v : Value} {vs : List Value} {items : List Json} :
    ofValues (v :: vs) = .ok items ↔
      ∃ j rest, ofValue v = .ok j ∧ ofValues vs = .ok rest ∧ items = j :: rest := by
  rw [ofValues]
  cases ofValue v <;> cases ofValues vs <;> simp [bind, Except.bind, pure, Except.pure, eq_comm]

theorem ofEntries_cons_eq_ok {k v : Value} {es : List (Value × Value)}
    {fields : List (String × Json)} : ofEntries ((k, v) :: es) = .ok fields ↔
      ∃ name j rest, keyName k = .ok name ∧ ofValue v = .ok j ∧ ofEntries es = .ok rest ∧
        fields = (name, j) :: rest := by
  rw [ofEntries]
  cases keyName k <;> cases ofValue v <;> cases ofEntries es <;>
    simp [bind, Except.bind, pure, Except.pure, eq_comm]

/-! ## Masked values -/

mutual

/-- Every sensitive name has the mask for its value, at any depth. -/
def Masked (r : Redaction) : Json → Prop
  | .list items => MaskedItems r items
  | .record fields => MaskedFields r fields
  | _ => True

/-- Every sensitive name in some values has the mask for its value. -/
def MaskedItems (r : Redaction) : List Json → Prop
  | [] => True
  | v :: rest => Masked r v ∧ MaskedItems r rest

/-- Every sensitive name in some fields has the mask for its value. -/
def MaskedFields (r : Redaction) : List (String × Json) → Prop
  | [] => True
  | (name, v) :: rest =>
    (r.isSensitive name = true → v = .text Redaction.mask) ∧ Masked r v ∧ MaskedFields r rest

end

theorem maskedFields_iff {r : Redaction} {fields : List (String × Json)} :
    MaskedFields r fields ↔ ∀ name v, (name, v) ∈ fields →
      (r.isSensitive name = true → v = .text Redaction.mask) ∧ Masked r v := by
  induction fields with
  | nil => simp [MaskedFields]
  | cons f fields ih =>
      obtain ⟨name, v⟩ := f
      rw [MaskedFields, ih]
      constructor
      · rintro ⟨hmask, hv, hrest⟩ name' v' hmem
        rcases List.mem_cons.1 hmem with heq | hmem
        · obtain ⟨rfl, rfl⟩ := Prod.mk.inj heq
          exact ⟨hmask, hv⟩
        · exact hrest name' v' hmem
      · intro h
        obtain ⟨hmask, hv⟩ := h name v List.mem_cons_self
        exact ⟨hmask, hv, fun name' v' hmem => h name' v' (List.mem_cons_of_mem _ hmem)⟩

end Json

namespace Redaction

open Text

variable {r : Redaction}

/-- No key that is not a text is written as a sensitive name. -/
def Spares (r : Redaction) : Prop :=
  ∀ k name, k.text? = none → Json.keyName k = .ok name → r.isSensitive name = false

theorem isSensitiveKey_of_text? {k : Value} (h : k.text? = none) : r.isSensitiveKey k = false := by
  cases k with
  | text s => exact absurd h (by simp [Value.text?])
  | _ => rfl

-- The redaction goes through lists, tuples and maps, and so does the writing.
mutual

theorem Spares.masked_redact (h : r.Spares) : ∀ (v : Value) (j : Json),
    Json.ofValue (r.redact v) = .ok j → j.Masked r := by
  intro v j hj
  cases v with
  | list vs =>
      obtain ⟨items, hitems, rfl⟩ := Result.map_eq_ok.1 hj
      exact h.maskedItems_redactAll vs items hitems
  | tuple vs =>
      obtain ⟨items, hitems, rfl⟩ := Result.map_eq_ok.1 hj
      exact h.maskedItems_redactAll vs items hitems
  | map es =>
      obtain ⟨fields, hfields, rfl⟩ := Result.map_eq_ok.1 hj
      exact h.maskedFields_redactEntries es fields hfields
  | int i =>
      obtain ⟨-, -, rfl⟩ := Result.map_eq_ok.1 hj
      trivial
  | null | bool _ | float _ | text _ =>
      obtain rfl := Except.ok.inj hj
      trivial
  | _ =>
      simp only [redact, Json.ofValue] at hj
      obtain ⟨text, -, rfl⟩ := Result.map_eq_ok.1 hj
      trivial

theorem Spares.maskedItems_redactAll (h : r.Spares) : ∀ (vs : List Value) (items : List Json),
    Json.ofValues (r.redactAll vs) = .ok items → Json.MaskedItems r items := by
  intro vs items hitems
  cases vs with
  | nil =>
      obtain rfl := Except.ok.inj hitems
      trivial
  | cons v vs =>
      obtain ⟨j, rest, hj, hrest, rfl⟩ := Json.ofValues_cons_eq_ok.1 hitems
      exact ⟨h.masked_redact v j hj, h.maskedItems_redactAll vs rest hrest⟩

theorem Spares.maskedFields_redactEntries (h : r.Spares) : ∀ (es : List (Value × Value))
    (fields : List (String × Json)), Json.ofEntries (r.redactEntries es) = .ok fields →
      Json.MaskedFields r fields := by
  intro es fields hfields
  cases es with
  | nil =>
      obtain rfl := Except.ok.inj hfields
      trivial
  | cons e es =>
      obtain ⟨k, v⟩ := e
      obtain ⟨name, j, rest, hname, hj, hrest, rfl⟩ := Json.ofEntries_cons_eq_ok.1 hfields
      have htail := h.maskedFields_redactEntries es rest hrest
      by_cases hkey : r.isSensitiveKey k = true
      · rw [if_pos hkey] at hj
        obtain rfl := Except.ok.inj hj
        exact ⟨fun _ => rfl, trivial, htail⟩
      · rw [if_neg hkey] at hj
        have hplain : r.isSensitive name = false := by
          cases k with
          | text s =>
              obtain rfl := Except.ok.inj hname
              exact Bool.not_eq_true _ ▸ hkey
          | _ => exact h _ name rfl hname
        exact ⟨fun hname => absurd hname (by simp [hplain]), h.masked_redact v j hj, htail⟩

end

/-- **Redacted values are written masked if and only if no key that is not a text is written as a
sensitive name.** -/
theorem spares_iff :
    r.Spares ↔ ∀ v j, Json.ofValue (r.redact v) = .ok j → j.Masked r := by
  refine ⟨fun h => h.masked_redact, fun h k name hk hname => ?_⟩
  have hwritten : Json.ofValue (r.redact (.map [(k, .null)])) = .ok (.record [(name, .null)]) := by
    rw [redact, redactEntries, isSensitiveKey_of_text? hk, if_neg Bool.false_ne_true, Json.ofValue,
      Json.ofEntries_cons_eq_ok.2 ⟨name, .null, [], hname, rfl, rfl, rfl⟩]
    rfl
  -- what stands under the key is not redacted
  rw [Bool.eq_false_iff]
  intro hsensitive
  exact absurd ((h _ _ hwritten).1 hsensitive) Json.noConfusion

/-! ## Default names -/

/-- The character is a letter that numbers, truth values and null are written with, or a mark or a
digit; in lower case it is none of those that sensitive names have. -/
def IsPlainMark (c : Char) : Prop :=
  c.toNat < 128 ∧ lowerChar c ≠ 'c' ∧ lowerChar c ≠ 'o' ∧ lowerChar c ≠ '_'

instance (c : Char) : Decidable (IsPlainMark c) :=
  inferInstanceAs (Decidable (_ ∧ _))

theorem isPlainMark_of_isPlainDigit {c : Char} (h : isPlainDigit c = true) : IsPlainMark c := by
  obtain ⟨hlow, hhigh⟩ := bounds_of_isPlainDigit h
  have hlower : lowerChar c = c := by
    rw [lowerChar, if_pos (by omega), if_neg (by omega)]
  refine ⟨by omega, ?_⟩
  rw [hlower]
  refine ⟨?_, ?_, ?_⟩
  all_goals
    rintro rfl
    exact absurd h (by decide)

theorem isPlainMark_digits (n : Nat) : ∀ c ∈ digits n, IsPlainMark c := fun c hc =>
  isPlainMark_of_isPlainDigit (isPlainDigit_of_mem_digits n c hc)

theorem isPlainMark_integerChars (i : Int) : ∀ c ∈ integerChars i, IsPlainMark c := by
  intro c hc
  rw [integerChars] at hc
  split at hc
  · rcases List.mem_cons.1 hc with rfl | hc
    · decide
    · exact isPlainMark_digits _ c hc
  · exact isPlainMark_digits _ c hc

theorem isPlainMark_pointed (n : Nat) (place : Int) :
    ∀ c ∈ Decimal.pointed (digits n) place, IsPlainMark c := by
  intro c hc
  rcases Decimal.mem_pointed hc with hc | rfl | rfl
  · exact isPlainMark_digits n c hc
  · decide
  · decide

theorem isPlainMark_magnitudeChars (m : Nat) (e : Int) :
    ∀ c ∈ Binary64.magnitudeChars m e, IsPlainMark c := by
  intro c hc
  simp only [Binary64.magnitudeChars] at hc
  split at hc
  · exact List.all_iff_forall_prop.1 (by decide) c hc
  split at hc
  · split at hc
    · rcases List.mem_append.1 hc with hc | hc
      · exact isPlainMark_pointed _ _ c hc
      · exact List.all_iff_forall_prop.1 (by decide) c hc
    · exact isPlainMark_pointed _ _ c hc
  · rcases List.mem_append.1 hc with hc | hc
    · exact isPlainMark_pointed _ _ c hc
    rcases List.mem_cons.1 hc with rfl | hc
    · decide
    rcases List.mem_cons.1 hc with rfl | hc
    · split <;> decide
    split at hc
    · rcases List.mem_cons.1 hc with rfl | hc
      · decide
      · exact isPlainMark_digits _ c hc
    · exact isPlainMark_digits _ c hc

theorem isPlainMark_writeFloat (x : Binary64) :
    ∀ c ∈ (Json.writeFloat x).toList, IsPlainMark c := by
  cases x with
  | nan => exact List.all_iff_forall_prop.1 (by decide)
  | infinite negative => exact List.all_iff_forall_prop.1 (by cases negative <;> decide)
  | finite negative m e =>
      intro c hc
      rw [Json.writeFloat, Binary64.text, String.toList_ofList, Binary64.chars] at hc
      · rcases List.mem_append.1 hc with hc | hc
        · cases negative
          · exact absurd hc List.not_mem_nil
          · exact List.all_iff_forall_prop.1 (by decide) c hc
        · exact isPlainMark_magnitudeChars m e c hc
      all_goals exact nofun

/-- A key that is not a text is written in plain marks. -/
theorem isPlainMark_keyName {k : Value} {name : String} (hk : k.text? = none)
    (hname : Json.keyName k = .ok name) : ∀ c ∈ name.toList, IsPlainMark c := by
  cases k with
  | text s => exact absurd hk (by simp [Value.text?])
  | null =>
      obtain rfl := Except.ok.inj hname
      exact List.all_iff_forall_prop.1 (by decide)
  | bool b =>
      obtain rfl := Except.ok.inj hname
      exact List.all_iff_forall_prop.1 (by cases b <;> decide)
  | int i =>
      obtain ⟨-, rfl⟩ := Value.quotation_eq_ok_iff.1 hname
      rw [Value.quoted, integerText, String.toList_ofList]
      exact isPlainMark_integerChars i
  | float x =>
      obtain rfl := Except.ok.inj hname
      exact isPlainMark_writeFloat x
  | _ => exact absurd hname (by simp [Json.keyName])

/-- Characters of the plain row are changed one by one. -/
theorem lowerAfter_of_plain {cs : List Char} (h : ∀ c ∈ cs, c.toNat < 128) (before : List Char) :
    lowerAfter before cs = cs.map lowerChar := by
  induction cs generalizing before with
  | nil => rfl
  | cons c cs ih =>
      have hc : c.toNat < 128 := h c (by simp)
      rw [lowerAfter, if_neg (by omega), if_neg (by omega), ih fun d hd => h d (by simp [hd])]
      rfl

/-- **The default names are spared by keys that are not texts.** -/
theorem spares_default : (make none none).Spares := by
  -- each default name and ending has a letter or a mark that such keys are written without
  have hmarked : (defaultNames.map lower ++ defaultEndings.map lower).all (fun s =>
      s.toList.any fun c => decide (c = 'c' ∨ c = 'o' ∨ c = '_')) = true := by
    decide +kernel
  intro k name hk hname
  have hplain := isPlainMark_keyName hk hname
  have hlower : (lower name).toList = name.toList.map lowerChar := by
    rw [lower, String.toList_ofList, lowerAfter_of_plain fun c hc => (hplain c hc).1]
  have hapart : ∀ s ∈ defaultNames.map lower ++ defaultEndings.map lower,
      ¬s.toList ⊆ (lower name).toList := by
    intro s hs hsub
    obtain ⟨c, hc, hmark⟩ := List.any_eq_true.1 (List.all_eq_true.1 hmarked s hs)
    have hc := hsub hc
    rw [hlower] at hc
    obtain ⟨d, hd, rfl⟩ := List.mem_map.1 hc
    obtain ⟨-, hne, hne', hne''⟩ := hplain d hd
    rcases of_decide_eq_true hmark with h | h | h
    · exact hne h
    · exact hne' h
    · exact hne'' h
  rw [Bool.eq_false_iff]
  intro hsensitive
  rcases Bool.or_eq_true_iff.1 hsensitive with h | h
  · exact hapart (lower name) (List.mem_append_left _ (List.contains_iff_mem.1 h)) fun _ hc => hc
  · obtain ⟨e, he, hsuffix⟩ := List.any_eq_true.1 h
    exact hapart e (List.mem_append_right _ he) (List.isSuffixOf_iff_suffix.1 hsuffix).subset

end Redaction

end Listing
