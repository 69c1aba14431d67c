import Mathlib.Data.Bool.AllAny
import Mathlib.Data.List.Basic
import Listing.Proofs.WrittenIntegers

/-!
# Decimals that are read back

The text of a decimal reads as the decimal, coefficient and exponent included, and so do the texts
of the infinities and of every not-a-number with its payload (`Decimal.readChars_chars`). A finite
decimal must lie within the exponent range of the reader. Only the text of a decimal without a scale
could be that of an integer (`Decimal.readInteger_chars`).
-/

set_option autoImplicit false

namespace Listing

open Text

/-- Digits are taken up to the first character that is none. -/
theorem takeDigits_append {ds rest : List Char} (hds : ∀ c ∈ ds, isPlainDigit c = true)
    (hrest : ∀ c ∈ rest.head?, digit? c = none) :
    takeDigits (ds ++ rest) = (ds.map plainValue, rest) := by
  induction ds with
  | nil =>
      cases rest with
      | nil => rfl
      | cons c rest =>
          rw [List.nil_append, takeDigits, hrest c rfl]
          rfl
  | cons d ds ih =>
      rw [List.cons_append, takeDigits, digit?_of_isPlainDigit (hds d (by simp)),
        ih fun c hc => hds c (by simp [hc])]
      rfl

namespace Decimal

/-- The decimal is one that is read, if its text is: a finite one has its first and its last digit
within the exponent range. -/
def IsInRange : Decimal → Prop
  | finite _ coefficient exponent =>
    exponent + width coefficient - 1 ≤ topExponent ∧ bottomExponent ≤ exponent
  | _ => True

/-! ## Magnitudes -/

/-- What may follow the digits of a magnitude: nothing, or a power of ten. -/
structure Ends (tail : List Char) (power : Int) : Prop where
  head : ∀ c ∈ tail.head?, digit? c = none ∧ c ≠ '.'
  read : readPower tail = some power

theorem ends_nil : Ends [] 0 where
  head := by
    intro c hc
    exact absurd hc (by simp)
  read := rfl

theorem ends_powerChars (e : Int) : Ends ('E' :: powerChars e) e where
  head := by
    intro c hc
    obtain rfl : 'E' = c := by simpa using hc
    exact ⟨by decide, by decide⟩
  read := by
    have hplain := isPlainDigit_of_mem_digits e.natAbs
    have hsign : takeSign (powerChars e) = (decide (e < 0), digits e.natAbs) := by
      rw [powerChars]
      by_cases h : e < 0
      · rw [if_pos h, decide_eq_true h]; rfl
      · rw [if_neg h, decide_eq_false h]; rfl
    simp only [readPower, beq_self_eq_true, Bool.or_true, if_true, hsign,
      takeDigits_of_isPlainDigit hplain]
    cases hd : (digits e.natAbs).map plainValue with
    | nil => exact absurd (List.map_eq_nil_iff.1 hd) (digits_ne_nil e.natAbs)
    | cons d ds =>
        simp only
        rw [← hd, ofDigits_map_plainValue_digits]
        simp only [decide_eq_true_eq, Option.some.injEq]
        split <;> omega

variable {whole fraction tail : List Char} {power : Int}

theorem readMagnitude_whole (hwhole : ∀ c ∈ whole, isPlainDigit c = true) (hne : whole ≠ [])
    (htail : Ends tail power) :
    readMagnitude (whole ++ tail) = some (ofDigits 10 (whole.map plainValue), power) := by
  have hdigits := takeDigits_append hwhole fun c hc => (htail.head c hc).1
  have hnone : (whole.map plainValue).isEmpty = false := by
    rw [List.isEmpty_map, List.isEmpty_eq_false_iff]
    exact hne
  rw [readMagnitude, hdigits]
  -- what follows is no fraction
  have hpoint : ∀ more : List Char, tail ≠ '.' :: more := by
    rintro more rfl
    exact (htail.head '.' rfl).2 rfl
  simp only [hnone, Bool.false_and, Bool.false_eq_true, if_false, htail.read, Option.map_some,
    List.append_nil, List.length_nil]
  rw [Int.natCast_zero, Int.sub_zero]

theorem readMagnitude_fraction (hwhole : ∀ c ∈ whole, isPlainDigit c = true) (hne : whole ≠ [])
    (hfraction : ∀ c ∈ fraction, isPlainDigit c = true) (htail : Ends tail power) :
    readMagnitude (whole ++ '.' :: (fraction ++ tail)) =
      some (ofDigits 10 ((whole ++ fraction).map plainValue), power - fraction.length) := by
  have hdigits : takeDigits (whole ++ '.' :: (fraction ++ tail)) =
      (whole.map plainValue, '.' :: (fraction ++ tail)) := by
    refine takeDigits_append hwhole fun c hc => ?_
    obtain rfl : '.' = c := by simpa using hc
    decide
  have hnone : (whole.map plainValue).isEmpty = false := by
    rw [List.isEmpty_map, List.isEmpty_eq_false_iff]
    exact hne
  rw [readMagnitude, hdigits]
  simp only [takeDigits_append hfraction fun c hc => (htail.head c hc).1, hnone, Bool.false_and,
    Bool.false_eq_true, if_false, htail.read, Option.map_some, List.map_append, List.length_map]

theorem ofDigits_replicate_zero (base n : Nat) (ds : List Nat) :
    ofDigits base (List.replicate n 0 ++ ds) = ofDigits base ds := by
  induction n with
  | zero => rfl
  | succ n ih =>
      rw [List.replicate_succ, List.cons_append, ← ih]
      simp [ofDigits]

/-- Digits with a point among them or zeros in front of them are read as their number, the point
telling the scale. -/
theorem readMagnitude_pointed {ds : List Char} (hds : ∀ c ∈ ds, isPlainDigit c = true) {place : Int}
    (hplace : place ≤ ds.length) (hne : ds ≠ []) (htail : Ends tail power) :
    readMagnitude (pointed ds place ++ tail) =
      some (ofDigits 10 (ds.map plainValue), power + place - ds.length) := by
  rw [pointed]
  by_cases hzero : place ≤ 0
  -- zeros between the point and the digits
  · have hzeros : ∀ c ∈ List.replicate place.natAbs '0' ++ ds, isPlainDigit c = true := by
      intro c hc
      rcases List.mem_append.1 hc with hc | hc
      · rw [List.eq_of_mem_replicate hc]; rfl
      · exact hds c hc
    rw [if_pos hzero]
    have hwhole : ∀ c ∈ ['0'], isPlainDigit c = true := List.all_eq_true.1 (by decide)
    refine (readMagnitude_fraction hwhole (by decide) hzeros htail).trans ?_
    have hvalue : ofDigits 10 ((['0'] ++ (List.replicate place.natAbs '0' ++ ds)).map plainValue) =
        ofDigits 10 (ds.map plainValue) := by
      have := ofDigits_replicate_zero 10 (place.natAbs + 1) (ds.map plainValue)
      rw [← this, List.map_append, List.map_append, List.map_replicate, List.replicate_succ]
      rfl
    rw [hvalue, List.length_append, List.length_replicate]
    congr 2
    omega
  · rw [if_neg hzero]
    by_cases hend : (ds.length : Int) ≤ place
    -- the point would stand behind the last digit
    · rw [if_pos hend, show place.toNat - ds.length = 0 by omega, List.replicate_zero,
        List.append_nil, readMagnitude_whole hds hne htail]
      congr 2
      omega
    · rw [if_neg hend, List.append_assoc, List.cons_append]
      have hplain : ∀ c ∈ ds.drop place.toNat, isPlainDigit c = true :=
        fun c hc => hds c (List.mem_of_mem_drop hc)
      have hwhole : ds.take place.toNat ≠ [] := by
        rw [← List.length_pos_iff, List.length_take]
        omega
      rw [readMagnitude_fraction (fun c hc => hds c (List.mem_of_mem_take hc)) hwhole hplain htail,
        List.take_append_drop, List.length_drop]
      congr 2
      omega

/-- **A magnitude is read back**, the scale with the coefficient. -/
theorem readMagnitude_magnitudeChars (coefficient : Nat) (exponent : Int) :
    readMagnitude (magnitudeChars coefficient exponent) = some (coefficient, exponent) := by
  have hplain := isPlainDigit_of_mem_digits coefficient
  have hne := digits_ne_nil coefficient
  have hpos : 0 < (digits coefficient).length := List.length_pos_iff.2 hne
  have hvalue := ofDigits_map_plainValue_digits coefficient
  simp only [magnitudeChars]
  by_cases hplace : exponent ≤ 0 ∧ exponent + ((digits coefficient).length : Int) > -6
  · rw [if_pos hplace]
    rw [← List.append_nil (pointed _ _), readMagnitude_pointed hplain (by omega) hne ends_nil,
      hvalue]
    congr 2
    omega
  · have hone : exponent + ((digits coefficient).length : Int) ≠ 1 := by omega
    rw [if_neg hplace, if_neg hone, readMagnitude_pointed hplain (by omega) hne (ends_powerChars _),
      hvalue]
    congr 2
    omega

/-! ## Decimals -/

/-- A magnitude starts with a digit. -/
theorem magnitudeChars_eq_cons (coefficient : Nat) (exponent : Int) :
    ∃ d rest, magnitudeChars coefficient exponent = d :: rest ∧ isPlainDigit d = true := by
  have hplain := isPlainDigit_of_mem_digits coefficient
  have hpointed : ∀ place : Int, ∃ d rest, pointed (digits coefficient) place = d :: rest ∧
      isPlainDigit d = true := by
    intro place
    cases hd : digits coefficient with
    | nil => exact absurd hd (digits_ne_nil coefficient)
    | cons d ds =>
        rw [hd] at hplain
        rw [pointed]
        by_cases hzero : place ≤ 0
        · exact ⟨'0', _, if_pos hzero, rfl⟩
        · obtain ⟨n, hn⟩ : ∃ n, place.toNat = n + 1 := ⟨place.toNat - 1, by omega⟩
          rw [if_neg hzero, hn]
          split
          · exact ⟨d, _, rfl, hplain d (by simp)⟩
          · exact ⟨d, _, rfl, hplain d (by simp)⟩
  simp only [magnitudeChars]
  split
  · exact hpointed _
  · obtain ⟨d, rest, hrest, hd⟩ := hpointed 1
    exact ⟨d, _, by rw [hrest, List.cons_append], hd⟩

/-- The character is neither passed over by a reader of decimals nor trimmed. -/
def IsKept (c : Char) : Prop :=
  isBlank c = false ∧ (c != '_') = true

theorem isKept_of_isPlainDigit {c : Char} (h : isPlainDigit c = true) : IsKept c := by
  refine ⟨isBlank_of_isPlainDigit h, bne_iff_ne.2 ?_⟩
  rintro rfl
  exact absurd h (by decide)

instance (c : Char) : Decidable (IsKept c) :=
  inferInstanceAs (Decidable (_ ∧ _))

theorem filter_trimChars_of_isKept {cs : List Char} (h : ∀ c ∈ cs, IsKept c) :
    (trimChars cs).filter (· != '_') = cs := by
  rw [trimChars_of_isBlank fun c hc => (h c hc).1, List.filter_eq_self]
  exact fun c hc => (h c hc).2

/-- A point is set among digits, with zeros around them. -/
theorem mem_pointed {ds : List Char} {place : Int} {c : Char} (h : c ∈ pointed ds place) :
    c ∈ ds ∨ c = '0' ∨ c = '.' := by
  rw [pointed] at h
  split at h
  · simp only [List.mem_cons, List.mem_append, List.mem_replicate] at h
    rcases h with h | h | ⟨-, h⟩ | h
    · exact .inr (.inl h)
    · exact .inr (.inr h)
    · exact .inr (.inl h)
    · exact .inl h
  · split at h
    · rcases List.mem_append.1 h with h | h
      · exact .inl h
      · exact .inr (.inl (List.eq_of_mem_replicate h))
    · simp only [List.mem_append, List.mem_cons] at h
      rcases h with h | h | h
      · exact .inl (List.mem_of_mem_take h)
      · exact .inr (.inr h)
      · exact .inl (List.mem_of_mem_drop h)

theorem isKept_pointed {ds : List Char} (hds : ∀ c ∈ ds, IsKept c) (place : Int) :
    ∀ c ∈ pointed ds place, IsKept c := by
  intro c hc
  rcases mem_pointed hc with hc | rfl | rfl
  · exact hds c hc
  · decide
  · decide

/-- Nothing in the text of a decimal is passed over. -/
theorem isKept_chars (d : Decimal) : ∀ c ∈ d.chars, IsKept c := by
  have hdigits : ∀ n, ∀ c ∈ digits n, IsKept c := fun n c hc =>
    isKept_of_isPlainDigit (isPlainDigit_of_mem_digits n c hc)
  have hsign : ∀ negative, ∀ c ∈ signChars negative, IsKept c := fun negative =>
    List.all_iff_forall_prop.1 (by cases negative <;> decide)
  intro c hc
  cases d with
  | finite negative coefficient exponent =>
      rcases List.mem_append.1 hc with hc | hc
      · exact hsign negative c hc
      · simp only [magnitudeChars] at hc
        split at hc
        · exact isKept_pointed (hdigits coefficient) _ c hc
        · rcases List.mem_append.1 hc with hc | hc
          · exact isKept_pointed (hdigits coefficient) _ c hc
          · split at hc
            · exact absurd hc List.not_mem_nil
            · rw [powerChars] at hc
              rcases List.mem_cons.1 hc with rfl | hc
              · decide
              · rcases List.mem_cons.1 hc with rfl | hc
                · split <;> decide
                · exact hdigits _ c hc
  | infinite negative =>
      rcases List.mem_append.1 hc with hc | hc
      · exact hsign negative c hc
      · exact List.all_iff_forall_prop.1 (by decide) c hc
  | nan negative signaling payload =>
      simp only [chars, List.mem_append] at hc
      rcases hc with (hc | hc) | hc
      · exact hsign negative c hc
      · cases signaling
        · exact List.all_iff_forall_prop.1 (by decide) c hc
        · exact List.all_iff_forall_prop.1 (by decide) c hc
      · split at hc
        · exact absurd hc List.not_mem_nil
        · exact hdigits payload c hc

/-- A digit is no letter of a word. -/
theorem dropWord_of_isPlainDigit {w d : Char} (hw : isPlainDigit w = false)
    (hd : isPlainDigit d = true) (word rest : List Char) :
    dropWord (w :: word) (d :: rest) = none := by
  have hlower : lowerLetter d = d := by
    have hc := bounds_of_isPlainDigit hd
    rw [lowerLetter, if_neg (by omega)]
  have hne : (w == d) = false := by
    rw [beq_eq_false_iff_ne]
    rintro rfl
    rw [hd] at hw
    exact absurd hw (by decide)
  rw [dropWord, hlower, hne]
  rfl

/-- What starts with a digit is no infinity. -/
theorem isWord_of_isPlainDigit {d : Char} (hd : isPlainDigit d = true) (rest : List Char) :
    isWord "inf" (d :: rest) = false ∧ isWord "infinity" (d :: rest) = false := by
  have hword : ∀ word : List Char, dropWord ('i' :: word) (d :: rest) = none := fun word =>
    dropWord_of_isPlainDigit (by decide) hd word rest
  rw [isWord, isWord, show "inf".toList = ['i', 'n', 'f'] from rfl,
    show "infinity".toList = ['i', 'n', 'f', 'i', 'n', 'i', 't', 'y'] from rfl, hword, hword]
  exact ⟨rfl, rfl⟩

/-- What starts with a digit is read as a magnitude. -/
theorem readUnsigned_of_isPlainDigit {negative : Bool} {d : Char} {rest : List Char}
    (hd : isPlainDigit d = true) : readUnsigned negative (d :: rest) =
      match readMagnitude (d :: rest) with
      | some (coefficient, exponent) => bounded negative coefficient exponent
      | none => none := by
  obtain ⟨hinf, hinfinity⟩ := isWord_of_isPlainDigit hd rest
  rw [readUnsigned, hinf, hinfinity, show "nan".toList = ['n', 'a', 'n'] from rfl,
    show "snan".toList = ['s', 'n', 'a', 'n'] from rfl,
    dropWord_of_isPlainDigit (w := 'n') (by decide) hd,
    dropWord_of_isPlainDigit (w := 's') (by decide) hd]
  rfl

theorem takeSign_signChars (negative : Bool) {c : Char} {rest : List Char} (hminus : c ≠ '-')
    (hplus : c ≠ '+') : takeSign (signChars negative ++ c :: rest) = (negative, c :: rest) := by
  cases negative with
  | true => rfl
  | false =>
      show takeSign (c :: rest) = _
      unfold takeSign
      split
      · next heq => exact absurd (List.cons.inj heq).1 hminus
      · next heq => exact absurd (List.cons.inj heq).1 hplus
      · rfl

/-- A payload is read back; the payload zero is not written. -/
theorem readPayload_payload (payload : Nat) :
    readPayload (if payload = 0 then [] else digits payload) = some payload := by
  split
  · next hzero => rw [hzero]; rfl
  · rw [readPayload, takeDigits_of_isPlainDigit (isPlainDigit_of_mem_digits payload)]
    exact congrArg some (ofDigits_map_plainValue_digits payload)

/-- A sign and a magnitude in range are read. -/
theorem readChars_signed {negative : Bool} {d : Char} {rest : List Char} {coefficient : Nat}
    {exponent : Int} (hkept : ∀ c ∈ signChars negative ++ d :: rest, IsKept c)
    (hd : isPlainDigit d = true) (hread : readMagnitude (d :: rest) = some (coefficient, exponent))
    (hrange : (finite negative coefficient exponent).IsInRange) :
    readChars (signChars negative ++ d :: rest) = some (finite negative coefficient exponent) := by
  have hbody := filter_trimChars_of_isKept hkept
  have hsign : takeSign (signChars negative ++ d :: rest) = (negative, d :: rest) := by
    apply takeSign_signChars <;> rintro rfl <;> exact absurd hd (by decide)
  have hbounded : bounded negative coefficient exponent =
      some (finite negative coefficient exponent) := by
    obtain ⟨htop, hbottom⟩ := hrange
    rw [bounded, if_neg (by omega)]
  rw [readChars, hbody, hsign]
  simp only [readUnsigned_of_isPlainDigit hd, hread, hbounded]

/-- **A decimal is read back.** -/
theorem readChars_chars {d : Decimal} (h : d.IsInRange) : readChars d.chars = some d := by
  have hkept := isKept_chars d
  cases d with
  | finite negative coefficient exponent =>
      obtain ⟨d, rest, hrest, hd⟩ := magnitudeChars_eq_cons coefficient exponent
      have hread := readMagnitude_magnitudeChars coefficient exponent
      rw [chars, hrest] at hkept ⊢
      rw [hrest] at hread
      exact readChars_signed hkept hd hread h
  | infinite negative => cases negative <;> rfl
  | nan negative signaling payload =>
      have hbody := filter_trimChars_of_isKept hkept
      have hpayload := readPayload_payload payload
      rw [readChars, hbody, chars, List.append_assoc]
      generalize (if payload = 0 then [] else digits payload) = ds at hpayload
      cases signaling with
      | true =>
          have hsign : takeSign (signChars negative ++ ("sNaN".toList ++ ds)) =
              (negative, 's' :: 'N' :: 'a' :: 'N' :: ds) :=
            takeSign_signChars negative (by decide) (by decide)
          rw [if_pos rfl, hsign]
          show (readPayload ds).map (nan negative true) = _
          rw [hpayload]
          rfl
      | false =>
          have hsign : takeSign (signChars negative ++ ("NaN".toList ++ ds)) =
              (negative, 'N' :: 'a' :: 'N' :: ds) :=
            takeSign_signChars negative (by decide) (by decide)
          rw [if_neg Bool.false_ne_true, hsign]
          show (readPayload ds).map (nan negative false) = _
          rw [hpayload]
          rfl

theorem read?_text {d : Decimal} (h : d.IsInRange) : read? d.text = some d := by
  rw [read?, text, String.toList_ofList]
  exact readChars_chars h

/-! ## Decimals and integers -/

/-- A decimal without a scale is written as an integer is. -/
theorem magnitudeChars_zero (coefficient : Nat) :
    magnitudeChars coefficient 0 = digits coefficient := by
  have hpos : 0 < (digits coefficient).length := List.length_pos_iff.2 (digits_ne_nil coefficient)
  simp only [magnitudeChars]
  rw [if_pos (by omega), pointed, if_neg (by omega), if_pos (by omega),
    show ((0 : Int) + (digits coefficient).length).toNat - (digits coefficient).length = 0 by omega,
    List.replicate_zero, List.append_nil]

theorem point_mem_pointed {ds : List Char} {place : Int} (h : place < ds.length) :
    '.' ∈ pointed ds place := by
  rw [pointed]
  split
  · exact List.mem_cons_of_mem _ List.mem_cons_self
  · rw [if_neg (by omega)]
    exact List.mem_append_right _ List.mem_cons_self

/-- A scale shows in the text, as a point or as a power. -/
theorem exists_mark_mem (coefficient : Nat) {exponent : Int} (h : exponent ≠ 0) :
    ∃ c ∈ magnitudeChars coefficient exponent, c = '.' ∨ c = 'E' := by
  have hpos : 0 < (digits coefficient).length := List.length_pos_iff.2 (digits_ne_nil coefficient)
  simp only [magnitudeChars]
  split
  · exact ⟨'.', point_mem_pointed (by omega), .inl rfl⟩
  · rw [if_neg (by omega)]
    exact ⟨'E', List.mem_append_right _ List.mem_cons_self, .inr rfl⟩

/-- **The text of a decimal is no integer** if the decimal has a scale or no value. -/
theorem readInteger_chars {d : Decimal} (h : ∀ negative c, d ≠ finite negative c 0) :
    readInteger d.chars = .malformed := by
  cases d with
  | finite negative c e =>
      have he : e ≠ 0 := fun he => h negative c (he ▸ rfl)
      obtain ⟨mark, hmem, hmark⟩ := exists_mark_mem c he
      have hmem : mark ∈ (finite negative c e).chars := List.mem_append_right _ hmem
      rcases hmark with rfl | rfl
      · exact readInteger_of_mem hmem (by decide) (by decide) (by decide)
      · exact readInteger_of_mem hmem (by decide) (by decide) (by decide)
  | infinite negative =>
      have hmem : 'I' ∈ (infinite negative).chars := List.mem_append_right _ List.mem_cons_self
      exact readInteger_of_mem hmem (by decide) (by decide) (by decide)
  | nan negative signaling payload =>
      have hmem : 'N' ∈ (nan negative signaling payload).chars := by
        refine List.mem_append_left _ (List.mem_append_right _ ?_)
        cases signaling <;> decide
      exact readInteger_of_mem hmem (by decide) (by decide) (by decide)

end Decimal

end Listing
