import Mathlib.Data.List.Basic
import Mathlib.Tactic.Positivity
import Mathlib.Tactic.Ring
import Listing.Number.Binary64
import Listing.Proofs.WrittenDecimals

/-!
# Floating-point texts that are read

The text of a finite floating-point number is a sign and a numeral: digits, a fraction and a power,
one of the last two at least (`Binary64.exists_numeral`). So the text of every number is read, and
`Binary64.reread` is the number it is read as. The numeral stands for the shortest digits of the number
(`Binary64.readMagnitude_chars`), which are few, and their scale is small (`Binary64.shortest_bounds`).
-/

set_option autoImplicit false

namespace Listing

open Text

namespace Binary64

/-! ## The shortest digits -/

theorem scaled_pos {n d : Nat} (hn : 0 < n) (e : Int) : 0 < (scaled n d e).1 := by
  rw [scaled]
  split
  · exact hn
  · exact Nat.mul_pos hn (Nat.pow_pos (by decide))

/-- A neighbour on the grid that reads back as a positive number is not zero. -/
theorem pos_of_gridHit {m c : Nat} {e p : Int} (hm : 0 < m) (h : gridHit m e p = some c) :
    0 < c := by
  rcases hscaled : scaled 1 1 (-(e - 2)) with ⟨num, den⟩
  have hnum : 0 < num := by
    have hpos := scaled_pos (d := 1) Nat.one_pos (-(e - 2))
    rwa [hscaled] at hpos
  simp only [gridHit, hscaled] at h
  have hvalue : 0 < (if 0 ≤ p then (num, den * Nat.pow 10 p.natAbs)
      else (num * Nat.pow 10 p.natAbs, den)).1 := by
    split
    · exact hnum
    · exact Nat.mul_pos hnum (Nat.pow_pos (by decide))
  generalize (if 0 ≤ p then (num, den * Nat.pow 10 p.natAbs)
    else (num * Nat.pow 10 p.natAbs, den)) = pair at h hvalue
  obtain ⟨value, unit⟩ := pair
  generalize hlow : (if m = Nat.pow 2 52 ∧ e > leastExponent then 4 * m - 1 else 4 * m - 2) = low
    at h
  -- zero lies below the interval around a positive number
  have hbelow : 0 < low * value := by
    refine Nat.mul_pos ?_ hvalue
    rw [← hlow]
    split <;> omega
  have hinside : ∀ c : Nat, (if m % 2 = 0 then
      decide (low * value ≤ c * unit ∧ c * unit ≤ (4 * m + 2) * value)
      else decide (low * value < c * unit ∧ c * unit < (4 * m + 2) * value)) = true → 0 < c := by
    intro c hc
    apply Nat.pos_of_ne_zero
    rintro rfl
    rw [Nat.zero_mul] at hc
    split at hc <;> have hc := of_decide_eq_true hc <;> omega
  split at h
  · exact Option.some.inj h ▸ Nat.succ_pos _
  · next hhit _ => exact Option.some.inj h ▸ hinside _ hhit
  · next hhit => exact Option.some.inj h ▸ hinside _ hhit
  · exact Option.some.inj h ▸ Nat.succ_pos _
  · exact absurd h (by simp)

/-- The coefficient is zero only where the first hit was given up. -/
theorem firstHit_eq_zero {m : Nat} (hm : 0 < m) (e lead : Int) (fuel count : Nat) :
    (firstHit m e lead count fuel).1 = 0 → (firstHit m e lead count fuel).2 = 0 := by
  induction fuel generalizing count with
  | zero => exact fun _ => rfl
  | succ fuel ih =>
      rw [firstHit]
      cases hhit : gridHit m e (lead - count + 1) with
      | none => exact ih (count + 1)
      | some c => exact fun hc => absurd hc (Nat.pos_iff_ne_zero.1 (pos_of_gridHit hm hhit))

theorem stripZeros_eq_zero {c : Nat} {p : Int} (fuel : Nat) (h : c = 0 → p = 0) :
    (stripZeros c p fuel).1 = 0 → (stripZeros c p fuel).2 = 0 := by
  induction fuel generalizing c p with
  | zero => exact h
  | succ fuel ih =>
      rw [stripZeros]
      split
      -- a tenth of a positive multiple of ten is positive
      · next hzero => exact ih fun hc => absurd hc (by omega)
      · exact h

theorem shortest_eq_zero {m : Nat} (hm : 0 < m) (e : Int) :
    (shortest m e).1 = 0 → (shortest m e).2 = 0 :=
  stripZeros_eq_zero 17 (firstHit_eq_zero hm e (leadingExponent m e) 17 1)

/-! ## Numerals -/

/-- Digits without a superfluous zero in front. -/
structure IsWhole (cs : List Char) : Prop where
  plain : ∀ c ∈ cs, isPlainDigit c = true
  ne_nil : cs ≠ []
  leading : ∀ tail, cs = '0' :: tail → tail = []

/-- A fraction: nothing, or a point and digits. -/
def IsFraction (cs : List Char) : Prop :=
  cs = [] ∨ ∃ ds, cs = '.' :: ds ∧ ds ≠ [] ∧ ∀ c ∈ ds, isPlainDigit c = true

/-- A power: nothing, or a letter, a sign and digits. -/
def IsPower (cs : List Char) : Prop :=
  cs = [] ∨ ∃ sign ds, cs = 'e' :: sign :: ds ∧ (sign = '+' ∨ sign = '-') ∧ ds ≠ [] ∧
    ∀ c ∈ ds, isPlainDigit c = true

/-- Digits, a fraction and a power, the last two not both empty. -/
structure IsNumeral (whole fraction power : List Char) : Prop where
  isWhole : IsWhole whole
  isFraction : IsFraction fraction
  isPower : IsPower power
  inexact : fraction ≠ [] ∨ power ≠ []

theorem isPlainDigit_replicate (n : Nat) : ∀ c ∈ List.replicate n '0', isPlainDigit c = true := by
  intro c hc
  rw [List.eq_of_mem_replicate hc]
  rfl

theorem isWhole_zero : IsWhole ['0'] where
  plain := isPlainDigit_replicate 1
  ne_nil := by decide
  leading := by simp

/-- A single digit is not superfluous. -/
theorem isWhole_digit {d : Char} (h : isPlainDigit d = true) : IsWhole [d] where
  plain := by simpa using h
  ne_nil := List.cons_ne_nil d []
  leading := by simp

/-- What starts as the digits of a positive number do has no superfluous zero. -/
theorem isWhole_of_digits {c : Nat} (hc : 0 < c) {cs : List Char}
    (hplain : ∀ c ∈ cs, isPlainDigit c = true) (hne : cs ≠ []) (h : cs.head? = (digits c).head?) :
    IsWhole cs where
  plain := hplain
  ne_nil := hne
  leading := by
    rintro tail rfl
    cases hd : digits c with
    | nil => exact absurd hd (digits_ne_nil c)
    | cons d ds =>
        rw [hd, List.head?_cons, List.head?_cons, Option.some.injEq] at h
        exact absurd (hd.trans (h ▸ rfl)) (digits_ne_zero_cons hc ds)

/-- A point among digits, or zeros and a point in front of them, leave a fraction. -/
theorem exists_pointed {ds : List Char} (hds : ∀ c ∈ ds, isPlainDigit c = true) {place : Int}
    (hplace : place < ds.length) (hwhole : 0 < place → IsWhole (ds.take place.toNat)) :
    ∃ whole fraction, Decimal.pointed ds place = whole ++ fraction ∧ IsWhole whole ∧
      IsFraction fraction ∧ fraction ≠ [] := by
  rw [Decimal.pointed]
  by_cases hzero : place ≤ 0
  · rw [if_pos hzero]
    have hne : List.replicate place.natAbs '0' ++ ds ≠ [] := by
      rw [ne_eq, List.append_eq_nil_iff, not_and, List.replicate_eq_nil_iff]
      rintro hnone rfl
      rw [List.length_nil] at hplace
      omega
    refine ⟨['0'], _, rfl, isWhole_zero, .inr ⟨_, rfl, hne, ?_⟩, List.cons_ne_nil _ _⟩
    intro c hc
    rcases List.mem_append.1 hc with hc | hc
    · exact isPlainDigit_replicate _ c hc
    · exact hds c hc
  · rw [if_neg hzero, if_neg (by omega)]
    have hne : ds.drop place.toNat ≠ [] := by
      rw [ne_eq, List.drop_eq_nil_iff]
      omega
    exact ⟨_, _, rfl, hwhole (by omega), .inr ⟨_, rfl, hne, fun c hc =>
      hds c (List.mem_of_mem_drop hc)⟩, List.cons_ne_nil _ _⟩

/-- The exponent part of a text is a power. -/
theorem isPower_exponent (n : Int) : IsPower ('e' :: (if n < 0 then '-' else '+') ::
    (if n.natAbs < 10 then '0' :: digits n.natAbs else digits n.natAbs)) := by
  refine .inr ⟨_, _, rfl, ?_, ?_, ?_⟩
  · split
    · exact .inr rfl
    · exact .inl rfl
  · split
    · exact List.cons_ne_nil _ _
    · exact digits_ne_nil _
  · intro c hc
    have hplain := isPlainDigit_of_mem_digits n.natAbs
    split at hc
    · rcases List.mem_cons.1 hc with rfl | hc
      · rfl
      · exact hplain c hc
    · exact hplain c hc

/-- Text with the point in its place is a whole part and a fraction. -/
theorem exists_positional {c : Nat} {p place : Int} (hzero : c = 0 → p = 0)
    (hplace : p + ((digits c).length : Int) = place) : ∃ whole fraction,
    (if ((digits c).length : Int) ≤ place then Decimal.pointed (digits c) place ++ ['.', '0']
      else Decimal.pointed (digits c) place) = whole ++ fraction ∧ IsNumeral whole fraction [] := by
  have hplain := isPlainDigit_of_mem_digits c
  have hne := digits_ne_nil c
  have hlength : 0 < (digits c).length := List.length_pos_iff.2 hne
  by_cases hend : ((digits c).length : Int) ≤ place
  -- zeros fill up to the point, and one more follows it
  · rw [if_pos hend, Decimal.pointed, if_neg (by omega), if_pos hend]
    refine ⟨_, ['.', '0'], rfl, ?_, .inr ⟨['0'], rfl, by decide, isPlainDigit_replicate 1⟩, .inl rfl,
      .inl (by decide)⟩
    rcases Nat.eq_zero_or_pos c with rfl | hc
    · rw [hzero rfl, digits_zero] at hplace
      rw [digits_zero, ← hplace]
      exact isWhole_zero
    · refine isWhole_of_digits hc ?_ (by simp [hne]) (List.head?_append_of_ne_nil _ hne)
      intro d hd
      rcases List.mem_append.1 hd with hd | hd
      · exact hplain d hd
      · exact isPlainDigit_replicate _ d hd
  · rw [if_neg hend]
    have hwhole : 0 < place → IsWhole ((digits c).take place.toNat) := by
      intro hpos
      have hc : 0 < c := by
        -- the single digit of zero has its point behind it
        refine Nat.pos_of_ne_zero fun hc => ?_
        rw [hzero hc, hc, digits_zero, List.length_singleton] at hplace
        rw [hc, digits_zero, List.length_singleton] at hend
        omega
      obtain ⟨n, hn⟩ : ∃ n, place.toNat = n + 1 := ⟨place.toNat - 1, by omega⟩
      refine isWhole_of_digits hc (fun d hd => hplain d (List.mem_of_mem_take hd)) ?_ ?_
      · rw [ne_eq, List.take_eq_nil_iff, not_or]
        exact ⟨by omega, hne⟩
      · rw [hn, List.head?_take, if_neg (Nat.succ_ne_zero n)]
    obtain ⟨whole, fraction, heq, hpart, hfraction, hmarked⟩ :=
      exists_pointed hplain (Int.not_le.1 hend) hwhole
    exact ⟨whole, fraction, heq, hpart, hfraction, .inl rfl, .inl hmarked⟩

/-- Text with a power has its point behind the first digit, if it has any. -/
theorem exists_scientific (c : Nat) {power : List Char} (hpower : IsPower power)
    (hne : power ≠ []) : ∃ whole fraction, Decimal.pointed (digits c) 1 = whole ++ fraction ∧
      IsNumeral whole fraction power := by
  have hplain := isPlainDigit_of_mem_digits c
  cases hd : digits c with
  | nil => exact absurd hd (digits_ne_nil c)
  | cons d ds =>
      rw [hd] at hplain
      have hdigit := isWhole_digit (hplain d (by simp))
      cases ds with
      | nil => exact ⟨[d], [], rfl, hdigit, .inl rfl, hpower, .inr hne⟩
      | cons d' ds =>
          have hinside : (1 : Int) < (d :: d' :: ds).length := by
            simp only [List.length_cons]
            omega
          obtain ⟨whole, fraction, heq, hwhole, hfraction, -⟩ :=
            exists_pointed hplain hinside fun _ => hdigit
          exact ⟨whole, fraction, heq, hwhole, hfraction, hpower, .inr hne⟩

/-- **The text of a finite number is a numeral.** -/
theorem exists_numeral (m : Nat) (e : Int) : ∃ whole fraction power,
    magnitudeChars m e = whole ++ (fraction ++ power) ∧ IsNumeral whole fraction power := by
  simp only [magnitudeChars]
  by_cases hm : m = 0
  · exact ⟨['0'], ['.', '0'], [], by rw [if_pos hm]; rfl, isWhole_zero,
      .inr ⟨['0'], rfl, by decide, isPlainDigit_replicate 1⟩, .inl rfl, .inl (by decide)⟩
  rw [if_neg hm]
  have hzero := shortest_eq_zero (Nat.pos_of_ne_zero hm) e
  generalize shortest m e = found at hzero
  obtain ⟨c, p⟩ := found
  simp only at hzero ⊢
  split
  · obtain ⟨whole, fraction, heq, hnumeral⟩ := exists_positional hzero rfl
    exact ⟨whole, fraction, [], by rw [heq, List.append_nil], hnumeral⟩
  · obtain ⟨whole, fraction, heq, hnumeral⟩ := exists_scientific c
      (isPower_exponent (p + ((digits c).length : Int) - 1)) (List.cons_ne_nil _ _)
    exact ⟨whole, fraction, _, by rw [heq, List.append_assoc], hnumeral⟩

theorem magnitudeChars_eq_cons (m : Nat) (e : Int) :
    ∃ d rest, magnitudeChars m e = d :: rest ∧ isPlainDigit d = true := by
  obtain ⟨whole, fraction, power, heq, hnumeral⟩ := exists_numeral m e
  obtain ⟨d, ds, rfl⟩ := List.exists_cons_of_ne_nil hnumeral.isWhole.ne_nil
  exact ⟨d, _, heq, hnumeral.isWhole.plain d List.mem_cons_self⟩

/-! ## Reading -/

/-- What a power stands for is read. -/
theorem exists_ends {power : List Char} (h : IsPower power) : ∃ n, Decimal.Ends power n := by
  rcases h with rfl | ⟨sign, ds, rfl, hsign, hne, hplain⟩
  · exact ⟨0, Decimal.ends_nil⟩
  · obtain ⟨negative, htake⟩ : ∃ negative, takeSign (sign :: ds) = (negative, ds) := by
      rcases hsign with rfl | rfl
      · exact ⟨false, rfl⟩
      · exact ⟨true, rfl⟩
    have hdigits := takeDigits_of_isPlainDigit hplain
    cases hd : ds.map plainValue with
    | nil => exact absurd (List.map_eq_nil_iff.1 hd) hne
    | cons d rest =>
        rw [hd] at hdigits
        have hread : ∃ n, Decimal.readPower ('e' :: sign :: ds) = some n := by
          simp only [Decimal.readPower, beq_self_eq_true, Bool.true_or, if_true, htake, hdigits]
          exact ⟨_, rfl⟩
        obtain ⟨n, hn⟩ := hread
        refine ⟨n, fun c hc => ?_, hn⟩
        obtain rfl : 'e' = c := by simpa using hc
        exact ⟨by decide, by decide⟩

/-- A numeral is read as a magnitude. -/
theorem exists_readMagnitude {whole fraction power : List Char}
    (h : IsNumeral whole fraction power) :
    ∃ found, Decimal.readMagnitude (whole ++ (fraction ++ power)) = some found := by
  obtain ⟨n, hends⟩ := exists_ends h.isPower
  rcases h.isFraction with rfl | ⟨ds, rfl, -, hds⟩
  · exact ⟨_, Decimal.readMagnitude_whole h.isWhole.plain h.isWhole.ne_nil hends⟩
  · exact ⟨_, Decimal.readMagnitude_fraction h.isWhole.plain h.isWhole.ne_nil hds hends⟩

/-- The characters of a numeral are digits, a point, a letter and signs. -/
theorem IsNumeral.mem {whole fraction power : List Char} (h : IsNumeral whole fraction power)
    {c : Char} (hc : c ∈ whole ++ (fraction ++ power)) :
    isPlainDigit c = true ∨ c ∈ ['.', 'e', '+', '-'] := by
  rcases List.mem_append.1 hc with hc | hc
  · exact .inl (h.isWhole.plain c hc)
  rcases List.mem_append.1 hc with hc | hc
  · rcases h.isFraction with rfl | ⟨ds, rfl, -, hds⟩
    · exact absurd hc List.not_mem_nil
    · rcases List.mem_cons.1 hc with rfl | hc
      · exact .inr (by decide)
      · exact .inl (hds c hc)
  · rcases h.isPower with rfl | ⟨sign, ds, rfl, hsign, -, hds⟩
    · exact absurd hc List.not_mem_nil
    · rcases List.mem_cons.1 hc with rfl | hc
      · exact .inr (by decide)
      rcases List.mem_cons.1 hc with rfl | hc
      · rcases hsign with rfl | rfl <;> exact .inr (by decide)
      · exact .inl (hds c hc)

/-- Without an underscore there is no grouping to drop. -/
theorem dropGrouping_eq_self {cs : List Char} (h : ∀ c ∈ cs, Decimal.IsKept c) (afterDigit : Bool) :
    dropGrouping afterDigit cs = some cs := by
  induction cs generalizing afterDigit with
  | nil => rfl
  | cons c cs ih =>
      have hc := (h c (by simp)).2
      rw [dropGrouping]
      · rw [if_neg (by simpa using hc), ih (fun d hd => h d (by simp [hd]))]
        rfl
      · rintro d rest rfl
        exact absurd hc (by decide)

theorem isKept_chars (x : Binary64) : ∀ c ∈ x.chars, Decimal.IsKept c := by
  have hsign : ∀ negative, ∀ c ∈ Decimal.signChars negative, Decimal.IsKept c := fun negative =>
    List.all_iff_forall_prop.1 (by cases negative <;> decide)
  intro c hc
  cases x with
  | nan => exact List.all_iff_forall_prop.1 (by decide) c hc
  | infinite negative =>
      rcases List.mem_append.1 hc with hc | hc
      · exact hsign negative c hc
      · exact List.all_iff_forall_prop.1 (by decide) c hc
  | finite negative m e =>
      rcases List.mem_append.1 hc with hc | hc
      · exact hsign negative c hc
      · obtain ⟨whole, fraction, power, heq, hnumeral⟩ := exists_numeral m e
        rcases hnumeral.mem (heq ▸ hc) with hc | hc
        · exact Decimal.isKept_of_isPlainDigit hc
        · exact List.all_iff_forall_prop.1 (by decide) c hc

/-- What a number is read as from its text. -/
def reread (x : Binary64) : Binary64 :=
  (readChars x.chars).getD x

/-- **The text of a number is read.** -/
theorem readChars_chars (x : Binary64) : readChars x.chars = some x.reread := by
  suffices h : ∃ y, readChars x.chars = some y by
    obtain ⟨y, hy⟩ := h
    rw [reread, hy]
    rfl
  cases x with
  | nan => exact ⟨nan, rfl⟩
  | infinite negative => cases negative <;> exact ⟨_, rfl⟩
  | finite negative m e =>
      have hkept := isKept_chars (finite negative m e)
      obtain ⟨whole, fraction, power, heq, hnumeral⟩ := exists_numeral m e
      obtain ⟨found, hfound⟩ := exists_readMagnitude hnumeral
      -- the numeral starts with a digit, so it is no word
      obtain ⟨d, rest, hrest, hplain⟩ := magnitudeChars_eq_cons m e
      rw [← heq, hrest] at hfound
      rw [readChars, trimChars_of_isBlank fun c hc => (hkept c hc).1, dropGrouping_eq_self hkept,
        chars, hrest]
      have hsign : takeSign (Decimal.signChars negative ++ d :: rest) = (negative, d :: rest) := by
        apply Decimal.takeSign_signChars <;> rintro rfl <;> exact absurd hplain (by decide)
      obtain ⟨hinf, hinfinity⟩ := Decimal.isWord_of_isPlainDigit hplain rest
      have hnan : Decimal.isWord "nan" (d :: rest) = false := by
        rw [Decimal.isWord, show "nan".toList = ['n', 'a', 'n'] from rfl,
          Decimal.dropWord_of_isPlainDigit (by decide) hplain]
        rfl
      simp only [hsign, hinf, hinfinity, hnan, hfound, Bool.or_self, Bool.false_eq_true, if_false]
      exact ⟨_, rfl⟩

/-- **The text of a number is no integer.** -/
theorem readInteger_chars (x : Binary64) : readInteger x.chars = .malformed := by
  cases x with
  | nan => rfl
  | infinite negative => cases negative <;> rfl
  | finite negative m e =>
      obtain ⟨whole, fraction, power, heq, hnumeral⟩ := exists_numeral m e
      obtain ⟨mark, hmem, hmark⟩ : ∃ mark ∈ fraction ++ power, mark = '.' ∨ mark = 'e' := by
        rcases hnumeral.inexact with hne | hne
        · obtain ⟨ds, rfl, -⟩ := hnumeral.isFraction.resolve_left hne
          exact ⟨'.', List.mem_append_left _ List.mem_cons_self, .inl rfl⟩
        · obtain ⟨sign, ds, rfl, -⟩ := hnumeral.isPower.resolve_left hne
          exact ⟨'e', List.mem_append_right _ List.mem_cons_self, .inr rfl⟩
      have hmem : mark ∈ (finite negative m e).chars := by
        rw [chars, heq]
        exact List.mem_append_right _ (List.mem_append_right _ hmem)
      rcases hmark with rfl | rfl
      · exact readInteger_of_mem hmem (by decide) (by decide) (by decide)
      · exact readInteger_of_mem hmem (by decide) (by decide) (by decide)

/-! ## What the text stands for -/

/-- The exponent part of a text is read. -/
theorem ends_exponent (n : Int) : Decimal.Ends ('e' :: (if n < 0 then '-' else '+') ::
    (if n.natAbs < 10 then '0' :: digits n.natAbs else digits n.natAbs)) n where
  head := by
    intro c hc
    obtain rfl : 'e' = c := by simpa using hc
    exact ⟨by decide, by decide⟩
  read := by
    generalize hds : (if n.natAbs < 10 then '0' :: digits n.natAbs else digits n.natAbs) = ds
    have hplain : ∀ c ∈ ds, isPlainDigit c = true := by
      have hdigits := isPlainDigit_of_mem_digits n.natAbs
      rw [← hds]
      split
      · exact List.forall_mem_cons.2 ⟨rfl, hdigits⟩
      · exact hdigits
    have hvalue : ofDigits 10 (ds.map plainValue) = n.natAbs := by
      have hdigits := ofDigits_map_plainValue_digits n.natAbs
      rw [← hds]
      split
      · exact (Decimal.ofDigits_replicate_zero 10 1 _).trans hdigits
      · exact hdigits
    have hne : ds ≠ [] := by
      rw [← hds]
      split
      · exact List.cons_ne_nil _ _
      · exact digits_ne_nil _
    have hsign : takeSign ((if n < 0 then '-' else '+') :: ds) = (decide (n < 0), ds) := by
      by_cases h : n < 0
      · rw [if_pos h, decide_eq_true h]; rfl
      · rw [if_neg h, decide_eq_false h]; rfl
    simp only [Decimal.readPower, beq_self_eq_true, Bool.true_or, if_true, hsign,
      takeDigits_of_isPlainDigit hplain]
    cases hd : ds.map plainValue with
    | nil => exact absurd (List.map_eq_nil_iff.1 hd) hne
    | cons d rest =>
        simp only
        rw [← hd, hvalue]
        simp only [decide_eq_true_eq, Option.some.injEq]
        split <;> omega

theorem ofDigits_append_zeros (ds : List Nat) (n : Nat) :
    ofDigits 10 (ds ++ List.replicate n 0) = ofDigits 10 ds * 10 ^ n := by
  induction n with
  | zero => rw [List.replicate_zero, List.append_nil, Nat.pow_zero, Nat.mul_one]
  | succ n ih =>
      rw [List.replicate_succ', ← List.append_assoc, ofDigits_append, ih, Nat.pow_succ]
      ring

/-- Digits before the point, filled up with zeros, and a zero behind it. -/
theorem readMagnitude_whole_zero {c n : Nat} {place : Int} (hplace : place = (digits c).length + n) :
    Decimal.readMagnitude (Decimal.pointed (digits c) place ++ ['.', '0']) =
      some (c * 10 ^ (n + 1), -1) := by
  have hplain := isPlainDigit_of_mem_digits c
  have hlength : 0 < (digits c).length := List.length_pos_iff.2 (digits_ne_nil c)
  have hpointed : Decimal.pointed (digits c) place = digits c ++ List.replicate n '0' := by
    rw [Decimal.pointed, if_neg (by omega), if_pos (by omega),
      show place.toNat - (digits c).length = n by omega]
  have hwhole : ∀ d ∈ digits c ++ List.replicate n '0', isPlainDigit d = true := by
    intro d hd
    rcases List.mem_append.1 hd with hd | hd
    · exact hplain d hd
    · exact isPlainDigit_replicate n d hd
  have hread := Decimal.readMagnitude_fraction hwhole (by simp [digits_ne_nil])
    (isPlainDigit_replicate 1) Decimal.ends_nil
  have hvalue : ofDigits 10 ((digits c ++ List.replicate n '0' ++ ['0']).map plainValue) =
      c * 10 ^ (n + 1) := by
    rw [List.append_assoc, ← List.replicate_succ', List.map_append, List.map_replicate,
      show plainValue '0' = 0 from rfl, ofDigits_append_zeros, ofDigits_map_plainValue_digits]
  rw [hpointed]
  exact hread.trans (by rw [← hvalue]; rfl)

/-- **The text of a positive number stands for its shortest digits**, perhaps with zeros behind. -/
theorem readMagnitude_chars {m : Nat} (hm : m ≠ 0) (e : Int) : ∃ k : Nat, k ≤ 17 ∧
    Decimal.readMagnitude (magnitudeChars m e) =
      some ((shortest m e).1 * 10 ^ k, (shortest m e).2 - k) := by
  simp only [magnitudeChars, if_neg hm]
  generalize shortest m e = found
  obtain ⟨c, p⟩ := found
  have hplain := isPlainDigit_of_mem_digits c
  have hne := digits_ne_nil c
  have hvalue := ofDigits_map_plainValue_digits c
  have hlength : 0 < (digits c).length := List.length_pos_iff.2 hne
  simp only
  split
  · next hplace =>
      split
      · next hend =>
          refine ⟨p.toNat + 1, by omega, ?_⟩
          rw [readMagnitude_whole_zero (n := p.toNat) (by omega)]
          congr 2
          omega
      · next hend =>
          refine ⟨0, by omega, ?_⟩
          rw [← List.append_nil (Decimal.pointed _ _),
            Decimal.readMagnitude_pointed hplain (by omega) hne Decimal.ends_nil, hvalue]
          rw [Nat.pow_zero, Nat.mul_one]
          congr 2
          omega
  · refine ⟨0, by omega, ?_⟩
    rw [Decimal.readMagnitude_pointed hplain (by omega) hne (ends_exponent _), hvalue,
      Nat.pow_zero, Nat.mul_one]
    congr 2
    omega

/-! ## The range of the shortest digits -/

/-- The number is one of the format: a finite significand has 53 bits at most, and the exponent is in
its range. -/
def IsInFormat : Binary64 → Prop
  | finite _ m e => m < 2 ^ 53 ∧ leastExponent ≤ e ∧ e ≤ greatestExponent
  | _ => True

section

variable {m c : Nat} {e p : Int}

theorem scaled_one_le {n : Nat} (he : e - 2 ≤ n) : (scaled 1 1 (-(e - 2))).1 ≤ 2 ^ n := by
  rw [scaled]
  split
  · exact Nat.one_le_two_pow
  · rw [Nat.one_mul]
    exact Nat.pow_le_pow_right (by omega) (by omega)

/-- A number has no more decimal digits than binary ones. -/
theorem width_le_of_lt {n k : Nat} (h : n < 2 ^ (k + 1)) : Decimal.width n ≤ k + 1 :=
  length_digits_le (h.trans_le (Nat.pow_le_pow_left (by omega) (k + 1)))

/-- A hit on the grid of a power of ten has not many digits more than the power. -/
theorem gridHit_lt (hm : m < 2 ^ 53) (he : e ≤ greatestExponent) (h : gridHit m e p = some c) :
    c < 2 ^ 56 * (2 ^ 969 * 10 ^ p.natAbs) := by
  rcases hscaled : scaled 1 1 (-(e - 2)) with ⟨num, den⟩
  have hnum : num ≤ 2 ^ 969 := by
    rw [greatestExponent] at he
    have hle : (scaled 1 1 (-(e - 2))).1 ≤ 2 ^ 969 := scaled_one_le (by omega)
    rwa [hscaled] at hle
  simp only [gridHit, hscaled] at h
  have hvalue : (if 0 ≤ p then (num, den * Nat.pow 10 p.natAbs)
      else (num * Nat.pow 10 p.natAbs, den)).1 ≤ 2 ^ 969 * 10 ^ p.natAbs := by
    split
    · exact hnum.trans (Nat.le_mul_of_pos_right _ (Nat.pow_pos (by omega)))
    · exact Nat.mul_le_mul_right _ hnum
  generalize (if 0 ≤ p then (num, den * Nat.pow 10 p.natAbs)
    else (num * Nat.pow 10 p.natAbs, den)) = pair at h hvalue
  obtain ⟨value, unit⟩ := pair
  -- either neighbour is a quotient of the number in quarters, or the next one
  have hc : c ≤ 4 * m * value / unit + 1 := by
    split at h
    · exact (Option.some.inj h).ge
    · exact (Option.some.inj h).ge.trans (Nat.le_succ _)
    · exact (Option.some.inj h).ge.trans (Nat.le_succ _)
    · exact (Option.some.inj h).ge
    · exact absurd h (by simp)
  have hpos : 0 < 2 ^ 969 * 10 ^ p.natAbs := by positivity
  generalize 2 ^ 969 * 10 ^ p.natAbs = n at hvalue hpos ⊢
  calc c ≤ 4 * m * value + 1 := hc.trans (Nat.succ_le_succ (Nat.div_le_self _ _))
    _ ≤ 2 ^ 55 * n + 1 := Nat.succ_le_succ (Nat.mul_le_mul (by omega) hvalue)
    _ < 2 ^ 56 * n := by omega

theorem width_mul_pow_le (hm : m < 2 ^ 53) {b j : Nat} (hb : b ≤ 2 ^ j) (k : Nat) :
    Decimal.width (m * b ^ k) ≤ 52 + j * k + 1 := by
  apply width_le_of_lt
  calc m * b ^ k ≤ m * (2 ^ j) ^ k := Nat.mul_le_mul_left _ (Nat.pow_le_pow_left hb k)
    _ < 2 ^ 53 * (2 ^ j) ^ k := Nat.mul_lt_mul_of_pos_right hm (by positivity)
    _ = 2 ^ (52 + j * k + 1) := by
        rw [← Nat.pow_mul, ← Nat.pow_add]
        congr 1
        omega

theorem leadingExponent_bounds (hm : m < 2 ^ 53) (hleast : leastExponent ≤ e)
    (he : e ≤ greatestExponent) : (leadingExponent m e).natAbs ≤ 4000 := by
  rw [leastExponent] at hleast
  rw [greatestExponent] at he
  rw [leadingExponent]
  split
  · have hwidth := width_mul_pow_le (j := 1) hm (Nat.le_refl 2) e.toNat
    rw [Nat.pow_eq]
    omega
  · have hwidth := width_mul_pow_le (b := 5) (j := 3) hm (by omega) e.natAbs
    rw [Nat.pow_eq]
    omega

theorem firstHit_bounds (hm : m < 2 ^ 53) (he : e ≤ greatestExponent) {lead : Int}
    (hlead : lead.natAbs ≤ 4000) (fuel count : Nat) (hcount : count + fuel ≤ 18) :
    Decimal.width (firstHit m e lead count fuel).1 ≤ 20000 ∧
      (firstHit m e lead count fuel).2.natAbs ≤ 4018 := by
  induction fuel generalizing count with
  | zero =>
      rw [firstHit]
      exact ⟨(width_le_of_lt (k := 0) (by omega)).trans (by omega), Nat.zero_le _⟩
  | succ fuel ih =>
      rw [firstHit]
      cases hhit : gridHit m e (lead - count + 1) with
      | none => exact ih (count + 1) (by omega)
      | some c =>
          have hscale : (lead - count + 1).natAbs ≤ 4018 := by omega
          have hlt : c < 2 ^ (1024 + 4 * (lead - count + 1).natAbs + 1) :=
            calc c < 2 ^ 56 * (2 ^ 969 * 10 ^ (lead - count + 1).natAbs) := gridHit_lt hm he hhit
              _ ≤ 2 ^ 56 * (2 ^ 969 * (2 ^ 4) ^ (lead - count + 1).natAbs) :=
                  Nat.mul_le_mul_left _ (Nat.mul_le_mul_left _ (Nat.pow_le_pow_left (by omega) _))
              _ = 2 ^ (1024 + 4 * (lead - count + 1).natAbs + 1) := by
                  rw [← Nat.pow_mul, ← Nat.pow_add, ← Nat.pow_add]
                  congr 1
                  omega
          exact ⟨(width_le_of_lt hlt).trans (by omega), hscale⟩

theorem stripZeros_bounds (fuel c : Nat) (p : Int) :
    Decimal.width (stripZeros c p fuel).1 ≤ Decimal.width c ∧
      (stripZeros c p fuel).2.natAbs ≤ p.natAbs + fuel := by
  induction fuel generalizing c p with
  | zero => exact ⟨Nat.le_refl _, Nat.le_refl _⟩
  | succ fuel ih =>
      rw [stripZeros]
      split
      · next hzero =>
          obtain ⟨hc, hp⟩ := ih (c / 10) (p + 1)
          refine ⟨hc.trans ?_, by omega⟩
          -- the digits of a tenth are all but the last one
          rw [Decimal.width, Decimal.width, digits.eq_def c, if_neg (by omega), List.length_append]
          exact Nat.le_add_right _ _
      · exact ⟨Nat.le_refl _, by omega⟩

/-- The shortest digits are few, and their scale is small. -/
theorem shortest_bounds (hm : m < 2 ^ 53) (hleast : leastExponent ≤ e)
    (he : e ≤ greatestExponent) :
    Decimal.width (shortest m e).1 ≤ 20000 ∧ (shortest m e).2.natAbs ≤ 5000 := by
  obtain ⟨hc, hp⟩ :=
    firstHit_bounds hm he (leadingExponent_bounds hm hleast he) 17 1 (Nat.le_refl 18)
  rw [shortest]
  generalize firstHit m e (leadingExponent m e) 1 17 = found at hc hp
  obtain ⟨c, p⟩ := found
  obtain ⟨hc', hp'⟩ := stripZeros_bounds 17 c p
  exact ⟨hc'.trans hc, hp'.trans (by omega)⟩

end

end Binary64

end Listing
