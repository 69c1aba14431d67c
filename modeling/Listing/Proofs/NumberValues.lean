import Mathlib.Algebra.Order.Field.Power
import Mathlib.Algebra.Order.Field.Rat
import Mathlib.Tactic.Positivity
import Mathlib.Tactic.Ring
import Listing.Number.Number
import Listing.Proofs.WrittenIntegers

/-!
# Numbers are compared by value

Integers, floating-point numbers and decimals with a value are rational numbers (`Number.value?`), and
two of them are in the order of their values whatever their formats (`Number.compare?_of_value?`). The
comparison looks at the place of the leading digit first, and at the digits only where the places
agree (`Number.compareMagnitudes_eq`).
-/

set_option autoImplicit false

namespace Listing

/-! ## The width of a number -/

namespace Decimal

theorem width_pos (n : Nat) : 0 < width n :=
  List.length_pos_iff.2 (Text.digits_ne_nil n)

theorem lt_pow_width (n : Nat) : n < 10 ^ width n := by
  induction n using Text.digits.induct with
  | case1 n hn =>
      rw [width, Text.digits, if_pos hn]
      exact hn
  | case2 n hn ih =>
      rw [width, Text.digits, if_neg hn, List.length_append, List.length_singleton, Nat.pow_succ]
      rw [width] at ih
      omega

/-- A positive number is at least the power of ten at its leading digit. -/
theorem pow_width_le {n : Nat} (h : 0 < n) : 10 ^ (width n - 1) ≤ n := by
  have hwidth := width_pos n
  by_contra hlt
  cases hw : width n - 1 with
  | zero =>
      rw [hw, Nat.pow_zero] at hlt
      omega
  | succ k =>
      -- with one digit less, the number would have one digit less
      have hle := Text.length_digits_le (hw ▸ Nat.not_le.1 hlt)
      rw [width] at hw hwidth
      omega

/-- A power of ten adds its zeros to the digits, and no more. -/
theorem width_shift_le (c k : Nat) : width (c * 10 ^ k) ≤ width c + k := by
  have hlt : c * 10 ^ k < 10 ^ (width c + k) := by
    rw [Nat.pow_add]
    exact Nat.mul_lt_mul_of_pos_right (lt_pow_width c) (Nat.pow_pos (by decide))
  have hwidth := width_pos c
  rw [show width c + k = width c + k - 1 + 1 by omega] at hlt ⊢
  exact Text.length_digits_le hlt

end Decimal

namespace Number

/-! ## Magnitudes -/

/-- The value of a scaled coefficient. -/
def magnitude (c : Nat) (e : Int) : ℚ :=
  c * 10 ^ e

variable {c c' : Nat} {e e' : Int}

theorem magnitude_pos (h : 0 < c) (e : Int) : 0 < magnitude c e := by
  have hc : (0 : ℚ) < c := by exact_mod_cast h
  rw [magnitude]
  positivity

theorem magnitude_zero (e : Int) : magnitude 0 e = 0 := by
  rw [magnitude, Nat.cast_zero, zero_mul]

/-- Tens may be moved between the coefficient and the scale. -/
theorem magnitude_shift (c k : Nat) (e : Int) : magnitude (c * 10 ^ k) e = magnitude c (e + k) := by
  rw [magnitude, magnitude, zpow_add₀ (by norm_num), zpow_natCast]
  push_cast
  ring

/-- The value lies below the power of ten above its leading digit. -/
theorem magnitude_lt (c : Nat) (e : Int) : magnitude c e < 10 ^ (e + Decimal.width c) := by
  have hlt : (c : ℚ) < 10 ^ Decimal.width c := by exact_mod_cast Decimal.lt_pow_width c
  rw [magnitude, zpow_add₀ (by norm_num), zpow_natCast, mul_comm]
  exact mul_lt_mul_of_pos_left hlt (by positivity)

theorem le_magnitude (h : 0 < c) (e : Int) : 10 ^ (e + Decimal.width c - 1) ≤ magnitude c e := by
  have hle : (10 : ℚ) ^ (Decimal.width c - 1) ≤ c := by exact_mod_cast Decimal.pow_width_le h
  have hwidth := Decimal.width_pos c
  rw [magnitude, show e + Decimal.width c - 1 = e + (Decimal.width c - 1 : Nat) by omega,
    zpow_add₀ (by norm_num), zpow_natCast, mul_comm]
  exact mul_le_mul_of_nonneg_right hle (by positivity)

/-- The number whose leading digit stands higher is the larger one. -/
theorem magnitude_lt_of_lead (h : 0 < c')
    (hlead : e + Decimal.width c < e' + Decimal.width c') : magnitude c e < magnitude c' e' :=
  calc magnitude c e < 10 ^ (e + Decimal.width c) := magnitude_lt c e
    _ ≤ 10 ^ (e' + Decimal.width c' - 1) := zpow_le_zpow_right₀ (by norm_num) (by omega)
    _ ≤ magnitude c' e' := le_magnitude h e'

theorem compare_magnitude (c c' : Nat) (e : Int) :
    compare (magnitude c e) (magnitude c' e) = compare c c' := by
  have htens : (0 : ℚ) < 10 ^ e := by positivity
  rcases Nat.lt_trichotomy c c' with h | rfl | h
  · rw [compare_lt_iff_lt.2 h, compare_lt_iff_lt]
    exact mul_lt_mul_of_pos_right (by exact_mod_cast h) htens
  · rw [compare_eq_iff_eq.2 rfl, compare_eq_iff_eq.2 rfl]
  · rw [compare_gt_iff_gt.2 h, compare_gt_iff_gt]
    exact mul_lt_mul_of_pos_right (by exact_mod_cast h) htens

/-- **Scaled coefficients are compared by value.** -/
theorem compareMagnitudes_eq (h : 0 < c) (h' : 0 < c') :
    compareMagnitudes c e c' e' = compare (magnitude c e) (magnitude c' e') := by
  unfold compareMagnitudes
  simp only
  split
  · next hlead =>
      rcases Int.lt_or_gt_of_ne hlead with hlt | hgt
      · rw [compare_lt_iff_lt.2 hlt, compare_lt_iff_lt.2 (magnitude_lt_of_lead h' hlt)]
      · rw [compare_gt_iff_gt.2 hgt, compare_gt_iff_gt.2 (magnitude_lt_of_lead h hgt)]
  · split
    -- both are written with the smaller scale
    · next hle =>
        rw [← compare_magnitude c _ e, Nat.pow_eq, magnitude_shift]
        congr 2
        omega
    · next hlt =>
        rw [← compare_magnitude _ c' e', Nat.pow_eq, magnitude_shift]
        congr 2
        omega

/-! ## Values -/

/-- The value of a scaled coefficient with its sign. -/
def signed (negative : Bool) (c : Nat) (e : Int) : ℚ :=
  if negative then -magnitude c e else magnitude c e

/-- The value of a number that has one. -/
def value? : Number → Option ℚ
  | int i => some i
  | float (.finite negative m e) => some (if negative then -(m * 2 ^ e) else m * 2 ^ e)
  | decimal (.finite negative c e) => some (signed negative c e)
  | _ => none

theorem signed_zero (negative : Bool) (e : Int) : signed negative 0 e = 0 := by
  cases negative
  · exact magnitude_zero e
  · exact neg_eq_zero.2 (magnitude_zero e)

theorem compare_neg_neg (q r : ℚ) : compare (-q) (-r) = compare r q := by
  rcases lt_trichotomy r q with h | rfl | h
  · rw [compare_lt_iff_lt.2 h, compare_lt_iff_lt.2 (neg_lt_neg h)]
  · rw [compare_eq_iff_eq.2 rfl, compare_eq_iff_eq.2 rfl]
  · rw [compare_gt_iff_gt.2 h, compare_gt_iff_gt.2 (neg_lt_neg h)]

/-- Places on the line are in the order of their values. -/
theorem Extent.compare?_finite (negative negative' : Bool) (c c' : Nat) (e e' : Int) :
    compare? (.finite negative c e) (.finite negative' c' e') =
      some (compare (signed negative c e) (signed negative' c' e')) := by
  rw [Extent.compare?.eq_def]
  simp only
  split
  · rw [signed_zero, signed_zero, compare_eq_iff_eq.2 rfl]
  · next n' =>
      rw [signed_zero]
      have hpos := magnitude_pos (Nat.succ_pos n') e'
      cases negative' with
      | true => rw [if_pos rfl, signed, if_pos rfl, compare_gt_iff_gt.2 (neg_lt_zero.2 hpos)]
      | false => rw [if_neg Bool.false_ne_true, signed, if_neg Bool.false_ne_true,
          compare_lt_iff_lt.2 hpos]
  · next n =>
      rw [signed_zero]
      have hpos := magnitude_pos (Nat.succ_pos n) e
      cases negative with
      | true => rw [if_pos rfl, signed, if_pos rfl, compare_lt_iff_lt.2 (neg_lt_zero.2 hpos)]
      | false => rw [if_neg Bool.false_ne_true, signed, if_neg Bool.false_ne_true,
          compare_gt_iff_gt.2 hpos]
  · next n n' =>
      have hpos := magnitude_pos (Nat.succ_pos n) e
      have hpos' := magnitude_pos (Nat.succ_pos n') e'
      have hlower := neg_lt_zero.2 hpos
      have hlower' := neg_lt_zero.2 hpos'
      cases negative <;> cases negative' <;>
        simp only [signed, Bool.false_eq_true, if_false, if_true]
      · rw [compareMagnitudes_eq (Nat.succ_pos n) (Nat.succ_pos n')]
      · rw [compare_gt_iff_gt.2 (hlower'.trans hpos)]
      · rw [compare_lt_iff_lt.2 (hlower.trans hpos')]
      · rw [compareMagnitudes_eq (Nat.succ_pos n') (Nat.succ_pos n), compare_neg_neg]

/-- A power of two times its match in fives is a power of ten. -/
theorem magnitude_fives (m k : Nat) :
    magnitude (m * 5 ^ k) (-k) = m * 2 ^ (-k : Int) := by
  have hfives : (5 : ℚ) ^ k ≠ 0 := by positivity
  rw [magnitude, zpow_neg, zpow_neg, zpow_natCast, zpow_natCast, show (10 : ℚ) = 5 * 2 by norm_num,
    mul_pow]
  rw [Nat.cast_mul, Nat.cast_pow, Nat.cast_ofNat, mul_inv, mul_assoc, mul_inv_cancel_left₀ hfives]

theorem magnitude_whole (n : Nat) : magnitude n 0 = n := by
  rw [magnitude, zpow_zero, mul_one]

theorem signed_natAbs (i : Int) : signed (i < 0) i.natAbs 0 = i := by
  rw [signed, magnitude_whole, Nat.cast_natAbs]
  by_cases h : i < 0
  · rw [if_pos (decide_eq_true h), abs_of_neg h]
    push_cast
    ring
  · rw [if_neg (by simpa using h), abs_of_nonneg (Int.not_lt.1 h)]

/-- A number with a value has a finite extent. -/
theorem extent_of_value? {x : Number} {q : ℚ} (h : x.value? = some q) :
    ∃ negative c e, x.extent = .finite negative c e ∧ signed negative c e = q := by
  cases x with
  | int i =>
      obtain rfl := Option.some.inj h
      exact ⟨_, _, _, rfl, signed_natAbs i⟩
  | float x =>
      cases x with
      | finite negative m e =>
          obtain rfl := Option.some.inj h
          rw [extent]
          by_cases he : 0 ≤ e
          · refine ⟨_, _, _, if_pos he, ?_⟩
            have hvalue : magnitude (m * 2 ^ e.toNat) 0 = m * 2 ^ e := by
              rw [magnitude_whole, Nat.cast_mul, Nat.cast_pow, Nat.cast_ofNat, ← zpow_natCast,
                Int.toNat_of_nonneg he]
            rw [signed, Nat.pow_eq, hvalue]
          · refine ⟨_, _, _, if_neg he, ?_⟩
            have hvalue : magnitude (m * 5 ^ e.natAbs) e = m * 2 ^ e := by
              have hneg : -(e.natAbs : Int) = e := by omega
              have hfives := magnitude_fives m e.natAbs
              rwa [hneg] at hfives
            rw [signed, Nat.pow_eq, hvalue]
      | _ => exact absurd h (by simp [value?])
  | decimal d =>
      cases d with
      | finite negative c e => exact ⟨_, _, _, rfl, Option.some.inj h⟩
      | _ => exact absurd h (by simp [value?])

theorem compare_intCast (i j : Int) : compare (i : ℚ) (j : ℚ) = compare i j := by
  rcases Int.lt_trichotomy i j with h | rfl | h
  · rw [compare_lt_iff_lt.2 h, compare_lt_iff_lt.2 (Int.cast_lt.2 h)]
  · rw [compare_eq_iff_eq.2 rfl, compare_eq_iff_eq.2 rfl]
  · rw [compare_gt_iff_gt.2 h, compare_gt_iff_gt.2 (Int.cast_lt.2 h)]

/-- **Numbers are compared by value**, whatever their formats. -/
theorem compare?_of_value? {x y : Number} {q r : ℚ} (hx : x.value? = some q)
    (hy : y.value? = some r) : x.compare? y = some (compare q r) := by
  have hextents : x.extent.compare? y.extent = some (compare q r) := by
    obtain ⟨negative, c, e, hextent, rfl⟩ := extent_of_value? hx
    obtain ⟨negative', c', e', hextent', rfl⟩ := extent_of_value? hy
    rw [hextent, hextent', Extent.compare?_finite]
  rw [compare?.eq_def]
  split
  · next i j =>
      obtain rfl := Option.some.inj hx
      obtain rfl := Option.some.inj hy
      rw [compare_intCast]
  · exact hextents

end Number

end Listing
