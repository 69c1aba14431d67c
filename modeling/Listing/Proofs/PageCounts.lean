import Mathlib.Algebra.Order.Field.Power
import Mathlib.Algebra.Order.Field.Rat
import Mathlib.Data.Rat.Floor
import Mathlib.Tactic.Positivity
import Mathlib.Tactic.Ring
import Listing.Page.Basic
import Listing.Proofs.TracedResult

/-!
# Exact page counts

The number of pages is the ceiling of a quotient that is rounded to 53 bits first. Up to `2 ^ 53` rows
a quotient above an integer is more than half a unit of its significand above it
(`Binary64.half_unit_lt`), so rounding carries no quotient to an integer or across one, and the number
of pages is exact (`NumberedPage.pageCount_exact`).
-/

set_option autoImplicit false

namespace Listing

namespace Binary64

variable {n d c : Nat} {e : Int}

/-! ## Rounding and integers -/

/-- A quotient that is at most an integer is not rounded above it. -/
theorem roundQuotient_le (hd : 0 < d) (h : n ≤ c * d) : roundQuotient n d ≤ c := by
  have hdiv := Nat.div_add_mod n d
  have hmod := Nat.mod_lt n hd
  have hle : n / d ≤ c := Nat.div_le_of_le_mul (Nat.mul_comm c d ▸ h)
  rw [roundQuotient]
  rcases Nat.eq_or_lt_of_le hle with heq | hlt
  · rw [heq, Nat.mul_comm] at hdiv
    rw [heq]
    split <;> omega
  · split <;> omega

/-- A quotient that is more than half a unit above an integer is rounded above it. -/
theorem lt_roundQuotient (hd : 0 < d) (h : (2 * c + 1) * d < 2 * n) : c < roundQuotient n d := by
  have hdiv := Nat.div_add_mod n d
  have hmod := Nat.mod_lt n hd
  have hexpand : (2 * c + 1) * d = 2 * (d * c) + d := by
    rw [Nat.add_mul, Nat.one_mul, Nat.mul_assoc, Nat.mul_comm c d]
  rw [hexpand] at h
  rw [roundQuotient]
  rcases Nat.lt_trichotomy (n / d) c with hlt | heq | hgt
  · have hstep : d * (n / d) + d ≤ d * c := Nat.mul_succ d (n / d) ▸ Nat.mul_le_mul_left d hlt
    generalize d * (n / d) = m at hdiv hstep
    generalize d * c = m' at hstep h
    omega
  · rw [heq] at hdiv ⊢
    generalize d * c = m at hdiv h
    split <;> omega
  · split <;> omega

theorem scaled_of_nonpos (he : e ≤ 0) : scaled n d e = (n * 2 ^ e.natAbs, d) := by
  rw [scaled]
  rcases Int.lt_or_eq_of_le he with hlt | rfl
  · rw [if_neg (by omega), Nat.pow_eq]
  · simp

/-- **A quotient above an integer is more than half a unit above it**, where the dividend is at most
`2 ^ 53` and the significand has 53 bits. -/
theorem half_unit_lt {j : Nat} (hn : n ≤ 2 ^ 53) (hbits : 2 ^ 52 * d ≤ n * 2 ^ j)
    (habove : c * d < n) : (2 * (c * 2 ^ j) + 1) * d < 2 * (n * 2 ^ j) := by
  have hunit : 0 < 2 ^ j := Nat.two_pow_pos j
  have hscale : n * 2 ^ j ≤ 2 ^ 53 * 2 ^ j := Nat.mul_le_mul_right _ hn
  have hstep : (c * d + 1) * 2 ^ j ≤ n * 2 ^ j := Nat.mul_le_mul_right _ habove
  have hexpand : (2 * (c * 2 ^ j) + 1) * d = 2 * (c * d * 2 ^ j) + d := by ring
  rw [Nat.add_mul, Nat.one_mul] at hstep
  rw [hexpand]
  rcases Nat.lt_or_eq_of_le (show d ≤ 2 * 2 ^ j by omega) with hlt | heq
  · omega
  -- a divisor of two units leaves only the greatest dividend, which is even
  · have hgreatest : n = 2 ^ 53 := by
      have hfull : 2 ^ 53 * 2 ^ j ≤ n * 2 ^ j := by omega
      exact Nat.le_antisymm hn (Nat.le_of_mul_le_mul_right hfull hunit)
    have heven : c * d = 2 * (c * 2 ^ j) := by rw [heq, Nat.mul_left_comm]
    have hmore : (c * d + 2) * 2 ^ j ≤ n * 2 ^ j := by
      apply Nat.mul_le_mul_right
      omega
    rw [Nat.add_mul] at hmore
    omega

/-- Such a quotient is rounded above an integer exactly if it is above it. -/
theorem roundQuotient_le_mul_iff {j : Nat} (hd : 0 < d) (hn : n ≤ 2 ^ 53)
    (hbits : 2 ^ 52 * d ≤ n * 2 ^ j) : roundQuotient (n * 2 ^ j) d ≤ c * 2 ^ j ↔ n ≤ c * d := by
  constructor
  · intro hround
    by_contra habove
    have hmiddle := half_unit_lt hn hbits (Nat.lt_of_not_le habove)
    exact absurd (lt_roundQuotient hd hmiddle) (Nat.not_lt.2 hround)
  · intro h
    apply roundQuotient_le hd
    rw [Nat.mul_right_comm]
    exact Nat.mul_le_mul_right _ h

/-! ## The exponent of a quotient -/

/-- At the exponent that is tried first the significand has 53 bits at least. -/
theorem le_mul_pow_of_log2 {j : Nat} (hn : 0 < n) (hj : (n.log2 : Int) - d.log2 - 53 = -j) :
    2 ^ 52 * d ≤ n * 2 ^ j := by
  have hlow := Nat.log2_self_le (Nat.ne_of_gt hn)
  have hhigh := @Nat.lt_log2_self d
  calc 2 ^ 52 * d ≤ 2 ^ 52 * 2 ^ (d.log2 + 1) := Nat.mul_le_mul_left _ hhigh.le
    _ = 2 ^ n.log2 * 2 ^ j := by
      rw [← Nat.pow_add, ← Nat.pow_add]
      congr 1
      omega
    _ ≤ n * 2 ^ j := Nat.mul_le_mul_right _ hlow

/-- The significand of a quotient has 53 bits at least and its unit is one at most, save for the
greatest quotient. -/
theorem exponentOf_spec (hn : 0 < n) (hd : 0 < d) (hn' : n ≤ 2 ^ 53) (hd' : d ≤ 2 ^ 53) :
    exponentOf n d ≤ 0 ∧ 2 ^ 52 * d ≤ n * 2 ^ (exponentOf n d).natAbs ∨ n = 2 ^ 53 ∧ d = 1 := by
  have hlogn : n.log2 < 54 := (Nat.log2_lt (Nat.ne_of_gt hn)).2 (by omega)
  have hlogd : d.log2 < 54 := (Nat.log2_lt (Nat.ne_of_gt hd)).2 (by omega)
  obtain ⟨j, hj⟩ : ∃ j : Nat, (n.log2 : Int) - d.log2 - 53 = -j := ⟨53 + d.log2 - n.log2, by omega⟩
  have hexponent : exponentOf n d = if n * 2 ^ j / d < 2 ^ 53 then -(j : Int) else -(j : Int) + 1 := by
    have hscaled : scaled n d (-(j : Int)) = (n * 2 ^ j, d) := by
      rw [scaled_of_nonpos (by omega), Int.natAbs_neg, Int.natAbs_natCast]
    simp only [exponentOf, hj, hscaled, leastExponent, Nat.pow_eq]
    split <;> omega
  by_cases hfits : n * 2 ^ j / d < 2 ^ 53
  · rw [hexponent, if_pos hfits, Int.natAbs_neg, Int.natAbs_natCast]
    exact .inl ⟨by omega, le_mul_pow_of_log2 hn hj⟩
  rw [hexponent, if_neg hfits]
  have hwide : 2 ^ 53 * d ≤ n * 2 ^ j := (Nat.le_div_iff_mul_le hd).1 (Nat.le_of_not_lt hfits)
  -- a significand of 54 bits has its unit doubled
  cases j with
  | zero =>
      rw [Nat.pow_zero, Nat.mul_one] at hwide
      exact .inr ⟨by omega, by omega⟩
  | succ j =>
      have habs : (-((j + 1 : Nat) : Int) + 1).natAbs = j := by omega
      have hdouble : n * 2 ^ (j + 1) = 2 * (n * 2 ^ j) := by
        rw [Nat.pow_succ, Nat.mul_comm (2 ^ j), Nat.mul_left_comm]
      rw [habs]
      exact .inl ⟨by omega, by omega⟩

/-! ## Ceilings -/

theorem zpow_of_nonpos {e : Int} (he : e ≤ 0) (q : ℚ) : q * 2 ^ e = q / (2 ^ e.natAbs : Nat) := by
  have hneg : e = -(e.natAbs : Int) := by omega
  rw [hneg, zpow_neg, zpow_natCast, Int.natAbs_neg, Int.natAbs_natCast, div_eq_mul_inv]
  push_cast
  rfl

theorem ceil?_finite (m : Nat) (e : Int) :
    (finite false m e).ceil? = some ⌈(m : ℚ) * 2 ^ e⌉ := by
  rw [ceil?]
  refine congrArg some ?_
  rcases Int.lt_or_le e 0 with he | he
  · rw [if_neg (Int.not_le.2 he), zpow_of_nonpos he.le, Rat.ceil_natCast_div_natCast]
    rfl
  · obtain ⟨j, rfl⟩ := Int.eq_ofNat_of_zero_le he
    have hvalue : (m : ℚ) * 2 ^ (j : Int) = ((m * 2 ^ j : Int) : ℚ) := by
      push_cast
      rw [zpow_natCast]
    rw [if_pos he, hvalue, Int.ceil_intCast]
    simp

/-- The ceiling of a rounded quotient below the greatest exponents is that of its significand and its
exponent, also where the significand is rounded up to 54 bits. -/
theorem ceil?_ofRatio_of_le (hn : 0 < n) (he : exponentOf n d ≤ 0) :
    (ofRatio false n d).ceil? =
      some ⌈(roundQuotient (n * 2 ^ (exponentOf n d).natAbs) d : ℚ) * 2 ^ exponentOf n d⌉ := by
  rw [ofRatio, if_neg (Nat.ne_of_gt hn)]
  generalize exponentOf n d = e at he
  simp only [scaled_of_nonpos he]
  by_cases hround : roundQuotient (n * 2 ^ e.natAbs) d = Nat.pow 2 53
  · have hvalue : ((Nat.pow 2 52 : Nat) : ℚ) * 2 ^ (e + 1) = (Nat.pow 2 53 : Nat) * 2 ^ e := by
      rw [zpow_add_one₀ (by norm_num)]
      norm_num
      ring
    simp only [if_pos hround]
    rw [if_neg (by rw [greatestExponent]; omega), ceil?_finite, hvalue, hround]
  · simp only [if_neg hround]
    rw [if_neg (by rw [greatestExponent]; omega), ceil?_finite]

/-- **Rounding does not carry the ceiling of a quotient to another integer** up to `2 ^ 53`. -/
theorem ceil?_ofRatio (hn : 0 < n) (hd : 0 < d) (hn' : n ≤ 2 ^ 53) (hd' : d ≤ 2 ^ 53) :
    (ofRatio false n d).ceil? = some ⌈(n : ℚ) / d⌉ := by
  rcases exponentOf_spec hn hd hn' hd' with ⟨he, hbits⟩ | ⟨rfl, rfl⟩
  · rw [ceil?_ofRatio_of_le hn he, zpow_of_nonpos he]
    generalize (exponentOf n d).natAbs = j at hbits
    refine congrArg some (eq_of_forall_ge_iff fun z => ?_)
    have hunit : (0 : ℚ) < (2 ^ j : Nat) := by positivity
    rw [Int.ceil_le, Int.ceil_le, div_le_iff₀ hunit, div_le_iff₀ (Nat.cast_pos.2 hd)]
    rcases Int.lt_or_le z 0 with hz | hz
    -- neither is below zero
    · have hz : (z : ℚ) < 0 := Int.cast_lt_zero.2 hz
      refine iff_of_false ?_ ?_
      · rw [not_le]
        exact (mul_neg_of_neg_of_pos hz hunit).trans_le (Nat.cast_nonneg _)
      · rw [not_le]
        exact (mul_neg_of_neg_of_pos hz (Nat.cast_pos.2 hd)).trans_le (Nat.cast_nonneg _)
    · obtain ⟨c, rfl⟩ := Int.eq_ofNat_of_zero_le hz
      exact_mod_cast roundQuotient_le_mul_iff hd hn' hbits
  · have hgreatest : ofRatio false (2 ^ 53) 1 = finite false (2 ^ 52) 1 := by decide +kernel
    rw [hgreatest, ceil?_finite]
    norm_num

end Binary64

namespace NumberedPage

/-- **The number of pages is exact** up to `2 ^ 53` rows: it is the quotient of the number of rows and
the size rounded up, and a page follows exactly if there are more rows than up to its end. -/
theorem pageCount_exact {p : NumberedPage} (htotal : 0 ≤ p.total) (htotal' : p.total ≤ 2 ^ 53)
    (hsize : 1 ≤ p.size) (hsize' : p.size ≤ 2 ^ 53) :
    p.pageCount = .ok ⌈(p.total : ℚ) / p.size⌉ ∧
      p.hasNext = .ok (decide (p.page * p.size < p.total)) := by
  have hcount : p.pageCount = .ok ⌈(p.total : ℚ) / p.size⌉ := by
    rw [pageCount]
    rcases Int.lt_or_eq_of_le htotal with hpos | hzero
    · obtain ⟨n, hn⟩ := Int.eq_ofNat_of_zero_le htotal
      obtain ⟨d, hd⟩ := Int.eq_ofNat_of_zero_le (show 0 ≤ p.size by omega)
      rw [if_neg (by omega), hn, hd, Int.toNat_natCast, Int.toNat_natCast,
        Binary64.ceil?_ofRatio (by omega) (by omega) (by omega) (by omega)]
      rfl
    · rw [if_pos (.inr hzero.ge), ← hzero]
      simp
  refine ⟨hcount, ?_⟩
  have hpos : (0 : ℚ) < p.size := by exact_mod_cast hsize
  have hnext : p.page < ⌈(p.total : ℚ) / p.size⌉ ↔ p.page * p.size < p.total := by
    rw [Int.lt_ceil, lt_div_iff₀ hpos]
    exact_mod_cast Iff.rfl
  rw [hasNext, hcount, Result.ok_bind, decide_eq_decide.2 hnext]
  rfl

/-- The quotient here is above one by barely more than half a unit of its significand. -/
theorem pageCount_exact_greatest :
    (0 : Int) ≤ 2 ^ 53 ∧ (2 ^ 53 : Int) ≤ 2 ^ 53 ∧ (1 : Int) ≤ 2 ^ 53 - 1 ∧
    (2 ^ 53 - 1 : Int) ≤ 2 ^ 53 ∧
    (NumberedPage.mk [] 1 (2 ^ 53 - 1) (2 ^ 53)).pageCount = .ok 2 ∧
    (NumberedPage.mk [] 1 (2 ^ 53 - 1) (2 ^ 53)).hasNext = .ok true := by
  obtain ⟨hcount, hnext⟩ := pageCount_exact (p := ⟨[], 1, 2 ^ 53 - 1, 2 ^ 53⟩) (by decide) le_rfl
    (by decide) (by decide)
  have hceil : ⌈(((2 : Int) ^ 53 : Int) : ℚ) / ((2 ^ 53 - 1 : Int) : ℚ)⌉ = 2 := by
    rw [Int.ceil_eq_iff]
    norm_num
  exact ⟨by decide, le_rfl, by decide, by decide, hcount.trans (congrArg Except.ok hceil), hnext⟩

end NumberedPage

end Listing
