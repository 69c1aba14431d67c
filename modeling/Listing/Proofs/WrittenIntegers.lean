import Mathlib.Algebra.Group.Nat.Defs
import Mathlib.Data.List.Induction
import Mathlib.Data.Nat.Digits.Defs
import Listing.Number.Decimal
import Listing.Proofs.CutTexts

/-!
# Integers that are read back

The digits of a number are plain, they do not start with a zero unless the number is zero, and they
read as the number, after a sign if there is one, unless there are more of them than `digitLimit`
(`readInteger_signed`). So an integer that is read, from digits of any script, is one that can be
written (`width_le_of_readInteger`).
-/

set_option autoImplicit false

namespace Listing

open Text

namespace Text

/-- The value of a plain digit. -/
def plainValue (c : Char) : Nat :=
  c.toNat - 48

theorem isPlainDigit_digitChar : ∀ d < 10, isPlainDigit (digitChar d) = true := by decide

theorem plainValue_digitChar : ∀ d < 10, plainValue (digitChar d) = d := by decide

theorem bounds_of_isPlainDigit {c : Char} (h : isPlainDigit c = true) :
    48 ≤ c.toNat ∧ c.toNat ≤ 57 :=
  of_decide_eq_true h

theorem digit?_of_isPlainDigit {c : Char} (h : isPlainDigit c = true) :
    digit? c = some (plainValue c) := by
  have hc := bounds_of_isPlainDigit h
  simp only [digit?, plainValue]
  rw [if_pos (by omega), if_pos hc]

/-- The value of a digit, whatever its script, is below ten. -/
theorem digit?_lt {c : Char} {d : Nat} (h : digit? c = some d) : d < 10 := by
  simp only [digit?] at h
  split at h
  · split at h
    · obtain rfl := Option.some.inj h
      omega
    · exact absurd h nofun
  · obtain ⟨first, hfirst, rfl⟩ := Option.map_eq_some_iff.1 h
    have hrow := List.find?_some hfirst
    rw [decide_eq_true_eq] at hrow
    omega

theorem digits_ne_nil (n : Nat) : digits n ≠ [] := by
  rw [digits]
  split <;> simp

theorem digits_zero : digits 0 = ['0'] := by
  rw [digits]
  rfl

theorem isPlainDigit_of_mem_digits (n : Nat) : ∀ c ∈ digits n, isPlainDigit c = true := by
  induction n using digits.induct with
  | case1 n hn =>
      rw [digits, if_pos hn]
      intro c hc
      rw [List.mem_singleton] at hc
      exact hc ▸ isPlainDigit_digitChar n hn
  | case2 n hn ih =>
      rw [digits, if_neg hn]
      intro c hc
      rcases List.mem_append.1 hc with hc | hc
      · exact ih c hc
      · rw [List.mem_singleton] at hc
        exact hc ▸ isPlainDigit_digitChar (n % 10) (Nat.mod_lt n (by omega))

theorem ofDigits_append (base : Nat) (ds : List Nat) (d : Nat) :
    ofDigits base (ds ++ [d]) = base * ofDigits base ds + d := by
  simp [ofDigits]

/-- The digits of a number have the number for their value. -/
theorem ofDigits_map_plainValue_digits (n : Nat) : ofDigits 10 ((digits n).map plainValue) = n := by
  induction n using digits.induct with
  | case1 n hn =>
      rw [digits, if_pos hn]
      simp [ofDigits, plainValue_digitChar n hn]
  | case2 n hn ih =>
      rw [digits, if_neg hn, List.map_append, List.map_singleton, ofDigits_append, ih,
        plainValue_digitChar (n % 10) (Nat.mod_lt n (by omega))]
      omega

/-- The digits of a positive number do not start with a zero. -/
theorem digits_ne_zero_cons {n : Nat} (h : 0 < n) (rest : List Char) : digits n ≠ '0' :: rest := by
  induction n using digits.induct generalizing rest with
  | case1 n hn =>
      rw [digits, if_pos hn]
      -- a single digit is its own value, and the number is not zero
      intro heq
      have hv := plainValue_digitChar n hn
      rw [(List.cons.inj heq).1] at hv
      have hzero : plainValue '0' = 0 := rfl
      omega
  | case2 n hn ih =>
      rw [digits, if_neg hn]
      intro heq
      -- the first digit is that of `n / 10`, which is positive as well
      cases hd : digits (n / 10) with
      | nil => exact digits_ne_nil _ hd
      | cons c cs =>
          rw [hd, List.cons_append] at heq
          exact ih (by omega) cs (by rw [hd, (List.cons.inj heq).1])

/-- A number below a power of ten has no more digits than the exponent says. -/
theorem length_digits_le {n k : Nat} (h : n < 10 ^ (k + 1)) : (digits n).length ≤ k + 1 := by
  induction n using digits.induct generalizing k with
  | case1 n hn =>
      rw [digits, if_pos hn]
      exact Nat.succ_le_succ (Nat.zero_le k)
  | case2 n hn ih =>
      rw [digits, if_neg hn, List.length_append, List.length_singleton]
      cases k with
      | zero => omega
      | succ k =>
          have htenth : n / 10 < 10 ^ (k + 1) :=
            Nat.div_lt_of_lt_mul (by rwa [Nat.mul_comm, ← Nat.pow_succ])
          exact Nat.succ_le_succ (ih htenth)

/-- Digits are read from the most significant on. -/
theorem ofDigits_eq (base : Nat) (ds : List Nat) :
    ofDigits base ds = Nat.ofDigits base ds.reverse := by
  induction ds using List.reverseRecOn with
  | nil => rfl
  | append_singleton ds d ih =>
      rw [ofDigits_append, ih, List.reverse_append, List.reverse_singleton, List.singleton_append,
        Nat.ofDigits_cons, Nat.add_comm]

/-- Digits write a number below the power of the base that their number says. -/
theorem ofDigits_lt {base : Nat} (hbase : 1 < base) {ds : List Nat} (h : ∀ d ∈ ds, d < base) :
    ofDigits base ds < base ^ ds.length := by
  rw [ofDigits_eq, ← List.length_reverse]
  exact Nat.ofDigits_lt_base_pow_length hbase fun d hd => h d (List.mem_reverse.1 hd)

theorem isBlank_of_isPlainDigit {c : Char} (h : isPlainDigit c = true) : isBlank c = false := by
  have hc := bounds_of_isPlainDigit h
  have hplain : c.toNat < 128 := by omega
  simp only [isBlank, hplain, if_true, Bool.or_eq_false_iff, beq_eq_false_iff_ne,
    Bool.and_eq_false_iff, decide_eq_false_iff_not]
  omega

end Text

theorem takeDigits_of_isPlainDigit {cs : List Char} (h : ∀ c ∈ cs, isPlainDigit c = true) :
    takeDigits cs = (cs.map plainValue, []) := by
  induction cs with
  | nil => rfl
  | cons c cs ih =>
      rw [takeDigits, digit?_of_isPlainDigit (h c (by simp)), ih (fun d hd => h d (by simp [hd]))]
      rfl

theorem takeSign_of_isPlainDigit {cs : List Char} (h : ∀ c ∈ cs, isPlainDigit c = true) :
    takeSign cs = (false, cs) := by
  unfold takeSign
  split
  · exact absurd (h '-' (by simp)) (by decide)
  · exact absurd (h '+' (by simp)) (by decide)
  · rfl

/-- **A sign and the digits of a number** read as the number, or as too long. -/
theorem readInteger_signed (negative : Bool) (n : Nat) :
    readInteger (Decimal.signChars negative ++ digits n) =
      if Decimal.width n > digitLimit then .tooLong (Decimal.width n)
      else .read (if negative then -n else n) := by
  have hplain := isPlainDigit_of_mem_digits n
  have hsign : takeSign (Decimal.signChars negative ++ digits n) = (negative, digits n) := by
    cases negative with
    | true => rfl
    | false => exact takeSign_of_isPlainDigit hplain
  have hlength : ((digits n).map plainValue).length = Decimal.width n := List.length_map plainValue
  have hvalue := ofDigits_map_plainValue_digits n
  rw [readInteger, hsign]
  simp only [takeDigits_of_isPlainDigit hplain]
  cases hd : (digits n).map plainValue with
  | nil => exact absurd (List.map_eq_nil_iff.1 hd) (digits_ne_nil n)
  | cons d ds =>
      -- the reader counts the digits it was given before it reads them
      rw [hd] at hlength hvalue
      simp only [signedInteger, hlength, hvalue]

/-- **The digits of a number that is not too long read as the number.** -/
theorem readInteger_digits {n : Nat} (h : Decimal.width n ≤ digitLimit) :
    readInteger (digits n) = .read n := by
  have hread := readInteger_signed false n
  rwa [if_neg (Nat.not_lt.2 h)] at hread

theorem lt_of_mem_takeDigits (cs : List Char) : ∀ d ∈ (takeDigits cs).1, d < 10 := by
  induction cs with
  | nil => exact fun d hd => absurd hd List.not_mem_nil
  | cons c cs ih =>
      intro d hd
      rw [takeDigits] at hd
      cases hc : digit? c with
      | none =>
          rw [hc] at hd
          exact absurd hd List.not_mem_nil
      | some value =>
          rw [hc] at hd
          rcases List.mem_cons.1 hd with rfl | hd
          · exact digit?_lt hc
          · exact ih d hd

theorem width_le_of_signedInteger {negative : Bool} {ds : List Nat} {i : Int} (hne : ds ≠ [])
    (hdigits : ∀ d ∈ ds, d < 10) (h : signedInteger negative ds = .read i) :
    Decimal.width i.natAbs ≤ digitLimit := by
  rw [signedInteger] at h
  split at h
  · exact absurd h nofun
  · next hlength =>
      have hvalue : i.natAbs = ofDigits 10 ds := by
        rw [← IntegerReading.read.inj h]
        cases negative with
        | true => exact Int.natAbs_neg _
        | false => rfl
      have hbound := ofDigits_lt (by decide) hdigits
      obtain ⟨k, hk⟩ := Nat.exists_eq_succ_of_ne_zero (mt List.length_eq_zero_iff.1 hne)
      rw [hk] at hbound
      rw [hvalue]
      rw [hk] at hlength
      exact (length_digits_le hbound).trans (Nat.not_lt.1 hlength)

/-- **An integer that is read has no more digits than a written one may have.** -/
theorem width_le_of_readInteger {cs : List Char} {i : Int} (h : readInteger cs = .read i) :
    Decimal.width i.natAbs ≤ digitLimit := by
  simp only [readInteger] at h
  have hdigits := lt_of_mem_takeDigits (takeSign cs).2
  split at h
  · exact absurd h nofun
  · next ds hne htaken =>
      rw [htaken] at hdigits
      exact width_le_of_signedInteger hne hdigits h
  · exact absurd h nofun

/-- The text of an integer is a sign and digits. -/
theorem integerChars_eq (i : Int) :
    integerChars i = Decimal.signChars (decide (i < 0)) ++ digits i.natAbs := by
  by_cases h : i < 0
  · rw [integerChars, if_pos h, decide_eq_true h]
    rfl
  · rw [integerChars, if_neg h, decide_eq_false h]
    rfl

theorem takeDigits_snd_ne_nil {cs : List Char} {c : Char} (hc : c ∈ cs) (hdigit : digit? c = none) :
    (takeDigits cs).2 ≠ [] := by
  induction cs with
  | nil => exact absurd hc List.not_mem_nil
  | cons d cs ih =>
      rw [takeDigits]
      cases hd : digit? d with
      | none => exact List.cons_ne_nil _ _
      | some n =>
          rcases List.mem_cons.1 hc with rfl | hc
          · exact absurd (hd.symm.trans hdigit) (by simp)
          · exact ih hc

/-- A text with a character that is neither a digit nor a sign is no integer. -/
theorem readInteger_of_mem {cs : List Char} {c : Char} (hc : c ∈ cs) (hdigit : digit? c = none)
    (hminus : c ≠ '-') (hplus : c ≠ '+') : readInteger cs = .malformed := by
  have hbody : c ∈ (takeSign cs).2 := by
    unfold takeSign
    split
    · exact (List.mem_cons.1 hc).resolve_left hminus
    · exact (List.mem_cons.1 hc).resolve_left hplus
    · exact hc
  have hrest := takeDigits_snd_ne_nil hbody hdigit
  rw [readInteger]
  generalize takeSign cs = sign at hrest
  obtain ⟨negative, body⟩ := sign
  simp only at hrest ⊢
  generalize takeDigits body = taken at hrest
  obtain ⟨ds, rest⟩ := taken
  cases rest with
  | nil => exact absurd rfl hrest
  | cons d rest => cases ds <;> rfl

end Listing
