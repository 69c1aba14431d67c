import Mathlib.Data.List.Nodup
import Listing.Proofs.CutTexts
import Listing.Proofs.WrittenIntegers
import Listing.Relational.Text

/-!
# Names of parameters

The name of a parameter is read back as its stem and the number after its last underscore
(`parameterName_inj`), so a stem that ends in a number is not taken for another one with a number.
The parameters of one stem are numbered in order, hence the names of parameters are pairwise distinct,
whatever their stems are (`nodup_parameterNames`).
-/

set_option autoImplicit false

namespace Listing

open Text

/-! ## One name -/

theorem toList_parameterName (s : String) (n : Nat) :
    (parameterName s n).toList = s.toList ++ '_' :: digits n := by
  have hdigits : (integerText n).toList = digits n := by
    rw [integerText, String.toList_ofList, integerChars, if_neg (by omega), Int.natAbs_natCast]
  rw [parameterName, String.toList_append, String.toList_append, hdigits, List.append_assoc]
  rfl

theorem digits_inj {m n : Nat} (h : digits m = digits n) : m = n := by
  rw [← ofDigits_map_plainValue_digits m, h, ofDigits_map_plainValue_digits]

/-- **A name has one stem and one number.** The stem may have underscores and digits of its own; the
number is what follows the last underscore. -/
theorem parameterName_inj {s t : String} {m n : Nat} (h : parameterName s m = parameterName t n) :
    s = t ∧ m = n := by
  have hdigits : ∀ k, '_' ∉ (digits k).reverse := fun k hmem =>
    absurd (isPlainDigit_of_mem_digits k '_' (List.mem_reverse.1 hmem)) (by decide)
  -- read backwards, a name is cut where its first underscore stands
  have hcut : ∀ (u : String) (k : Nat), cutChars '_' (parameterName u k).toList.reverse =
      some ((digits k).reverse, u.toList.reverse) := by
    intro u k
    rw [toList_parameterName, List.reverse_append, List.reverse_cons, List.append_assoc,
      List.singleton_append, cutChars_append (hdigits k)]
  have hsame := hcut s m
  rw [h, hcut t n] at hsame
  obtain ⟨hnumber, hstem⟩ := Prod.mk.inj (Option.some.inj hsame)
  exact ⟨String.toList_inj.1 (List.reverse_inj.1 hstem).symm,
    (digits_inj (List.reverse_inj.1 hnumber)).symm⟩

/-! ## The names of a text -/

theorem length_parameterNames (before stems : List String) :
    (parameterNames before stems).length = stems.length := by
  induction stems generalizing before with
  | nil => rfl
  | cons s stems ih => rw [parameterNames, List.length_cons, List.length_cons, ih]

section

variable {before stems : List String}

/-- A parameter has a number above those of its stem before it. -/
theorem exists_of_mem_parameterNames {name : String} (h : name ∈ parameterNames before stems) :
    ∃ s n, before.count s < n ∧ name = parameterName s n := by
  induction stems generalizing before with
  | nil => exact absurd h List.not_mem_nil
  | cons s stems ih =>
      rcases List.mem_cons.1 h with rfl | h
      · exact ⟨s, before.count s + 1, by omega, rfl⟩
      · obtain ⟨t, n, hn, rfl⟩ := ih h
        have hcount : before.count t ≤ (s :: before).count t := List.count_le_count_cons
        exact ⟨t, n, by omega, rfl⟩

/-- **The names of parameters are pairwise distinct.** -/
theorem nodup_parameterNames : (parameterNames before stems).Nodup := by
  induction stems generalizing before with
  | nil => exact List.nodup_nil
  | cons s stems ih =>
      refine List.nodup_cons.2 ⟨fun hmem => ?_, ih⟩
      obtain ⟨t, n, hn, hname⟩ := exists_of_mem_parameterNames hmem
      -- a later parameter of the same stem has a greater number
      obtain ⟨rfl, hnumber⟩ := parameterName_inj hname
      rw [List.count_cons_self] at hn
      omega

end

end Listing
