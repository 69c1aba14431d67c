import Mathlib.Algebra.Group.Nat.Defs
import Mathlib.Data.List.Basic
import Listing.Proofs.WrittenIntegers
import Listing.Uuid

/-!
# Identifiers that are read back

The text of an identifier has nothing in it that the reader passes over but its four hyphens, and
reads as the identifier (`Uuid.readChars_chars`).
-/

set_option autoImplicit false

namespace Listing

open Text

namespace Uuid

/-- What the digits of an identifier are: hexadecimal digits in lower case. -/
def IsHex (c : Char) : Prop :=
  ∃ d < 16, c = digitChar d

theorem isHex_of_mem_paddedHex (width n : Nat) : ∀ c ∈ paddedHex width n, IsHex c := by
  induction width generalizing n with
  | zero =>
      intro c hc
      exact absurd hc List.not_mem_nil
  | succ width ih =>
      intro c hc
      rcases List.mem_append.1 hc with hc | hc
      · exact ih (n / 16) c hc
      · exact ⟨n % 16, Nat.mod_lt n (by omega), List.mem_singleton.1 hc⟩

theorem length_paddedHex (width n : Nat) : (paddedHex width n).length = width := by
  induction width generalizing n with
  | zero => rfl
  | succ width ih => rw [paddedHex, List.length_append, ih, List.length_singleton]

/-- No digit is anything that the reader passes over or takes for more than a digit. -/
theorem hexDigit?_digitChar_eq : ∀ d < 16, hexDigit? (digitChar d) = some d ∧
    isBlank (digitChar d) = false ∧ digitChar d ∉ ['u', '-', '+', '_', 'x', 'X'] ∧
      (digitChar d).toNat ≠ 123 ∧ (digitChar d).toNat ≠ 125 := by decide

theorem IsHex.ne {c d : Char} (h : IsHex c) (hd : d ∈ ['u', '-', '+', '_', 'x', 'X']) : c ≠ d := by
  obtain ⟨n, hn, rfl⟩ := h
  rintro rfl
  exact (hexDigit?_digitChar_eq n hn).2.2.1 hd

/-- A word that starts with another character than any of the text does not occur in it. -/
theorem dropWords_eq_self {w : Char} {word cs : List Char} (h : ∀ c ∈ cs, c ≠ w) :
    dropWords (w :: word) 0 cs = cs := by
  induction cs with
  | nil => rfl
  | cons c cs ih =>
      have hprefix : (w :: word).isPrefixOf (c :: cs) = false := by
        rw [List.isPrefixOf, beq_eq_false_iff_ne.2 (h c (by simp)).symm, Bool.false_and]
      rw [dropWords, hprefix, if_neg Bool.false_ne_true, ih fun d hd => h d (by simp [hd])]

theorem stripBraces_eq_self {cs : List Char} (h : ∀ c ∈ cs, c.toNat ≠ 123 ∧ c.toNat ≠ 125) :
    stripBraces cs = cs := by
  have hfront : ∀ {ds : List Char}, (∀ c ∈ ds, c.toNat ≠ 123 ∧ c.toNat ≠ 125) →
      ds.dropWhile (fun c => c.toNat == 123 || c.toNat == 125) = ds := by
    intro ds hds
    cases ds with
    | nil => rfl
    | cons d ds =>
        obtain ⟨hopen, hclose⟩ := hds d (by simp)
        rw [List.dropWhile_cons_of_neg]
        simp [hopen, hclose]
  rw [stripBraces, hfront h, hfront fun c hc => h c (List.mem_reverse.1 hc), List.reverse_reverse]

/-- The value of a hexadecimal digit. -/
def hexValue (c : Char) : Nat :=
  (hexDigit? c).getD 0

/-- Digits with no underscore among them are read one by one. -/
theorem groupedDigits_of_isHex {cs : List Char} (h : ∀ c ∈ cs, IsHex c) (hne : cs ≠ []) :
    groupedDigits hexDigit? cs = some (cs.map hexValue) := by
  have hvalue : ∀ {c : Char}, IsHex c → hexDigit? c = some (hexValue c) := by
    rintro c ⟨d, hd, rfl⟩
    rw [hexValue, (hexDigit?_digitChar_eq d hd).1]
    rfl
  induction cs with
  | nil => exact absurd rfl hne
  | cons c cs ih =>
      have hc := hvalue (h c (by simp))
      cases cs with
      | nil => simp only [groupedDigits, hc, Option.map_some, List.map_cons, List.map_nil]
      | cons d cs =>
          have hd : d ≠ '_' := (h d (by simp)).ne (by simp)
          have hrest := ih (fun e he => h e (List.mem_cons_of_mem c he)) (List.cons_ne_nil d cs)
          rw [groupedDigits, hc, hrest]
          · rfl
          · exact List.cons_ne_nil d cs
          · exact fun rest heq => hd (List.cons.inj heq).1

/-- The hexadecimal digits of a number have the number for their value. -/
theorem ofDigits_paddedHex (width n : Nat) :
    ofDigits 16 ((paddedHex width n).map hexValue) = n % 16 ^ width := by
  induction width generalizing n with
  | zero =>
      rw [Nat.pow_zero, Nat.mod_one]
      rfl
  | succ width ih =>
      have hlast : hexValue (digitChar (n % 16)) = n % 16 := by
        rw [hexValue, (hexDigit?_digitChar_eq (n % 16) (Nat.mod_lt n (by omega))).1]
        rfl
      rw [paddedHex, List.map_append, List.map_singleton, ofDigits_append, ih, hlast,
        Nat.pow_succ', Nat.mod_mul]
      omega

theorem isHex_of_mem_hexChars (u : Uuid) : ∀ c ∈ u.hexChars, IsHex c :=
  isHex_of_mem_paddedHex 32 u.number

theorem length_hexChars (u : Uuid) : u.hexChars.length = 32 :=
  length_paddedHex 32 u.number

theorem readHex_hexChars (u : Uuid) : readHex u.hexChars = some (.ofNat u.number) := by
  have hhex := isHex_of_mem_hexChars u
  have htrim : trimChars u.hexChars = u.hexChars := by
    refine trimChars_of_isBlank fun c hc => ?_
    obtain ⟨d, hd, rfl⟩ := hhex c hc
    exact (hexDigit?_digitChar_eq d hd).2.1
  have hsign : takeSign u.hexChars = (false, u.hexChars) := by
    unfold takeSign
    split
    · next heq => exact absurd rfl ((hhex '-' (by simp [heq])).ne (by simp))
    · next heq => exact absurd rfl ((hhex '+' (by simp [heq])).ne (by simp))
    · rfl
  have hmark : ∀ {x : Char}, x ∈ u.hexChars → (x == 'x' || x == 'X') = false := by
    intro x hx
    have hne := hhex x hx
    rw [Bool.or_eq_false_iff, beq_eq_false_iff_ne, beq_eq_false_iff_ne]
    exact ⟨hne.ne (by simp), hne.ne (by simp)⟩
  have hdigits : groupedDigits hexDigit? u.hexChars = some (u.hexChars.map hexValue) := by
    refine groupedDigits_of_isHex hhex (List.length_pos_iff.1 ?_)
    rw [length_hexChars]
    decide
  have hnumber : ofDigits 16 (u.hexChars.map hexValue) = u.number := by
    rw [hexChars, ofDigits_paddedHex]
    exact Nat.mod_eq_of_lt u.bounded
  have hread : (groupedDigits hexDigit? u.hexChars).map (fun ds => (ofDigits 16 ds : Int)) =
      some (.ofNat u.number) := by
    rw [hdigits, Option.map_some, hnumber]
    rfl
  simp only [readHex, htrim, hsign, Bool.false_eq_true, if_false]
  -- no mark of a base is taken off, since no digit is the mark
  split
  · next heq => rw [hmark (by simp [heq]), if_neg Bool.false_ne_true, hread]
  · next heq => rw [hmark (by simp [heq]), if_neg Bool.false_ne_true, hread]
  · exact hread

/-! ## Texts -/

theorem mem_chars {u : Uuid} {c : Char} (h : c ∈ u.chars) : IsHex c ∨ c = '-' := by
  have hhex := isHex_of_mem_hexChars u
  simp only [chars, List.mem_append, List.mem_cons] at h
  rcases h with (((h | rfl | h) | rfl | h) | rfl | h) | rfl | h
  · exact Or.inl (hhex c (List.mem_of_mem_take h))
  · exact Or.inr rfl
  · exact Or.inl (hhex c (List.mem_of_mem_drop (List.mem_of_mem_take h)))
  · exact Or.inr rfl
  · exact Or.inl (hhex c (List.mem_of_mem_drop (List.mem_of_mem_take h)))
  · exact Or.inr rfl
  · exact Or.inl (hhex c (List.mem_of_mem_drop (List.mem_of_mem_take h)))
  · exact Or.inr rfl
  · exact Or.inl (hhex c (List.mem_of_mem_drop h))

/-- The digits are what is left without the hyphens. -/
theorem filter_chars (u : Uuid) : u.chars.filter (· != '-') = u.hexChars := by
  have hkeep : ∀ {cs : List Char}, (∀ c ∈ cs, c ∈ u.hexChars) → cs.filter (· != '-') = cs := by
    intro cs hcs
    rw [List.filter_eq_self]
    exact fun c hc => bne_iff_ne.2 ((isHex_of_mem_hexChars u c (hcs c hc)).ne (by simp))
  have hjoin : ∀ k, (u.hexChars.drop k).take 4 ++ u.hexChars.drop (k + 4) = u.hexChars.drop k := by
    intro k
    rw [← List.drop_drop, List.take_append_drop]
  simp only [chars, List.filter_append, List.filter_cons, bne_self_eq_false, Bool.false_eq_true,
    if_false, List.append_assoc]
  rw [hkeep fun c hc => List.mem_of_mem_take hc,
    hkeep fun c hc => List.mem_of_mem_drop (List.mem_of_mem_take hc),
    hkeep fun c hc => List.mem_of_mem_drop (List.mem_of_mem_take hc),
    hkeep fun c hc => List.mem_of_mem_drop (List.mem_of_mem_take hc),
    hkeep fun c hc => List.mem_of_mem_drop hc, hjoin 16, hjoin 12, hjoin 8, List.take_append_drop]

/-- **An identifier is read back.** -/
theorem readChars_chars (u : Uuid) : readChars u.chars = some u := by
  have hletter : ∀ c ∈ u.chars, c ≠ 'u' ∧ c.toNat ≠ 123 ∧ c.toNat ≠ 125 := by
    intro c hc
    rcases mem_chars hc with hhex | rfl
    · refine ⟨hhex.ne (by simp), ?_⟩
      obtain ⟨d, hd, rfl⟩ := hhex
      exact (hexDigit?_digitChar_eq d hd).2.2.2
    · decide
  have hplain : dropWords "uuid:".toList 0 (dropWords "urn:".toList 0 u.chars) = u.chars := by
    rw [show "urn:".toList = ['u', 'r', 'n', ':'] from rfl,
      show "uuid:".toList = ['u', 'u', 'i', 'd', ':'] from rfl,
      dropWords_eq_self fun c hc => (hletter c hc).1,
      dropWords_eq_self fun c hc => (hletter c hc).1]
  rw [readChars]
  simp only [hplain, stripBraces_eq_self fun c hc => (hletter c hc).2, filter_chars,
    length_hexChars, if_true, readHex_hexChars, u.bounded, dite_true]

theorem read?_text (u : Uuid) : read? u.text = some u := by
  rw [read?, text, String.toList_ofList]
  exact readChars_chars u

end Uuid

end Listing
