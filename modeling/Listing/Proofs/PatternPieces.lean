import Listing.Proofs.PortablePatterns

/-!
# Patterns as cuts of a text

Without regard to case, two characters are one letter if they have one lower case, or if their lower
cases are letters of one upper case (`Text.SameLetter`); the folds of characters decide it
(`Text.fold_eq_fold_iff`).

A written pattern says how a text is cut: into consecutive pieces, one for each element from left to
right (`Wildcard.Takes`). A pattern is found to match exactly the texts that can be cut in this way
(`Wildcard.matchesAll_cut`).
-/

set_option autoImplicit false

namespace Listing

/-! ## Letters without regard to case -/

namespace Text

/-- The code points of the lower-case letters that share their upper case with others, each with
those others. -/
def sharedCases : List (List Nat) := [
  [0x69, 0x131], [0x73, 0x17F], [0xB5, 0x3BC], [0x345, 0x3B9, 0x1FBE], [0x390, 0x1FD3],
  [0x3B0, 0x1FE3], [0x3B2, 0x3D0], [0x3B5, 0x3F5], [0x3B8, 0x3D1], [0x3BA, 0x3F0], [0x3C0, 0x3D6],
  [0x3C1, 0x3F1], [0x3C2, 0x3C3], [0x3C6, 0x3D5], [0x432, 0x1C80], [0x434, 0x1C81], [0x43E, 0x1C82],
  [0x441, 0x1C83], [0x442, 0x1C84, 0x1C85], [0x44A, 0x1C86], [0x463, 0x1C87], [0x1C88, 0xA64B],
  [0x1E61, 0x1E9B], [0xFB05, 0xFB06]]

/-- Two characters are one letter without regard to case: they have the same lower case, or their
lower cases share an upper case. -/
def SameLetter (a b : Char) : Prop :=
  lowerChar a = lowerChar b ∨
    ∃ letters ∈ sharedCases, (lowerChar a).toNat ∈ letters ∧ (lowerChar b).toNat ∈ letters

/-- The code point that stands for a lower-case letter and those it shares an upper case with. -/
def foldPoint (n : Nat) : Nat :=
  if n < 128 then n
  else match foldRepresentatives.find? (·.1 == n) with
    | some (_, r) => r
    | none => n

theorem foldRepresentatives_valid : ∀ e ∈ foldRepresentatives, e.2.isValidChar := by
  decide +kernel

/-- Letters are folded by the code points of their lower cases. -/
theorem toNat_fold (c : Char) : (fold c).toNat = foldPoint (lowerChar c).toNat := by
  cases hfound : foldRepresentatives.find? (·.1 == (lowerChar c).toNat) with
  | none =>
      simp only [fold, foldPoint, hfound]
      split <;> rfl
  | some e =>
      have hvalid := foldRepresentatives_valid e (List.mem_of_find?_eq_some hfound)
      simp only [fold, foldPoint, hfound]
      split
      · rfl
      · exact toNat_ofNat_of_isValidChar hvalid

/-- Every letter of a class is folded to the first one. -/
theorem foldPoint_of_mem :
    ∀ letters ∈ sharedCases, ∀ n ∈ letters, foldPoint n = letters.headD 0 := by
  decide +kernel

/-- The first letter of a class stands in that class and in no other. -/
theorem headD_mem_iff : ∀ letters ∈ sharedCases, ∀ others ∈ sharedCases,
    (letters.headD 0 ∈ others ↔ letters = others) := by
  decide +kernel

theorem foldRepresentatives_shared :
    ∀ e ∈ foldRepresentatives, ∃ letters ∈ sharedCases, e.1 ∈ letters := by
  decide +kernel

/-- Every other letter is folded to itself. -/
theorem foldPoint_of_not_mem {n : Nat} (h : ∀ letters ∈ sharedCases, n ∉ letters) :
    foldPoint n = n := by
  have hnone : foldRepresentatives.find? (·.1 == n) = none := by
    refine List.find?_eq_none.2 fun e he heq => ?_
    obtain ⟨letters, hletters, hmem⟩ := foldRepresentatives_shared e he
    exact h letters hletters (beq_iff_eq.1 heq ▸ hmem)
  rw [foldPoint, hnone, ite_self]

/-- Folding does not leave a class, and leads into none. -/
theorem foldPoint_mem_iff {n : Nat} {letters : List Nat} (h : letters ∈ sharedCases) :
    foldPoint n ∈ letters ↔ n ∈ letters := by
  by_cases hshared : ∃ others ∈ sharedCases, n ∈ others
  · obtain ⟨others, hothers, hn⟩ := hshared
    have hfirst := foldPoint_of_mem others hothers n hn
    rw [hfirst, headD_mem_iff others hothers letters h]
    constructor
    · rintro rfl
      exact hn
    · intro hmem
      -- the letter is folded to the first of either class
      have hsame : letters.headD 0 = others.headD 0 :=
        (foldPoint_of_mem letters h n hmem).symm.trans hfirst
      refine ((headD_mem_iff letters h others hothers).1 ?_).symm
      rw [hsame, headD_mem_iff others hothers others hothers]
  · rw [foldPoint_of_not_mem fun others hothers hn => hshared ⟨others, hothers, hn⟩]

theorem foldPoint_eq_iff {m n : Nat} : foldPoint m = foldPoint n ↔
    m = n ∨ ∃ letters ∈ sharedCases, m ∈ letters ∧ n ∈ letters := by
  constructor
  · intro h
    by_cases hshared : ∃ letters ∈ sharedCases, m ∈ letters
    · obtain ⟨letters, hletters, hm⟩ := hshared
      refine Or.inr ⟨letters, hletters, hm, ?_⟩
      rwa [← foldPoint_mem_iff hletters, ← h, foldPoint_mem_iff hletters]
    · have hm : ∀ letters ∈ sharedCases, m ∉ letters :=
        fun letters hletters hmem => hshared ⟨letters, hletters, hmem⟩
      have hn : ∀ letters ∈ sharedCases, n ∉ letters := by
        intro letters hletters hmem
        apply hm letters hletters
        rwa [← foldPoint_mem_iff hletters, h, foldPoint_mem_iff hletters]
      rw [foldPoint_of_not_mem hm, foldPoint_of_not_mem hn] at h
      exact Or.inl h
  · rintro (rfl | ⟨letters, hletters, hm, hn⟩)
    · rfl
    · rw [foldPoint_of_mem letters hletters m hm, foldPoint_of_mem letters hletters n hn]

/-- **Two characters have one fold if and only if they are one letter without regard to case.** -/
theorem fold_eq_fold_iff {a b : Char} : fold a = fold b ↔ SameLetter a b := by
  rw [← Char.toNat_inj, toNat_fold, toNat_fold, foldPoint_eq_iff, Char.toNat_inj]
  rfl

end Text

namespace Wildcard

theorem sameLetter_false_iff {a b : Char} : sameLetter false a b = true ↔ a = b :=
  beq_iff_eq

theorem sameLetter_true_iff {a b : Char} : sameLetter true a b = true ↔ Text.SameLetter a b :=
  beq_iff_eq.trans Text.fold_eq_fold_iff

/-! ## Pieces -/

/-- A written pattern takes the pieces of a text, one for each element from left to right, under a
given comparison of letters. -/
inductive Takes (same : Char → Char → Prop) : List Char → List (List Char) → Prop
  /-- Nothing is written, nothing is taken. -/
  | nil : Takes same [] []
  /-- A percent sign takes any run of characters. -/
  | anyRun (run : List Char) {rest : List Char} {pieces : List (List Char)}
      (hrest : Takes same rest pieces) : Takes same ('%' :: rest) (run :: pieces)
  /-- An underscore takes one character. -/
  | anyOne (c : Char) {rest : List Char} {pieces : List (List Char)}
      (hrest : Takes same rest pieces) : Takes same ('_' :: rest) ([c] :: pieces)
  /-- A backslash and the character after it take that character. -/
  | escaped {a c : Char} {rest : List Char} {pieces : List (List Char)} (h : same a c)
      (hrest : Takes same rest pieces) : Takes same ('\\' :: a :: rest) ([c] :: pieces)
  /-- A backslash at the end takes a backslash. -/
  | atEnd {c : Char} (h : same '\\' c) : Takes same ['\\'] [[c]]
  /-- Any other character takes itself. -/
  | letter {a c : Char} {rest : List Char} {pieces : List (List Char)}
      (hescape : a ≠ '\\') (hrun : a ≠ '%') (hone : a ≠ '_') (h : same a c)
      (hrest : Takes same rest pieces) : Takes same (a :: rest) ([c] :: pieces)

variable {same : Char → Char → Bool} {alike : Char → Char → Prop}

/-- The elements of a pattern describe the texts made of pieces that the pattern takes. -/
theorem Takes.describes (halike : ∀ a c, same a c = true ↔ alike a c) {cs : List Char}
    {pieces : List (List Char)} (h : Takes alike cs pieces) :
    Describes same (ofChars cs) pieces.flatten := by
  induction h with
  | nil => exact .nil
  | anyRun run _ ih => exact .anyRun run ih
  | anyOne c _ ih => exact .anyOne ih
  | escaped h _ ih => exact .letter ((halike _ _).2 h) ih
  | atEnd h => exact .letter ((halike _ _).2 h) .nil
  | letter hescape hrun hone h _ ih =>
      rw [ofChars_cons hescape hrun hone]
      exact .letter ((halike _ _).2 h) ih

/-- Every text that the elements of a pattern describe is cut into pieces that the pattern takes. -/
theorem exists_takes (halike : ∀ a c, same a c = true ↔ alike a c) {cs s : List Char}
    (h : Describes same (ofChars cs) s) : ∃ pieces, pieces.flatten = s ∧ Takes alike cs pieces := by
  induction cs using ofChars.induct generalizing s with
  | case1 =>
      obtain rfl := describes_nil_iff.1 h
      exact ⟨[], rfl, .nil⟩
  | case2 =>
      cases h with
      | letter h hrest =>
          obtain rfl := describes_nil_iff.1 hrest
          exact ⟨[[_]], rfl, .atEnd ((halike _ _).1 h)⟩
  | case3 a rest ih =>
      cases h with
      | letter h hrest =>
          obtain ⟨pieces, rfl, htakes⟩ := ih hrest
          exact ⟨[_] :: pieces, rfl, .escaped ((halike _ _).1 h) htakes⟩
  | case4 rest ih =>
      obtain ⟨run, after, rfl, hafter⟩ := describes_anyRun_iff.1 h
      obtain ⟨pieces, rfl, htakes⟩ := ih hafter
      exact ⟨run :: pieces, rfl, .anyRun run htakes⟩
  | case5 rest ih =>
      cases h with
      | anyOne hrest =>
          obtain ⟨pieces, rfl, htakes⟩ := ih hrest
          exact ⟨[_] :: pieces, rfl, .anyOne _ htakes⟩
  | case6 a rest hend hescape hrun hone ih =>
      have ha := ne_backslash hend hescape
      rw [ofChars_cons ha hrun hone] at h
      cases h with
      | letter h hrest =>
          obtain ⟨pieces, rfl, htakes⟩ := ih hrest
          exact ⟨[_] :: pieces, rfl, .letter ha hrun hone ((halike _ _).1 h) htakes⟩

/-- A pattern is found to match the texts that can be cut into pieces that it takes. -/
theorem matchesAll_iff_exists {anyCase : Bool}
    (halike : ∀ a c, sameLetter anyCase a c = true ↔ alike a c) (pattern text : String) :
    matchesAll anyCase pattern text = true ↔
      ∃ pieces, pieces.flatten = text.toList ∧ Takes alike pattern.toList pieces := by
  rw [matchesAll_iff]
  constructor
  · exact exists_takes halike
  · rintro ⟨pieces, hpieces, htakes⟩
    exact hpieces ▸ htakes.describes halike

/-- What is matched letter by letter is matched without regard to case. -/
theorem matchesAll_true_of_false {pattern text : String}
    (h : matchesAll false pattern text = true) : matchesAll true pattern text = true := by
  rw [matchesAll_iff] at h ⊢
  refine h.of_letters fun a _ c _ hac => ?_
  rw [sameLetter_false_iff.1 hac]
  exact sameLetter_self true c

/-- **A pattern is found to match a text if and only if the text can be cut into consecutive pieces,
one for each element of the pattern from left to right**: any run of characters for a percent sign,
one character for an underscore, and the character itself for every other one, for the one after a
backslash and for a backslash at the end. Without regard to case characters are compared as letters,
so every text that is matched with regard to it is matched without. -/
theorem matchesAll_cut (pattern text : String) :
    (matchesAll false pattern text = true ↔
      ∃ pieces, pieces.flatten = text.toList ∧ Takes Eq pattern.toList pieces) ∧
    (matchesAll true pattern text = true ↔
      ∃ pieces, pieces.flatten = text.toList ∧ Takes Text.SameLetter pattern.toList pieces) ∧
    (matchesAll false pattern text = true → matchesAll true pattern text = true) := by
  refine ⟨?_, ?_, matchesAll_true_of_false⟩
  · exact matchesAll_iff_exists (fun _ _ => sameLetter_false_iff) pattern text
  · exact matchesAll_iff_exists (fun _ _ => sameLetter_true_iff) pattern text

/-- A percent sign after a backslash takes itself, and a backslash at the end a backslash. -/
example : matchesAll false "_\\%%\\" "x%\n\\" = true ∧
    matchesAll false "_\\%%\\" "xy\n\\" = false := by
  decide +kernel

end Wildcard

end Listing
