import Mathlib.Data.Bool.AllAny
import Mathlib.Data.List.TakeWhile
import Listing.Proofs.PatternMeaning
import Listing.Relational.Meaning

/-!
# Portable patterns

A table reads a pattern and a text up to their first zero characters, compares plain letters without
regard to case, takes the two last code points of the first plane for the replacement character and
takes nothing for a pattern that ends in an escape (`Wildcard.matchesPlain_iff`); a memory does none
of this. `Wildcard.portable_iff` and `Wildcard.portable_isBeginning_iff` say for
which patterns it makes no difference. Each condition is found necessary by a least text of the
pattern, or by one changed in a single letter.
-/

set_option autoImplicit false

namespace Listing

/-! ## The zero character -/

namespace Text

/-- The code point is that of a character other than zero. -/
def isNonzeroChar (n : Nat) : Bool :=
  decide (0 < n) && (decide (n < 0xD800) || decide (0xDFFF < n) && decide (n < 0x110000))

theorem toNat_ofNat_of_isValidChar {n : Nat} (h : n.isValidChar) : (Char.ofNat n).toNat = n := by
  rw [Char.ofNat, dif_pos h]
  rfl

theorem ofNat_ne_zero {n : Nat} (h : isNonzeroChar n = true) : (Char.ofNat n).toNat ≠ 0 := by
  simp only [isNonzeroChar, Bool.and_eq_true, Bool.or_eq_true, decide_eq_true_iff] at h
  obtain ⟨hpos, hvalid⟩ := h
  rw [toNat_ofNat_of_isValidChar hvalid]
  exact Nat.ne_of_gt hpos

/-- Both ends of a run are moved to characters other than zero, on the same side of the gap in the
code points. -/
theorem lowerRuns_nonzero : (lowerRuns.all fun r =>
    decide (0 < (r.first : Int) + r.shift) && (decide ((r.last : Int) + r.shift < 0xD800) ||
      decide (0xDFFF < (r.first : Int) + r.shift) &&
        decide ((r.last : Int) + r.shift < 0x110000))) = true := by
  decide +kernel

theorem foldRepresentatives_nonzero :
    (foldRepresentatives.all fun e => isNonzeroChar e.2) = true := by
  rfl

theorem lowerChar_ne_zero {c : Char} (h : c.toNat ≠ 0) : (lowerChar c).toNat ≠ 0 := by
  rw [lowerChar]
  split
  · split
    · refine ofNat_ne_zero ?_
      simp only [isNonzeroChar, Bool.and_eq_true, Bool.or_eq_true, decide_eq_true_iff]
      omega
    · exact h
  · rw [shiftBy]
    split
    · next r hr =>
        obtain hcovers := List.find?_some hr
        have hrun := List.all_eq_true.1 lowerRuns_nonzero r (List.mem_of_find?_eq_some hr)
        simp only [CaseRun.covers, Bool.and_eq_true, Bool.or_eq_true, decide_eq_true_iff]
          at hcovers hrun
        refine ofNat_ne_zero ?_
        simp only [isNonzeroChar, Bool.and_eq_true, Bool.or_eq_true, decide_eq_true_iff]
        omega
    · rwa [Char.ofNat_toNat]

/-- Only the zero character folds to zero. -/
theorem fold_ne_zero {c : Char} (h : c.toNat ≠ 0) : (fold c).toNat ≠ 0 := by
  rw [fold]
  split
  · exact lowerChar_ne_zero h
  · split
    · next n r hr =>
        exact ofNat_ne_zero
          (List.all_eq_true.1 foldRepresentatives_nonzero (n, r) (List.mem_of_find?_eq_some hr))
    · exact lowerChar_ne_zero h

end Text

namespace Wildcard

/-- No character of the text is zero. -/
def ZeroFree (cs : List Char) : Prop :=
  ∀ c ∈ cs, c.toNat ≠ 0

variable {c d : Char} {cs ds : List Char} {p : List Wildcard}

theorem beforeZero_cons (h : c.toNat ≠ 0) : beforeZero (c :: cs) = c :: beforeZero cs :=
  List.takeWhile_cons_of_pos (decide_eq_true h)

theorem beforeZero_zero (h : c.toNat = 0) : beforeZero (c :: cs) = [] :=
  List.takeWhile_cons_of_neg (by simp [h])

theorem ZeroFree.beforeZero_eq (h : ZeroFree cs) : beforeZero cs = cs :=
  List.takeWhile_eq_self_iff.2 fun c hc => decide_eq_true (h c hc)

theorem zeroFree_beforeZero : ZeroFree (beforeZero cs) := by
  intro c hc
  rw [beforeZero] at hc
  simpa using List.mem_takeWhile_imp hc

/-- A text has no zero character, or is cut at the first one. -/
theorem zeroFree_or_cut (cs : List Char) :
    ZeroFree cs ∨ ∃ z rest, z.toNat = 0 ∧ cs = beforeZero cs ++ z :: rest := by
  induction cs with
  | nil => exact .inl fun c hc => absurd hc List.not_mem_nil
  | cons c cs ih =>
      by_cases hc : c.toNat = 0
      · exact .inr ⟨c, cs, hc, by rw [beforeZero_zero hc]; rfl⟩
      · rcases ih with h | ⟨z, rest, hz, h⟩
        · exact .inl (List.forall_mem_cons.2 ⟨hc, h⟩)
        · refine .inr ⟨z, rest, hz, ?_⟩
          rw [beforeZero_cons hc, List.cons_append, ← h]

/-! ## Plain letters -/

/-- The character is a plain letter in upper case. -/
def IsPlainUpper (c : Char) : Prop :=
  65 ≤ c.toNat ∧ c.toNat ≤ 90

/-- The character is a plain letter. -/
def IsPlainLetter (c : Char) : Prop :=
  IsPlainUpper c ∨ 97 ≤ c.toNat ∧ c.toNat ≤ 122

instance (c : Char) : Decidable (IsPlainLetter c) :=
  inferInstanceAs (Decidable ((_ ∧ _) ∨ _ ∧ _))

theorem plainLower_of_not (h : ¬IsPlainUpper c) : plainLower c = c :=
  if_neg h

theorem toNat_plainLower (h : IsPlainUpper c) : (plainLower c).toNat = c.toNat + 32 := by
  have hvalid : Nat.isValidChar (c.toNat + 32) := .inl (by have := h.2; omega)
  have hlower : plainLower c = Char.ofNat (c.toNat + 32) := if_pos h
  rw [hlower, Text.toNat_ofNat_of_isValidChar hvalid]

theorem plainLower_plainLower (c : Char) : plainLower (plainLower c) = plainLower c := by
  by_cases h : IsPlainUpper c
  · refine plainLower_of_not fun h' => ?_
    rw [IsPlainUpper, toNat_plainLower h] at h'
    have := h.1
    omega
  · rw [plainLower_of_not h, plainLower_of_not h]

/-- A character that is no plain letter is the lower case of itself alone. -/
theorem plainLower_eq_iff (hd : ¬IsPlainLetter d) : plainLower c = d ↔ c = d := by
  by_cases h : IsPlainUpper c
  · constructor
    · rintro rfl
      obtain ⟨hlow, hhigh⟩ := h
      refine absurd (.inr ?_) hd
      rw [toNat_plainLower ⟨hlow, hhigh⟩]
      omega
    · rintro rfl
      exact absurd (.inl h) hd
  · rw [plainLower_of_not h]

/-- A character is a mark of a pattern before its case is changed if it is one afterwards. -/
theorem plainLower_eq_mark (hd : d = '\\' ∨ d = '%' ∨ d = '_') :
    plainLower c = d ↔ c = d := by
  rcases hd with rfl | rfl | rfl
  · exact plainLower_eq_iff (by decide)
  · exact plainLower_eq_iff (by decide)
  · exact plainLower_eq_iff (by decide)

theorem plainLower_eq_zero_iff : (plainLower c).toNat = 0 ↔ c.toNat = 0 := by
  by_cases h : IsPlainUpper c
  · rw [toNat_plainLower h]
    have := h.1
    omega
  · rw [plainLower_of_not h]

theorem beforeZero_map_plainLower :
    beforeZero (cs.map plainLower) = (beforeZero cs).map plainLower := by
  rw [beforeZero, List.takeWhile_map]
  refine congrArg (List.map plainLower) (congrArg (fun f => cs.takeWhile f) (funext fun c => ?_))
  exact decide_eq_decide.2 (not_congr plainLower_eq_zero_iff)

theorem endsEscaping_cons (h : c ≠ '\\') : endsEscaping (c :: cs) = endsEscaping cs := by
  rw [endsEscaping]
  · exact fun hc _ => h hc
  · exact fun _ _ hc _ => h hc

theorem ofChars_cons (h : c ≠ '\\') (hrun : c ≠ '%') (hone : c ≠ '_') :
    ofChars (c :: cs) = letter c :: ofChars cs := by
  rw [ofChars]
  · exact fun hc _ => h hc
  · exact fun _ _ hc _ => h hc
  · exact hrun
  · exact hone

/-- A backslash begins an escape wherever it stands, but for one that stands at the end. -/
theorem ne_backslash (hend : c = '\\' → cs = [] → False)
    (hescape : ∀ d rest, c = '\\' → cs = d :: rest → False) : c ≠ '\\' := by
  intro hc
  cases cs with
  | nil => exact hend hc rfl
  | cons d rest => exact hescape d rest hc rfl

theorem endsEscaping_map_plainLower : endsEscaping (cs.map plainLower) = endsEscaping cs := by
  induction cs using endsEscaping.induct with
  | case1 => rfl
  | case2 => rfl
  | case3 c rest ih => exact ih
  | case4 c rest hend hescape ih =>
      have hc := ne_backslash hend hescape
      rw [List.map_cons, endsEscaping_cons (mt (plainLower_eq_mark (by simp)).1 hc),
        endsEscaping_cons hc, ih]

/-- The elements of a pattern with their letters in lower case. -/
def plainLowered : Wildcard → Wildcard
  | letter c => letter (plainLower c)
  | w => w

theorem ofChars_map_plainLower : ofChars (cs.map plainLower) = (ofChars cs).map plainLowered := by
  induction cs using ofChars.induct with
  | case1 => rfl
  | case2 => rfl
  | case3 c rest ih => exact congrArg (letter (plainLower c) :: ·) ih
  | case4 rest ih => exact congrArg (anyRun :: ·) ih
  | case5 rest ih => exact congrArg (anyOne :: ·) ih
  | case6 c rest hend hescape hrun hone ih =>
      have hc := ne_backslash hend hescape
      rw [List.map_cons, ofChars_cons (mt (plainLower_eq_mark (by simp)).1 hc)
        (mt (plainLower_eq_mark (by simp)).1 hrun) (mt (plainLower_eq_mark (by simp)).1 hone),
        ofChars_cons hc hrun hone, ih]
      rfl

/-- What stands before a part of a pattern is read apart from it, unless it ends in an escape. -/
theorem ofChars_append (h : endsEscaping cs = false) :
    ofChars (cs ++ ds) = ofChars cs ++ ofChars ds := by
  induction cs using ofChars.induct with
  | case1 => rfl
  | case2 => exact absurd h (by decide)
  | case3 c rest ih => exact congrArg (letter c :: ·) (ih h)
  | case4 rest ih => exact congrArg (anyRun :: ·) (ih h)
  | case5 rest ih => exact congrArg (anyOne :: ·) (ih h)
  | case6 c rest hend hescape hrun hone ih =>
      have hc := ne_backslash hend hescape
      rw [endsEscaping_cons hc] at h
      rw [List.cons_append, ofChars_cons hc hrun hone, ofChars_cons hc hrun hone, ih h]
      rfl

/-! ## What a table describes -/

/-- The character reads as the replacement character. -/
def IsReplaced (c : Char) : Prop :=
  0xFFFD ≤ c.toNat ∧ c.toNat ≤ 0xFFFF

instance (c : Char) : Decidable (IsReplaced c) :=
  inferInstanceAs (Decidable (_ ∧ _))

theorem plainFold_of_isReplaced (h : IsReplaced c) : plainFold c = '\uFFFD' := by
  obtain ⟨hlow, hhigh⟩ := h
  rw [plainFold]
  split
  · rfl
  · have hself : plainLower c = c := plainLower_of_not fun h => by
      have := h.2
      omega
    rw [hself, ← Char.toNat_inj]
    change c.toNat = 0xFFFD
    omega

theorem plainFold_of_not (h : ¬IsReplaced c) : plainFold c = plainLower c := by
  rw [IsReplaced] at h
  exact if_neg (by omega)

theorem isReplaced_plainLower_iff : IsReplaced (plainLower c) ↔ IsReplaced c := by
  by_cases h : IsPlainUpper c
  · rw [IsReplaced, IsReplaced, toNat_plainLower h]
    have := h.2
    omega
  · rw [plainLower_of_not h]

theorem plainFold_plainLower (c : Char) : plainFold (plainLower c) = plainFold c := by
  by_cases h : IsReplaced c
  · rw [plainFold_of_isReplaced h, plainFold_of_isReplaced (isReplaced_plainLower_iff.2 h)]
  · rw [plainFold_of_not h, plainFold_of_not (mt isReplaced_plainLower_iff.1 h),
      plainLower_plainLower]

theorem plainFold_eq_zero_iff : (plainFold c).toNat = 0 ↔ c.toNat = 0 := by
  by_cases h : IsReplaced c
  · rw [plainFold_of_isReplaced h]
    refine iff_of_false (by decide) fun hzero => ?_
    have := h.1
    omega
  · rw [plainFold_of_not h, plainLower_eq_zero_iff]

/-- A character that is compared as itself is compared so by no other character. -/
theorem plainFold_eq_iff (hd : ¬IsPlainLetter d) (hreplaced : ¬IsReplaced d) :
    plainFold c = d ↔ c = d := by
  by_cases h : IsReplaced c
  · rw [plainFold_of_isReplaced h]
    refine iff_of_false ?_ ?_
    · rintro rfl
      exact hreplaced (by decide)
    · rintro rfl
      exact hreplaced h
  · rw [plainFold_of_not h, plainLower_eq_iff hd]

/-- Two characters are the same as a table compares them: plain letters without regard to case, and
what reads as the replacement character as that. -/
def samePlain (a b : Char) : Bool :=
  plainFold a == plainFold b

theorem samePlain_self (a : Char) : samePlain a a = true :=
  beq_self_eq_true _

/-- **What a table finds a pattern to describe**, both cut at their first zero character. -/
theorem matchesPlain_iff (pattern s : String) : matchesPlain pattern s = true ↔
    endsEscaping (beforeZero pattern.toList) = false ∧
      Describes samePlain (ofChars (beforeZero pattern.toList)) (beforeZero s.toList) := by
  rw [matchesPlain, Bool.and_eq_true, Bool.not_eq_true', matchesChars_iff,
    describes_map (fun _ => rfl) rfl rfl]
  rfl

/-- Both in lower case, they are found to be as they are. -/
theorem matchesPlain_lowered (pattern s : String) :
    matchesPlain (String.ofList (pattern.toList.map plainLower))
      (String.ofList (s.toList.map plainLower)) = matchesPlain pattern s := by
  have hsame : (fun a c => samePlain (plainLower a) (plainLower c)) = samePlain := by
    funext a c
    rw [samePlain, plainFold_plainLower, plainFold_plainLower]
    rfl
  rw [Bool.eq_iff_iff, matchesPlain_iff, matchesPlain_iff, String.toList_ofList,
    String.toList_ofList, beforeZero_map_plainLower, beforeZero_map_plainLower,
    endsEscaping_map_plainLower, ofChars_map_plainLower, describes_map (fun _ => rfl) rfl rfl,
    hsame]

theorem matchesAll_iff (anyCase : Bool) (pattern s : String) :
    matchesAll anyCase pattern s = true ↔
      Describes (sameLetter anyCase) (ofChars pattern.toList) s.toList :=
  matchesChars_iff anyCase _ _

/-! ## Patterns that mean the same -/

/-- A table and a memory compare the letter of a pattern alike with every other character. -/
def ToldAlike (anyCase : Bool) (a : Char) : Prop :=
  ∀ c, c.toNat ≠ 0 → samePlain a c = sameLetter anyCase a c

/-- Of every plain letter there is another one that has the same lower case. -/
theorem exists_plainLower_eq {a : Char} (h : IsPlainLetter a) :
    ∃ c, c ≠ a ∧ c.toNat ≠ 0 ∧ plainLower c = plainLower a := by
  rcases h with hupper | ⟨hlow, hhigh⟩
  · have hlower := toNat_plainLower hupper
    refine ⟨plainLower a, fun h => ?_, by omega, plainLower_plainLower a⟩
    rw [h] at hlower
    omega
  · have hnat : (Char.ofNat (a.toNat - 32)).toNat = a.toNat - 32 :=
      Text.toNat_ofNat_of_isValidChar (.inl (by omega))
    have hupper : IsPlainUpper (Char.ofNat (a.toNat - 32)) := by
      rw [IsPlainUpper, hnat]
      omega
    have hback : plainLower (Char.ofNat (a.toNat - 32)) = a := by
      rw [← Char.toNat_inj, toNat_plainLower hupper, hnat]
      omega
    have hself : plainLower a = a := plainLower_of_not fun h => by
      have := h.2
      omega
    refine ⟨Char.ofNat (a.toNat - 32), fun h => ?_, by omega, hback.trans hself.symm⟩
    rw [h] at hnat
    omega

/-- Of every plain letter, and of whatever reads as the replacement character, there is another
character that a table does not tell from it. -/
theorem exists_samePlain {a : Char} (h : IsPlainLetter a ∨ IsReplaced a) :
    ∃ c, c ≠ a ∧ c.toNat ≠ 0 ∧ samePlain a c = true := by
  rcases h with h | h
  · obtain ⟨c, hne, hzero, hlower⟩ := exists_plainLower_eq h
    refine ⟨c, hne, hzero, beq_iff_eq.2 ?_⟩
    rw [← plainFold_plainLower, ← hlower, plainFold_plainLower]
  · have hone : ∀ c, IsReplaced c → samePlain a c = true := fun c hc =>
      beq_iff_eq.2 ((plainFold_of_isReplaced h).trans (plainFold_of_isReplaced hc).symm)
    by_cases hlast : a = '\uFFFE'
    · exact ⟨'\uFFFF', hlast ▸ by decide, by decide, hone _ (by decide)⟩
    · exact ⟨'\uFFFE', Ne.symm hlast, by decide, hone _ (by decide)⟩

/-- With regard to case, all are compared alike but plain letters and what reads as the replacement
character. -/
theorem toldAlike_false_iff {a : Char} :
    ToldAlike false a ↔ ¬IsPlainLetter a ∧ ¬IsReplaced a := by
  constructor
  · intro h
    rw [← not_or]
    intro hletter
    obtain ⟨c, hne, hc, hsame⟩ := exists_samePlain hletter
    exact hne (beq_iff_eq.1 ((h c hc).symm.trans hsame)).symm
  · rintro ⟨hletter, hreplaced⟩ c _
    have hself : plainFold a = a := (plainFold_eq_iff hletter hreplaced).2 rfl
    rw [samePlain, hself, Bool.eq_iff_iff, beq_iff_eq, eq_comm,
      plainFold_eq_iff hletter hreplaced]
    exact eq_comm.trans beq_iff_eq.symm

variable {anyCase : Bool}

theorem sameLetter_self (anyCase : Bool) (a : Char) : sameLetter anyCase a a = true := by
  cases anyCase <;> simp [sameLetter]

/-- No other character is the zero character, however they are compared. -/
theorem sameLetter_zero {a z : Char} (ha : a.toNat ≠ 0) (hz : z.toNat = 0) :
    sameLetter anyCase a z = false := by
  have hne : a ≠ z := fun h => ha (h ▸ hz)
  obtain rfl : z = '\x00' := Char.toNat_inj.1 hz
  cases anyCase with
  | false => exact beq_false_of_ne hne
  | true => exact beq_false_of_ne fun h => Text.fold_ne_zero ha (congrArg Char.toNat h)

theorem samePlain_zero {a z : Char} (ha : a.toNat ≠ 0) (hz : z.toNat = 0) :
    samePlain a z = false :=
  beq_false_of_ne fun h => ha (plainFold_eq_zero_iff.1
    ((congrArg Char.toNat h).trans (plainFold_eq_zero_iff.2 hz)))

/-- The pattern is read alike by a table and a memory: it has no zero character, no backslash at its
end, and no letter that they do not compare alike. -/
structure Portable (anyCase : Bool) (pattern : String) : Prop where
  zeroFree : ZeroFree pattern.toList
  complete : endsEscaping pattern.toList = false
  letters : ∀ a, letter a ∈ ofChars pattern.toList → ToldAlike anyCase a

section

variable {pattern : String}

/-- No letter of a pattern without zero characters is zero. -/
theorem ZeroFree.letter (h : ZeroFree cs) {a : Char} (ha : letter a ∈ ofChars cs) : a.toNat ≠ 0 :=
  h a (mem_of_letter_mem ha)

/-- With regard to case, a pattern without plain letters and replacement characters is portable. -/
theorem portable_of_marks
    (h : ∀ a ∈ pattern.toList, a.toNat ≠ 0 ∧ ¬IsPlainLetter a ∧ ¬IsReplaced a)
    (hcomplete : endsEscaping pattern.toList = false) : Portable false pattern where
  zeroFree := fun a ha => (h a ha).1
  complete := hcomplete
  letters := fun a ha => toldAlike_false_iff.2 (h a (mem_of_letter_mem ha)).2

/-- The least text of a pattern has no zero character if no letter of the pattern is zero. -/
theorem zeroFree_least (h : ∀ a, Wildcard.letter a ∈ p → a.toNat ≠ 0) : ZeroFree (least p) := by
  intro c hc
  obtain ⟨w, hw, hc⟩ := List.mem_flatMap.1 hc
  cases w with
  | letter a => exact List.mem_singleton.1 hc ▸ h a hw
  | anyOne => exact List.mem_singleton.1 hc ▸ by decide
  | anyRun => exact absurd hc List.not_mem_nil

theorem ZeroFree.matchesPlain_iff (h : ZeroFree pattern.toList) (s : String) :
    matchesPlain pattern s = true ↔ endsEscaping pattern.toList = false ∧
      Describes samePlain (ofChars pattern.toList) (beforeZero s.toList) := by
  rw [Wildcard.matchesPlain_iff, h.beforeZero_eq]

/-- All comparisons of a pattern without zero characters fail at a zero character, so its letters
are compared alike with every character. -/
theorem Portable.samePlain_eq (h : Portable anyCase pattern) {a : Char}
    (ha : Wildcard.letter a ∈ ofChars pattern.toList) (c : Char) :
    samePlain a c = sameLetter anyCase a c := by
  by_cases hc : c.toNat = 0
  · rw [samePlain_zero (h.zeroFree.letter ha) hc, sameLetter_zero (h.zeroFree.letter ha) hc]
  · exact h.letters a ha c hc

theorem Portable.matchesAll_iff (h : Portable anyCase pattern) (s : String) :
    matchesAll anyCase pattern s = true ↔
      Describes samePlain (ofChars pattern.toList) s.toList :=
  (Wildcard.matchesAll_iff anyCase pattern s).trans
    (describes_congr fun _ ha c _ => (h.samePlain_eq ha c).symm)

/-- **Without zero characters, a table and a memory find a pattern to describe the same texts if and
only if the pattern is portable.** -/
theorem portable_iff (hpattern : ZeroFree pattern.toList) :
    (∀ s : String, ZeroFree s.toList →
      matchesPlain pattern s = matchesAll anyCase pattern s) ↔ Portable anyCase pattern := by
  have hleast : ZeroFree (least (ofChars pattern.toList)) :=
    zeroFree_least fun a ha => hpattern.letter ha
  constructor
  · intro h
    have hagree : ∀ cs, ZeroFree cs → (endsEscaping pattern.toList = false ∧
        Describes samePlain (ofChars pattern.toList) cs ↔
          Describes (sameLetter anyCase) (ofChars pattern.toList) cs) := by
      intro cs hcs
      have hs := h (String.ofList cs) (by rwa [String.toList_ofList])
      rwa [Bool.eq_iff_iff, hpattern.matchesPlain_iff, Wildcard.matchesAll_iff,
        String.toList_ofList, hcs.beforeZero_eq] at hs
    have hcomplete : endsEscaping pattern.toList = false :=
      ((hagree _ hleast).2 (describes_least (sameLetter_self anyCase) _)).1
    refine ⟨hpattern, hcomplete, fun a ha c hc => ?_⟩
    -- the least text with `c` in the place of `a` tells how the two are compared
    obtain ⟨before, after, hsplit⟩ := List.append_of_mem ha
    have htext : ZeroFree (least before ++ c :: least after) := by
      refine List.forall_mem_append.2 ⟨?_, List.forall_mem_cons.2 ⟨hc, ?_⟩⟩
      · exact zeroFree_least fun b hb => hpattern.letter (by simp [hsplit, hb])
      · exact zeroFree_least fun b hb => hpattern.letter (by simp [hsplit, hb])
    have hone := hagree _ htext
    rw [and_iff_right hcomplete, hsplit, describes_least_iff samePlain_self,
      describes_least_iff (sameLetter_self anyCase)] at hone
    exact Bool.eq_iff_iff.2 hone
  · intro h s hs
    rw [Bool.eq_iff_iff, hpattern.matchesPlain_iff, h.matchesAll_iff, hs.beforeZero_eq,
      and_iff_right h.complete]

/-- The pattern is a number of letters, followed by runs and nothing else. -/
def IsBeginning (p : List Wildcard) : Prop :=
  ∃ (cs : List Char) (n : Nat), p = cs.map letter ++ List.replicate (n + 1) anyRun

theorem describes_runs (n : Nat) (cs : List Char) :
    Describes samePlain (List.replicate (n + 1) anyRun) cs := by
  have hnil : ∀ n, Describes samePlain (List.replicate n anyRun) [] := by
    intro n
    induction n with
    | zero => exact .nil
    | succ n ih => exact describes_anyRun_nil_iff.2 ih
  exact describes_anyRun_iff.2 ⟨cs, [], (List.append_nil cs).symm, hnil n⟩

/-- A pattern that describes the empty text has nothing but runs. -/
theorem eq_runs_of_describes_nil (h : Describes samePlain p []) :
    p = List.replicate p.length anyRun := by
  have hleast : least p = [] := List.length_eq_zero_iff.1 (Nat.le_zero.1 h.length_least_le)
  refine List.eq_replicate_of_mem fun w hw => ?_
  have hw := List.flatMap_eq_nil_iff.1 hleast w hw
  cases w with
  | letter a => exact absurd hw (List.cons_ne_nil _ _)
  | anyOne => exact absurd hw (List.cons_ne_nil _ _)
  | anyRun => rfl

/-- A beginning is found in a cut text as in the whole. -/
theorem IsBeginning.describes_iff (h : IsBeginning p)
    (hp : ∀ a, Wildcard.letter a ∈ p → a.toNat ≠ 0) (cs : List Char) :
    Describes samePlain p (beforeZero cs) ↔ Describes samePlain p cs := by
  obtain ⟨as, n, rfl⟩ := h
  induction as generalizing cs with
  | nil => exact iff_of_true (describes_runs n _) (describes_runs n _)
  | cons a as ih =>
      rw [List.map_cons, List.cons_append] at hp ⊢
      cases cs with
      | nil => rfl
      | cons c cs =>
          by_cases hc : c.toNat = 0
          · rw [beforeZero_zero hc, describes_letter_iff,
              samePlain_zero (hp a List.mem_cons_self) hc]
            exact iff_of_false not_describes_letter_nil fun h => Bool.false_ne_true h.1
          · rw [beforeZero_cons hc, describes_letter_iff, describes_letter_iff,
              ih cs fun b hb => hp b (List.mem_cons_of_mem _ hb)]

/-- **Cutting texts at their first zero character changes nothing for beginnings**, and changes
something for every other pattern. -/
theorem describes_beforeZero_iff (hp : ∀ a, Wildcard.letter a ∈ p → a.toNat ≠ 0) :
    (∀ cs, Describes samePlain p (beforeZero cs) ↔ Describes samePlain p cs) ↔
      IsBeginning p := by
  refine ⟨fun h => ?_, fun h => h.describes_iff hp⟩
  have hzero : ∀ cs, beforeZero ('\x00' :: cs) = [] := fun cs => beforeZero_zero rfl
  induction p with
  | nil =>
      have hcut := (h ['\x00']).1 (hzero [] ▸ .nil)
      exact absurd (describes_nil_iff.1 hcut) (List.cons_ne_nil _ _)
  | cons w p ih =>
      have hleast : Describes samePlain p (least p) := describes_least samePlain_self p
      cases w with
      | letter a =>
          have ha : a.toNat ≠ 0 := hp a List.mem_cons_self
          obtain ⟨as, n, rfl⟩ := ih (fun b hb => hp b (List.mem_cons_of_mem _ hb)) fun cs => by
            have hcs := h (a :: cs)
            rwa [beforeZero_cons ha, describes_letter_iff, describes_letter_iff,
              and_iff_right (samePlain_self a), and_iff_right (samePlain_self a)] at hcs
          exact ⟨a :: as, n, rfl⟩
      | anyOne =>
          have hcut := (h ('\x00' :: least p)).2 (.anyOne hleast)
          exact absurd (hzero _ ▸ hcut) not_describes_anyOne_nil
      | anyRun =>
          -- the run takes the zero character and the rest of the pattern what it needs
          have hcut := (h ('\x00' :: least p)).2 (.anyRun ['\x00'] hleast)
          rw [hzero, describes_anyRun_nil_iff] at hcut
          refine ⟨[], p.length, ?_⟩
          rw [List.map_nil, List.nil_append, List.replicate_succ, ← eq_runs_of_describes_nil hcut]

/-- A pattern with a zero character means something else to a table than to a memory. -/
theorem zeroFree_of_agree
    (h : ∀ s : String, matchesPlain pattern s = matchesAll anyCase pattern s) :
    ZeroFree pattern.toList := by
  rcases zeroFree_or_cut pattern.toList with hzero | ⟨z, rest, hz, hcut⟩
  · exact hzero
  exfalso
  have hagree : ∀ cs, (endsEscaping (beforeZero pattern.toList) = false ∧
      Describes samePlain (ofChars (beforeZero pattern.toList)) (beforeZero cs) ↔
        Describes (sameLetter anyCase) (ofChars pattern.toList) cs) := by
    intro cs
    have hs := h (String.ofList cs)
    rwa [Bool.eq_iff_iff, matchesPlain_iff, Wildcard.matchesAll_iff, String.toList_ofList] at hs
  -- the table reads the pattern up to the zero character, which the memory demands
  have hcomplete := ((hagree _).2 (describes_least (sameLetter_self anyCase) _)).1
  have hread : ofChars pattern.toList =
      ofChars (beforeZero pattern.toList) ++ letter z :: ofChars rest := by
    have hmark : ∀ d : Char, d.toNat ≠ 0 → z ≠ d := fun d hd hzd => hd (hzd ▸ hz)
    rw [← ofChars_cons (hmark '\\' (by decide)) (hmark '%' (by decide)) (hmark '_' (by decide)),
      ← ofChars_append hcomplete, ← hcut]
  have hzeroFree : ZeroFree (least (ofChars (beforeZero pattern.toList))) :=
    zeroFree_least fun a ha => zeroFree_beforeZero.letter ha
  have hshort := (hagree _).1 ⟨hcomplete, hzeroFree.beforeZero_eq.symm ▸
    describes_least samePlain_self _⟩
  have hlength := hshort.length_least_le
  rw [hread, length_least_append] at hlength
  simp only [least, List.flatMap_cons, leastOf, List.length_append, List.length_cons] at hlength
  omega

/-- **A table and a memory find a pattern to describe the same texts if and only if the pattern is
portable and is a beginning.** -/
theorem portable_isBeginning_iff : (∀ s : String,
      matchesPlain pattern s = matchesAll anyCase pattern s) ↔
        Portable anyCase pattern ∧ IsBeginning (ofChars pattern.toList) := by
  constructor
  · intro h
    have hzero := zeroFree_of_agree h
    have hportable : Portable anyCase pattern := (portable_iff hzero).1 fun s _ => h s
    refine ⟨hportable, (describes_beforeZero_iff fun a ha => hzero.letter ha).1 fun cs => ?_⟩
    have hs := h (String.ofList cs)
    rwa [Bool.eq_iff_iff, hzero.matchesPlain_iff, hportable.matchesAll_iff,
      and_iff_right hportable.complete, String.toList_ofList] at hs
  · rintro ⟨hportable, hbeginning⟩ s
    rw [Bool.eq_iff_iff, hportable.zeroFree.matchesPlain_iff, hportable.matchesAll_iff,
      and_iff_right hportable.complete]
    exact hbeginning.describes_iff (fun a ha => hportable.zeroFree.letter ha) s.toList

end

end Wildcard

end Listing
