import Listing.Proofs.WrittenFilters

/-!
# Where tokens start

A text is cut into tokens at the commas that an operator and a colon follow, and the operator is then
read from the token. The two do not take quite the same words for operators: where tokens are cut, an
`i` may be a capital with a dot or a small letter without one, whose lower case is no `i`
(`Text.strayLetters`). So each token after the first is read as the cut meant it, unless there is such
a letter in its operator; then it starts with no operator at all (`Filter.later_tokens_start_iff`).
-/

set_option autoImplicit false

namespace Listing

/-! ## Letters that stray in lower case -/

namespace Text

/-- The letters that are an `i` without regard to case, while their lower case is another text. -/
def strayLetters : List Char :=
  ['\u0130', '\u0131']

/-- No run leads to the small letter without a dot. -/
theorem lowerRuns_not_covers_dotless :
    ∀ r ∈ lowerRuns, r.covers ((0x131 : Int) - r.shift).toNat = false := by
  decide +kernel

/-- Only the small letter without a dot has itself for its lower case. -/
theorem eq_dotless_of_toNat_lowerChar {c : Char} (h : (lowerChar c).toNat = 0x131) :
    c = '\u0131' := by
  have hdotless : ∀ n, (Char.ofNat n).toNat = 0x131 → n = 0x131 := by
    intro n hn
    by_cases hvalid : n.isValidChar
    · rwa [toNat_ofNat_of_isValidChar hvalid] at hn
    · rw [Char.ofNat, dif_neg hvalid] at hn
      exact absurd hn (by decide)
  rw [lowerChar] at h
  split at h
  · split at h
    · have hpoint := hdotless _ h
      omega
    · omega
  · have hpoint := hdotless _ h
    rw [shiftBy] at hpoint
    split at hpoint
    · next r hr =>
        have hcovers := List.find?_some hr
        have hnot := lowerRuns_not_covers_dotless r (List.mem_of_find?_eq_some hr)
        rw [show ((0x131 : Int) - r.shift).toNat = c.toNat by omega] at hnot
        exact absurd (hnot.symm.trans hcovers) Bool.false_ne_true
    · exact Char.toNat_inj.1 hpoint

/-- A text of characters with one-letter lower cases is lowered character by character. -/
theorem lowerAfter_eq {word cs : List Char}
    (h : List.Forall₂ (fun w c => lowerChar c = w ∧ c.toNat ≠ 0x3A3 ∧ c.toNat ≠ 0x130) word cs)
    (before : List Char) : lowerAfter before cs = word := by
  induction h generalizing before with
  | nil => rfl
  | cons hc _ ih =>
      obtain ⟨hlower, hsigma, hdotted⟩ := hc
      rw [lowerAfter, ih, if_neg hsigma, if_neg hdotted, hlower]
      rfl

/-- The lower case of a text with a stray letter has a character that is none of those from a to z. -/
theorem exists_mem_lowerAfter {c : Char} (hc : c ∈ strayLetters) {cs : List Char} (hmem : c ∈ cs)
    (before : List Char) : ∃ d ∈ lowerAfter before cs, isSmall d = false := by
  induction cs generalizing before with
  | nil => exact absurd hmem List.not_mem_nil
  | cons first rest ih =>
      rcases List.mem_cons.1 hmem with rfl | hrest
      · rcases List.mem_pair.1 hc with rfl | rfl
        · exact ⟨'\u0307', List.mem_cons_of_mem _ List.mem_cons_self, by decide⟩
        · exact ⟨lowerChar '\u0131', List.mem_cons_self, by decide +kernel⟩
      · rw [lowerAfter]
        obtain ⟨d, hd, hsmall⟩ := ih hrest (first :: before)
        exact ⟨d, List.mem_append_right _ hd, hsmall⟩

end Text

/-! ## Operators without regard to case -/

namespace Operator

variable {op : Operator} {w c : Char} {name : List Char}

/-- Of the letters from a to z, the `i` and the `s` alone share their upper case with another. -/
theorem sharedCases_small : ∀ letters ∈ Text.sharedCases, ∀ n ∈ letters, n ≤ 122 →
    n = 's'.toNat ∨ letters = [n, 0x131] := by
  decide +kernel

theorem s_not_mem_name (op : Operator) : 's' ∉ op.name.toList := by
  cases op with
  | order c => cases c <;> decide
  | _ => decide

theorem ofName?_name (op : Operator) : ofName? op.name = some op := by
  cases op with
  | order c => cases c <;> decide
  | _ => decide

/-- A letter in the name of an operator is the lower case of what it is compared with as one letter,
unless that is a stray letter. -/
theorem lowerChar_of_sameLetter (hw : w ∈ op.name.toList) (h : Text.SameLetter w c)
    (hc : c ∉ Text.strayLetters) : Text.lowerChar c = w := by
  have hsmall := Text.isSmall_iff.1 (isSmall_of_mem_name hw)
  have hself : Text.lowerChar w = w := by
    rw [Text.lowerChar, if_pos (by omega), if_neg (by omega)]
  rcases h with h | ⟨letters, hletters, hmem, hmem'⟩
  · exact h.symm.trans hself
  · rw [hself] at hmem
    obtain hs | rfl := sharedCases_small letters hletters w.toNat hmem hsmall.2
    · exact absurd (Char.toNat_inj.1 hs ▸ hw) op.s_not_mem_name
    rcases List.mem_pair.1 hmem' with hpoint | hpoint
    · exact Char.toNat_inj.1 hpoint
    · exact absurd (Text.eq_dotless_of_toNat_lowerChar hpoint ▸ by decide) hc

theorem not_isBlank_of_sameLetter (h : List.Forall₂ Text.SameLetter op.name.toList name) :
    ∀ c ∈ name, Text.isBlank c = false := by
  intro c hc
  obtain ⟨w, hw, hsame⟩ := exists_of_mem_forall₂ h hc
  exact Bool.eq_false_iff.2 fun hblank => not_sameLetter_of_isBlank hw hblank hsame

theorem colon_not_mem (h : List.Forall₂ Text.SameLetter op.name.toList name) : ':' ∉ name := by
  intro hmem
  obtain ⟨w, hw, hsame⟩ := exists_of_mem_forall₂ h hmem
  exact not_sameLetter hw (by decide) (by decide) hsame

theorem read?_ofList (h : List.Forall₂ Text.SameLetter op.name.toList name) :
    read? (String.ofList name) = ofName? (String.ofList (Text.lowerAfter [] name)) := by
  rw [read?, Text.trim, String.toList_ofList, Text.trimChars_of_isBlank (not_isBlank_of_sameLetter h),
    Text.lower, String.toList_ofList]

/-- **A name without stray letters is read as the operator it is the name of without regard to
case.** -/
theorem read?_of_sameLetter (h : List.Forall₂ Text.SameLetter op.name.toList name)
    (hstray : ∀ c ∈ name, c ∉ Text.strayLetters) : read? (String.ofList name) = some op := by
  have hlower : List.Forall₂ (fun w c => Text.lowerChar c = w ∧ c.toNat ≠ 0x3A3 ∧ c.toNat ≠ 0x130)
      op.name.toList name := by
    refine List.forall₂_iff_zip.2 ⟨h.length_eq, fun {w c} hzip => ?_⟩
    obtain ⟨hw, hc⟩ := List.of_mem_zip hzip
    have hlower := lowerChar_of_sameLetter hw ((List.forall₂_iff_zip.1 h).2 hzip) (hstray c hc)
    refine ⟨hlower, ?_, ?_⟩
    -- a capital sigma has a lower case that is in no name of an operator
    · intro hsigma
      obtain rfl : c = '\u03A3' := Char.toNat_inj.1 hsigma
      have hsmall := isSmall_of_mem_name (hlower ▸ hw)
      exact absurd hsmall (by decide +kernel)
    · intro hdotted
      obtain rfl : c = '\u0130' := Char.toNat_inj.1 hdotted
      exact absurd (by decide) (hstray _ hc)
  rw [read?_ofList h, Text.lowerAfter_eq hlower, String.ofList_toList, ofName?_name]

/-- **A name with a stray letter is read as no operator.** -/
theorem read?_of_mem_strayLetters (h : List.Forall₂ Text.SameLetter op.name.toList name)
    (hc : c ∈ Text.strayLetters) (hmem : c ∈ name) : read? (String.ofList name) = none := by
  obtain ⟨d, hd, hsmall⟩ := Text.exists_mem_lowerAfter hc hmem []
  rw [read?_ofList h, ofName?, List.find?_eq_none]
  intro op' _ hname
  rw [beq_iff_eq, ← String.toList_inj, String.toList_ofList] at hname
  exact op'.not_mem_name hsmall (hname ▸ hd)

end Operator

namespace Filter

/-! ## Where a text is cut -/

/-- The text is cut ahead of a name: behind something that is no blank there is a comma, which blanks
follow, then the name, which is one of an operator without regard to case, and a colon. -/
def CutsAhead (cs name : List Char) : Prop :=
  ∃ before blanks after, ∃ op : Operator,
    cs = before ++ ',' :: (blanks ++ (name ++ ':' :: after)) ∧
      (∃ c ∈ before, Text.isBlank c = false) ∧ (∀ c ∈ blanks, Text.isBlank c = true) ∧
      List.Forall₂ Text.SameLetter op.name.toList name

/-- The text is cut ahead of a name with a stray letter. -/
def HasStrayCut (cs : List Char) : Prop :=
  ∃ name, CutsAhead cs name ∧ ∃ c ∈ name, c ∈ Text.strayLetters

variable {cs rest : List Char} {ps ps' : List (List Char)} {s token : String}

/-- The pieces of a text are the text when the commas are put back. -/
theorem pieces_joined (cs : List Char) :
    ∃ first more, pieces cs = first :: more ∧ cs = first ++ more.flatMap (',' :: ·) := by
  induction cs with
  | nil => exact ⟨[], [], rfl, rfl⟩
  | cons c cs ih =>
      obtain ⟨piece, more, hpieces, hcs⟩ := ih
      by_cases hc : c = ',' ∧ isBoundary cs = true
      · obtain ⟨rfl, hboundary⟩ := hc
        refine ⟨[], piece :: more, by rw [pieces_cons_of_boundary hboundary, hpieces], ?_⟩
        rw [List.nil_append, List.flatMap_cons, List.cons_append, ← hcs]
      · exact ⟨c :: piece, more, pieces_cons hc hpieces, by rw [List.cons_append, ← hcs]⟩

/-- **Between two pieces there is a boundary**, and each side is cut as it is in the whole. -/
theorem exists_boundary (h : pieces cs = ps ++ ps') (hps : ps ≠ []) (hps' : ps' ≠ []) :
    ∃ before rest, cs = before ++ ',' :: rest ∧ isBoundary rest = true ∧ pieces before = ps ∧
      pieces rest = ps' := by
  obtain ⟨piece, ps, rfl⟩ := List.exists_cons_of_ne_nil hps
  rw [List.cons_append] at h
  induction cs generalizing piece ps with
  | nil =>
      obtain ⟨-, hnil⟩ := List.cons.inj h
      exact absurd (List.append_eq_nil_iff.1 hnil.symm).2 hps'
  | cons c cs ih =>
      by_cases hc : c = ',' ∧ isBoundary cs = true
      · obtain ⟨rfl, hboundary⟩ := hc
        rw [pieces_cons_of_boundary hboundary] at h
        obtain ⟨rfl, hpieces⟩ := List.cons.inj h
        cases ps with
        | nil => exact ⟨[], cs, rfl, hboundary, rfl, hpieces⟩
        | cons next ps =>
            obtain ⟨before, rest, rfl, hrest, hbefore, hps'⟩ :=
              ih next ps hpieces (List.cons_ne_nil _ _)
            refine ⟨',' :: before, rest, rfl, hrest, ?_, hps'⟩
            rw [pieces_cons_of_boundary (isBoundary_append_comma_iff.1 hboundary), hbefore]
      · obtain ⟨first, more, hpieces⟩ := List.exists_cons_of_ne_nil (pieces_ne_nil cs)
        rw [pieces_cons hc hpieces] at h
        obtain ⟨rfl, rfl⟩ := List.cons.inj h
        obtain ⟨before, rest, rfl, hrest, hbefore, hps'⟩ :=
          ih first ps hpieces (List.cons_ne_nil _ _)
        refine ⟨c :: before, rest, rfl, hrest, pieces_cons (fun h => hc ⟨h.1, ?_⟩) hbefore, hps'⟩
        exact isBoundary_append_comma_iff.2 h.2

/-- A text without commas stays ahead of the first piece of what follows it. -/
theorem pieces_append_front {front piece : List Char} (h : ',' ∉ front)
    (hcs : pieces cs = piece :: ps) : pieces (front ++ cs) = (front ++ piece) :: ps := by
  induction front with
  | nil => exact hcs
  | cons c front ih =>
      rw [List.mem_cons, not_or] at h
      exact pieces_cons (fun hc => h.1 hc.1.symm) (ih h.2)

section Heads

variable {op : Operator} {name blanks : List Char}
  (hname : List.Forall₂ Text.SameLetter op.name.toList name)
  (hblanks : ∀ c ∈ blanks, Text.isBlank c = true)

include hname hblanks

/-- The first piece has the name and the colon that the text starts with. -/
theorem exists_pieces_name (after : List Char) : ∃ more ps,
    pieces (blanks ++ (name ++ ':' :: after)) = (blanks ++ (name ++ ':' :: more)) :: ps := by
  obtain ⟨more, ps, hpieces⟩ := List.exists_cons_of_ne_nil (pieces_ne_nil after)
  have hfront : ',' ∉ blanks ++ (name ++ [':']) := by
    simp only [List.mem_append, List.mem_singleton, not_or]
    exact ⟨fun hmem => absurd (hblanks _ hmem) (by decide), comma_not_mem_name hname, by decide⟩
  refine ⟨more, ps, ?_⟩
  simpa only [List.append_assoc, List.singleton_append] using pieces_append_front hfront hpieces

/-- Trimming takes nothing of a name and a colon. -/
theorem exists_trimChars_name (after : List Char) : ∃ more,
    Text.trimChars (blanks ++ (name ++ ':' :: after)) = name ++ ':' :: more := by
  rw [Text.trimChars, List.dropWhile_append_of_pos hblanks, dropWhile_isBlank_name hname,
    List.reverse_append, List.reverse_cons, List.append_assoc, List.dropWhile_append]
  split
  · refine ⟨[], ?_⟩
    rw [List.singleton_append, List.dropWhile_cons_of_neg (by decide)]
    simp
  · exact ⟨(after.reverse.dropWhile Text.isBlank).reverse, by simp⟩

end Heads

/-! ## Tokens of pieces -/

/-- The tokens of pieces: what is left of them without the blanks at their ends, if anything is. -/
def tokensOfPieces (ps : List (List Char)) : List String :=
  (ps.map fun piece => String.ofList (Text.trimChars piece)).filter (· ≠ "")

theorem tokensOfPieces_append (ps ps' : List (List Char)) :
    tokensOfPieces (ps ++ ps') = tokensOfPieces ps ++ tokensOfPieces ps' := by
  rw [tokensOfPieces, List.map_append, List.filter_append]
  rfl

theorem tokensOfPieces_eq_nil_iff :
    tokensOfPieces ps = [] ↔ ∀ piece ∈ ps, ∀ c ∈ piece, Text.isBlank c = true := by
  simp only [tokensOfPieces, List.filter_eq_nil_iff, List.forall_mem_map, decide_eq_true_iff,
    not_not, ← Text.trimChars_eq_nil_iff, ← String.toList_inj, String.toList_ofList,
    String.toList_empty]

/-- Each token is left of one piece, and the pieces ahead of that one have the tokens ahead of it. -/
theorem exists_piece_of_tokens {ts ts' : List String}
    (h : tokensOfPieces ps = ts ++ token :: ts') : ∃ front piece back, ps = front ++ piece :: back ∧
      tokensOfPieces front = ts ∧ token = String.ofList (Text.trimChars piece) := by
  obtain ⟨front', back', hmap, hfront', hback'⟩ := List.filter_eq_append_iff.1 h
  obtain ⟨skipped, back'', rfl, hskipped, -, -⟩ := List.filter_eq_cons_iff.1 hback'
  rw [← List.append_assoc] at hmap
  obtain ⟨front, back, rfl, hfront, hback⟩ := List.map_eq_append_iff.1 hmap
  obtain ⟨piece, back, rfl, htoken, -⟩ := List.map_eq_cons_iff.1 hback
  refine ⟨front, piece, back, rfl, ?_, htoken.symm⟩
  rw [tokensOfPieces, hfront, List.filter_append, hfront', List.filter_eq_nil_iff.2 hskipped,
    List.append_nil]

theorem mem_tail_iff {ts : List String} :
    token ∈ ts.tail ↔ ∃ front back, front ≠ [] ∧ ts = front ++ token :: back := by
  cases ts with
  | nil => simp
  | cons first ts =>
      rw [List.tail_cons, List.mem_iff_append]
      constructor
      · rintro ⟨front, back, rfl⟩
        exact ⟨first :: front, back, List.cons_ne_nil _ _, rfl⟩
      · rintro ⟨front, back, hne, h⟩
        obtain ⟨_, front, rfl⟩ := List.exists_cons_of_ne_nil hne
        exact ⟨front, back, (List.cons.inj h).2⟩

/-- A text has a token if there is something in it that is no blank. -/
theorem tokensOfPieces_pieces_eq_nil_iff :
    tokensOfPieces (pieces cs) = [] ↔ ∀ c ∈ cs, Text.isBlank c = true := by
  rw [tokensOfPieces_eq_nil_iff]
  by_cases h : HasBoundary cs
  · obtain ⟨before, rest, rfl, hrest⟩ := hasBoundary_iff.1 h
    obtain ⟨blanks, name, after, op, rfl, hblanks, hname⟩ := isBoundary_iff.1 hrest
    obtain ⟨more, ps, hfirst⟩ := exists_pieces_name hname hblanks after
    rw [pieces_append_of_boundary hrest, hfirst]
    -- neither the comma nor the colon behind it is a blank
    apply iff_of_false
    · intro hall
      have hcolon := hall _ (List.mem_append_right _ List.mem_cons_self) ':' (by simp)
      exact absurd hcolon (by decide)
    · intro hall
      exact absurd (hall ',' (List.mem_append_right _ List.mem_cons_self)) (by decide)
  · rw [pieces_eq_singleton_iff.2 h, List.forall_mem_singleton]

/-- **Each token after the first starts with a name that the text is cut ahead of.** -/
theorem cutsAhead_of_mem_tail (h : token ∈ (tokensOfText s).tail) :
    ∃ name after, CutsAhead s.toList name ∧ token.toList = name ++ ':' :: after := by
  obtain ⟨ts, ts', hne, hts⟩ := mem_tail_iff.1 h
  obtain ⟨front, piece, back, hpieces, rfl, rfl⟩ := exists_piece_of_tokens hts
  have hfront : front ≠ [] := fun hnil => hne (by rw [hnil]; rfl)
  obtain ⟨before, rest, hs, hrest, rfl, hback⟩ :=
    exists_boundary hpieces hfront (List.cons_ne_nil _ _)
  obtain ⟨blanks, name, after, op, rfl, hblanks, hname⟩ := isBoundary_iff.1 hrest
  obtain ⟨more, ps, hfirst⟩ := exists_pieces_name hname hblanks after
  obtain ⟨rfl, -⟩ := List.cons.inj (hfirst.symm.trans hback)
  obtain ⟨value, hvalue⟩ := exists_trimChars_name hname hblanks more
  refine ⟨name, value, ⟨before, blanks, after, op, hs, ?_, hblanks, hname⟩, ?_⟩
  · rw [Ne, tokensOfPieces_pieces_eq_nil_iff] at hne
    simpa using hne
  · rw [String.toList_ofList, hvalue]

/-- **Where the text is cut ahead of a name, a token after the first starts with it.** -/
theorem exists_mem_tail_of_cutsAhead {name : List Char} (h : CutsAhead s.toList name) :
    ∃ token ∈ (tokensOfText s).tail, ∃ after, token.toList = name ++ ':' :: after := by
  obtain ⟨before, blanks, after, op, hs, ⟨c, hc, hblank⟩, hblanks, hname⟩ := h
  obtain ⟨more, ps, hfirst⟩ := exists_pieces_name hname hblanks after
  obtain ⟨value, hvalue⟩ := exists_trimChars_name hname hblanks more
  have hrest : isBoundary (blanks ++ (name ++ ':' :: after)) = true :=
    isBoundary_iff.2 ⟨blanks, name, after, op, rfl, hblanks, hname⟩
  have hfirst' : tokensOfPieces ((blanks ++ (name ++ ':' :: more)) :: ps) =
      String.ofList (name ++ ':' :: value) :: tokensOfPieces ps := by
    rw [tokensOfPieces, List.map_cons, hvalue]
    apply List.filter_cons_of_pos
    simp [← String.toList_inj]
  have htokens : tokensOfText s = tokensOfPieces (pieces before) ++
      String.ofList (name ++ ':' :: value) :: tokensOfPieces ps := by
    change tokensOfPieces (pieces s.toList) = _
    rw [hs, pieces_append_of_boundary hrest, hfirst, tokensOfPieces_append, hfirst']
  refine ⟨String.ofList (name ++ ':' :: value), ?_, value, String.toList_ofList⟩
  refine mem_tail_iff.2 ⟨_, _, fun hnil => ?_, htokens⟩
  rw [tokensOfPieces_pieces_eq_nil_iff] at hnil
  exact Bool.false_ne_true (hblank.symm.trans (hnil c hc))

/-! ## What the tokens start with -/

/-- A token starts with an operator if what stands ahead of its first colon is read as one. -/
theorem exists_starts_iff {name after : List Char} (htoken : token.toList = name ++ ':' :: after)
    (hcolon : ':' ∉ name) : (∃ op raw, Operator.Starts op token raw) ↔
      ∃ op, Operator.read? (String.ofList name) = some op := by
  constructor
  · rintro ⟨op, raw, name', htoken', hcolon', hread⟩
    have hcut := Text.cutChars_append hcolon after
    rw [← htoken, htoken', Text.cutChars_append hcolon'] at hcut
    obtain ⟨rfl, -⟩ := Prod.mk.inj (Option.some.inj hcut)
    rw [String.ofList_toList]
    exact ⟨op, hread⟩
  · rintro ⟨op, hread⟩
    refine ⟨op, String.ofList after, String.ofList name, ?_, ?_, hread⟩
    · simpa only [String.toList_ofList] using htoken
    · simpa only [String.toList_ofList] using hcolon

/-- A token that starts with a name the text is cut ahead of starts with an operator, unless there is
a stray letter in the name. -/
theorem starts_iff_of_cutsAhead {name after : List Char} (h : CutsAhead cs name)
    (htoken : token.toList = name ++ ':' :: after) :
    (∃ op raw, Operator.Starts op token raw) ↔ ∀ c ∈ name, c ∉ Text.strayLetters := by
  obtain ⟨-, -, -, op, -, -, -, hname⟩ := h
  rw [exists_starts_iff htoken (Operator.colon_not_mem hname)]
  constructor
  · rintro ⟨op', hread⟩ c hc hstray
    rw [Operator.read?_of_mem_strayLetters hname hstray hc] at hread
    exact Option.some_ne_none op' hread.symm
  · exact fun hstray => ⟨op, Operator.read?_of_sameLetter hname hstray⟩

/-- **The tokens after the first start with operators unless the text has a stray cut.** -/
theorem tail_starts_iff : (∀ token ∈ (tokensOfText s).tail, ∃ op raw, Operator.Starts op token raw) ↔
    ¬HasStrayCut s.toList := by
  constructor
  · rintro h ⟨name, hcut, c, hc, hstray⟩
    obtain ⟨token, hmem, after, htoken⟩ := exists_mem_tail_of_cutsAhead hcut
    exact (starts_iff_of_cutsAhead hcut htoken).1 (h token hmem) c hc hstray
  · intro h token hmem
    obtain ⟨name, after, hcut, htoken⟩ := cutsAhead_of_mem_tail hmem
    refine (starts_iff_of_cutsAhead hcut htoken).2 fun c hc hstray => ?_
    exact h ⟨name, hcut, c, hc, hstray⟩

theorem exists_readTerm_iff (field : String) : (∃ t, Clause.readTerm field token = .ok t) ↔
    ∃ op raw, Operator.Starts op token raw := by
  constructor
  · rintro ⟨t, ht⟩
    obtain ⟨op, raw, -, hstarts⟩ := starts_of_readTerm ht
    exact ⟨op, raw, hstarts⟩
  · rintro ⟨op, raw, name, htoken, hcolon, hread⟩
    refine ⟨(op, .text raw), ?_⟩
    simp only [Clause.readTerm, Text.cutAt_eq_some_iff.2 ⟨htoken, hcolon⟩, hread]

/-- Tokens are read as terms if each of them starts with an operator. -/
theorem exists_readTerms_iff (field : String) {ts : List String} :
    (∃ terms, Clause.readTerms field ts = .ok terms) ↔
      ∀ token ∈ ts, ∃ op raw, Operator.Starts op token raw := by
  induction ts with
  | nil => exact iff_of_true ⟨[], rfl⟩ fun token htoken => absurd htoken List.not_mem_nil
  | cons token ts ih =>
      rw [List.forall_mem_cons, ← ih, ← exists_readTerm_iff field]
      constructor
      · rintro ⟨terms, h⟩
        obtain ⟨t, ht, h⟩ := Result.bind_eq_ok.1 h
        obtain ⟨terms', hterms, -⟩ := Result.bind_eq_ok.1 h
        exact ⟨⟨t, ht⟩, terms', hterms⟩
      · rintro ⟨⟨t, ht⟩, terms, hterms⟩
        refine ⟨t :: terms, ?_⟩
        rw [Clause.readTerms, ht, Result.ok_bind, hterms]
        rfl

/-- A clause is read from tokens if each of them starts with an operator. -/
theorem exists_read_iff (field : String) {raw : Value} {ts : List String} (hts : tokens raw = .ok ts) :
    (∃ c, Clause.read field raw .null = .ok c) ↔
      ∀ token ∈ ts, ∃ op raw, Operator.Starts op token raw := by
  rw [← exists_readTerms_iff field]
  constructor
  · rintro ⟨c, h⟩
    obtain ⟨ts', _, hts', -, hterms, -⟩ := parts_of_read h
    obtain rfl := Except.ok.inj (hts.symm.trans hts')
    exact ⟨c.terms, hterms⟩
  · rintro ⟨terms, hterms⟩
    refine ⟨⟨field, terms, .conjunction⟩, ?_⟩
    rw [Clause.read, hts, Result.ok_bind, hterms]
    rfl

theorem tokens_texts (texts : List String) :
    tokens (.list (texts.map .text)) = .ok (texts.flatMap tokensOfText) :=
  tokensOfItems_texts texts

/-- The first token of a text and all others start with operators. -/
theorem forall_starts_iff : (∀ token ∈ tokensOfText s, ∃ op raw, Operator.Starts op token raw) ↔
    (∀ token ∈ (tokensOfText s).head?, ∃ op raw, Operator.Starts op token raw) ∧
      ¬HasStrayCut s.toList := by
  rw [← tail_starts_iff]
  cases tokensOfText s with
  | nil => simp
  | cons token ts => simp

/-- **A text is cut ahead of operators only.** The pieces make up the text, with a comma between any
two of them, so a comma that starts no token stays in its value. Each token after the first has a
colon, and it starts with an operator unless the operator it is cut ahead of has a stray letter in it.
So a filter on a field is refused for a token that no operator starts if that is the first token of a
text, or if a text has a stray cut, and for no other token. -/
theorem later_tokens_start_iff (field s : String) (texts : List String) :
    (∃ first more, pieces s.toList = first :: more ∧ s.toList = first ++ more.flatMap (',' :: ·)) ∧
      (∀ token ∈ (tokensOfText s).tail, ':' ∈ token.toList) ∧
      ((∀ token ∈ (tokensOfText s).tail, ∃ op raw, Operator.Starts op token raw) ↔
        ¬HasStrayCut s.toList) ∧
      ((∃ c, Clause.read field (.text s) .null = .ok c) ↔
        (∀ token ∈ (tokensOfText s).head?, ∃ op raw, Operator.Starts op token raw) ∧
          ¬HasStrayCut s.toList) ∧
      ((∃ c, Clause.read field (.list (texts.map .text)) .null = .ok c) ↔
        ∀ s ∈ texts, (∀ token ∈ (tokensOfText s).head?, ∃ op raw, Operator.Starts op token raw) ∧
          ¬HasStrayCut s.toList) := by
  refine ⟨pieces_joined s.toList, fun token hmem => ?_, tail_starts_iff, ?_, ?_⟩
  · obtain ⟨name, after, -, htoken⟩ := cutsAhead_of_mem_tail hmem
    rw [htoken]
    exact List.mem_append_right _ List.mem_cons_self
  · rw [exists_read_iff field rfl, forall_starts_iff]
  · rw [exists_read_iff field (tokens_texts texts)]
    simp only [List.mem_flatMap, ← forall_starts_iff]
    constructor
    · exact fun h s hs token htoken => h token ⟨s, hs, htoken⟩
    · rintro h token ⟨s, hs, htoken⟩
      exact h s hs token htoken

/-- **A small letter without a dot starts a token that is refused.** The text is cut at its comma,
although what follows is read as no operator. -/
theorem later_tokens_start_fails : tokensOfText "eq:a,\u0131n:b" = ["eq:a", "\u0131n:b"] ∧
    (¬∃ op raw, Operator.Starts op "\u0131n:b" raw) ∧
    Clause.read "name" (.text "eq:a,\u0131n:b") .null =
      reject (.filterOperator "name" "\u0131n") := by
  have htokens : tokensOfText "eq:a,\u0131n:b" = ["eq:a", "\u0131n:b"] := by
    decide +kernel
  have hread : Operator.read? "\u0131n" = none := by
    decide +kernel
  have hcut : Text.cutAt ':' "\u0131n:b" = some ("\u0131n", "b") := by
    decide
  refine ⟨htokens, ?_, ?_⟩
  · rintro ⟨op, raw, hstarts⟩
    obtain ⟨t, ht⟩ := (exists_readTerm_iff "name").2 ⟨op, raw, hstarts⟩
    simp only [Clause.readTerm, hcut, hread] at ht
    exact reject_ne_ok _ _ ht
  · have hterm : Clause.readTerm "name" "\u0131n:b" = reject (.filterOperator "name" "\u0131n") := by
      simp only [Clause.readTerm, hcut, hread]
      rfl
    rw [Clause.read, tokens, htokens, Result.ok_bind, Clause.readTerms, Clause.readTerms, hterm]
    rfl

end Filter

end Listing
