import Listing.Proofs.FilterMeaning
import Listing.Proofs.PatternPieces

/-!
# Written filters

There is no quoting in a filter: a comma in a value separates two tokens if an operator and a colon
follow it, and belongs to the value otherwise (`Filter.HasBoundary`). Terms whose values hold no such
comma and do not end in a blank are read back as they were written, all in one text or spread over
several (`Filter.tokens_written`, `Filter.reads_written`).
-/

set_option autoImplicit false

namespace Listing

/-! ## The letters of operators -/

namespace Text

theorem sharedCases_colon : ∀ letters ∈ sharedCases, ':'.toNat ∉ letters := by
  decide +kernel

/-- No run leads down to the colon. -/
theorem lowerRuns_above_colon : ∀ r ∈ lowerRuns, (':'.toNat : Int) < r.first + r.shift := by
  decide +kernel

theorem toNat_of_ofNat_eq_colon {n : Nat} (h : Char.ofNat n = ':') : n = ':'.toNat := by
  by_cases hvalid : n.isValidChar
  · rw [← h, toNat_ofNat_of_isValidChar hvalid]
  · rw [Char.ofNat, dif_neg hvalid] at h
    exact absurd h (by decide)

theorem eq_colon_of_lowerChar {c : Char} (h : lowerChar c = ':') : c = ':' := by
  rw [lowerChar] at h
  split at h
  · split at h
    · next hletter =>
        have hcolon := toNat_of_ofNat_eq_colon h
        have : ':'.toNat = 58 := rfl
        omega
    · exact h
  · have hcolon := toNat_of_ofNat_eq_colon h
    rw [shiftBy] at hcolon
    split at hcolon
    · next r hr =>
        have hcovers := List.find?_some hr
        have hrun := lowerRuns_above_colon r (List.mem_of_find?_eq_some hr)
        simp only [CaseRun.covers, Bool.and_eq_true, decide_eq_true_iff] at hcovers
        omega
    · exact Char.toNat_inj.1 hcolon

/-- Only the colon is the same letter as the colon. -/
theorem sameLetter_colon_iff {c : Char} : SameLetter ':' c ↔ c = ':' := by
  constructor
  · rintro (h | ⟨letters, hletters, hcolon, -⟩)
    · exact eq_colon_of_lowerChar h.symm
    · exact absurd hcolon (sharedCases_colon letters hletters)
  · rintro rfl
    exact .inl rfl

/-- The code points of the blank characters. -/
def blankPoints : List Nat :=
  [9, 10, 11, 12, 13, 28, 29, 30, 31, 32, 0x85, 0xA0, 0x1680, 0x2000, 0x2001, 0x2002, 0x2003, 0x2004,
    0x2005, 0x2006, 0x2007, 0x2008, 0x2009, 0x200A, 0x2028, 0x2029, 0x202F, 0x205F, 0x3000]

theorem mem_blankPoints {c : Char} (h : isBlank c = true) : c.toNat ∈ blankPoints := by
  simp only [isBlank] at h
  simp only [blankPoints, List.mem_cons, List.not_mem_nil, or_false]
  split at h
  · simp only [Bool.or_eq_true, Bool.and_eq_true, decide_eq_true_iff, beq_iff_eq] at h
    omega
  · simp only [Bool.or_eq_true, Bool.and_eq_true, decide_eq_true_iff, beq_iff_eq] at h
    omega

theorem fold_blankPoints : ∀ n ∈ blankPoints, fold (Char.ofNat n) = Char.ofNat n := by
  decide +kernel

theorem fold_of_isBlank {c : Char} (h : isBlank c = true) : fold c = c := by
  have hfold := fold_blankPoints c.toNat (mem_blankPoints h)
  rwa [Char.ofNat_toNat] at hfold

/-- The character is one of the letters from a to z. -/
def isSmall (c : Char) : Bool :=
  decide (97 ≤ c.toNat) && decide (c.toNat ≤ 122)

theorem isSmall_iff {c : Char} : isSmall c = true ↔ 97 ≤ c.toNat ∧ c.toNat ≤ 122 := by
  rw [isSmall, Bool.and_eq_true, decide_eq_true_iff, decide_eq_true_iff]

theorem isBlank_of_isSmall {c : Char} (h : isSmall c = true) : isBlank c = false := by
  rw [isSmall_iff] at h
  simp only [isBlank, if_pos (show c.toNat < 128 by omega)]
  simp only [Bool.or_eq_false_iff, Bool.and_eq_false_iff, decide_eq_false_iff_not,
    beq_eq_false_iff_ne]
  omega

theorem fold_of_isSmall {c : Char} (h : isSmall c = true) : fold c = c := by
  rw [isSmall_iff] at h
  have hlower : lowerChar c = c := by
    rw [lowerChar, if_pos (by omega), if_neg (by omega)]
  rw [fold, hlower, if_pos (by omega)]

end Text

namespace Operator

theorem mem_all (op : Operator) : op ∈ all := by
  cases op with
  | order c => cases c <;> decide
  | _ => decide

theorem read?_name (op : Operator) : read? op.name = some op := by
  cases op with
  | order c => cases c <;> decide +kernel
  | _ => decide +kernel

/-- The name of an operator is a word of letters from a to z. -/
theorem name_small (op : Operator) :
    op.name.toList ≠ [] ∧ op.name.toList.all Text.isSmall = true := by
  cases op with
  | order c => cases c <;> decide
  | _ => decide

theorem name_ne_nil (op : Operator) : op.name.toList ≠ [] :=
  op.name_small.1

theorem isSmall_of_mem_name {op : Operator} {w : Char} (hw : w ∈ op.name.toList) :
    Text.isSmall w = true :=
  List.all_eq_true.1 op.name_small.2 w hw

theorem not_mem_name (op : Operator) {c : Char} (hc : Text.isSmall c = false) :
    c ∉ op.name.toList :=
  fun hmem => Bool.false_ne_true (hc.symm.trans (isSmall_of_mem_name hmem))

variable {op : Operator} {w : Char}

/-- A character that folds to itself is the same letter as no other in the name of an operator. -/
theorem not_sameLetter (hw : w ∈ op.name.toList) {c : Char} (hc : Text.fold c = c)
    (hsmall : Text.isSmall c = false) : ¬Text.SameLetter w c := by
  intro h
  have hfold := Text.fold_eq_fold_iff.2 h
  rw [Text.fold_of_isSmall (isSmall_of_mem_name hw), hc] at hfold
  exact op.not_mem_name hsmall (hfold ▸ hw)

theorem not_sameLetter_of_isBlank (hw : w ∈ op.name.toList) {c : Char}
    (hc : Text.isBlank c = true) : ¬Text.SameLetter w c := by
  apply not_sameLetter hw (Text.fold_of_isBlank hc)
  rw [Bool.eq_false_iff]
  intro hsmall
  exact Bool.false_ne_true ((Text.isBlank_of_isSmall hsmall).symm.trans hc)

theorem not_sameLetter_comma (hw : w ∈ op.name.toList) : ¬Text.SameLetter w ',' :=
  not_sameLetter hw (by decide) (by decide)

end Operator

namespace Filter

/-! ## Boundaries between tokens -/

/-- The text has a comma where a new token starts: blanks, the name of an operator without regard to
case, and a colon follow it. -/
def HasBoundary (cs : List Char) : Prop :=
  ∃ before blanks name after, ∃ op : Operator,
    cs = before ++ ',' :: (blanks ++ (name ++ ':' :: after)) ∧
      (∀ c ∈ blanks, Text.isBlank c = true) ∧ List.Forall₂ Text.SameLetter op.name.toList name

variable {cs rest : List Char}

theorem startsWith_append_iff {word more : List Char} : startsWith (word ++ more) cs = true ↔
    ∃ piece rest, cs = piece ++ rest ∧ List.Forall₂ Text.SameLetter word piece ∧
      startsWith more rest = true := by
  induction word generalizing cs with
  | nil => simp
  | cons w word ih =>
      cases cs with
      | nil => simp [startsWith]
      | cons c cs =>
          rw [List.cons_append, startsWith, Bool.and_eq_true, Wildcard.sameLetter_true_iff, ih]
          constructor
          · rintro ⟨hc, piece, rest, rfl, hpiece, hrest⟩
            exact ⟨c :: piece, rest, rfl, .cons hc hpiece, hrest⟩
          · rintro ⟨piece, rest, hcs, hpiece, hrest⟩
            cases hpiece with
            | cons hc hpiece =>
                obtain ⟨rfl, rfl⟩ := List.cons.inj hcs
                exact ⟨hc, _, rest, rfl, hpiece, hrest⟩

theorem startsWith_colon_iff : startsWith [':'] cs = true ↔ ∃ after, cs = ':' :: after := by
  cases cs with
  | nil => simp [startsWith]
  | cons c cs =>
      rw [startsWith, startsWith, Bool.and_true, Wildcard.sameLetter_true_iff,
        Text.sameLetter_colon_iff]
      simp

theorem startsToken_iff : startsToken cs = true ↔ ∃ name after, ∃ op : Operator,
    cs = name ++ ':' :: after ∧ List.Forall₂ Text.SameLetter op.name.toList name := by
  simp only [startsToken, List.any_eq_true, startsWith_append_iff, startsWith_colon_iff]
  constructor
  · rintro ⟨op, -, name, rest, rfl, hname, after, rfl⟩
    exact ⟨name, after, op, rfl, hname⟩
  · rintro ⟨name, after, op, rfl, hname⟩
    exact ⟨op, op.mem_all, name, _, rfl, hname, after, rfl⟩

/-- What is the name of an operator without regard to case does not start with a blank. -/
theorem dropWhile_isBlank_name {op : Operator} {name : List Char}
    (h : List.Forall₂ Text.SameLetter op.name.toList name) (rest : List Char) :
    (name ++ rest).dropWhile Text.isBlank = name ++ rest := by
  apply Text.dropWhile_isBlank_eq_self
  intro c hc
  cases hop : op.name.toList with
  | nil => exact absurd hop op.name_ne_nil
  | cons w word =>
      rw [hop] at h
      cases h with
      | cons hsame =>
          obtain rfl := Option.some.inj hc
          rw [Bool.eq_false_iff]
          intro hblank
          exact Operator.not_sameLetter_of_isBlank (hop ▸ List.mem_cons_self) hblank hsame

theorem isBoundary_iff : isBoundary cs = true ↔ ∃ blanks name after, ∃ op : Operator,
    cs = blanks ++ (name ++ ':' :: after) ∧ (∀ c ∈ blanks, Text.isBlank c = true) ∧
      List.Forall₂ Text.SameLetter op.name.toList name := by
  rw [isBoundary, startsToken_iff]
  constructor
  · rintro ⟨name, after, op, hcs, hname⟩
    refine ⟨cs.takeWhile Text.isBlank, name, after, op, ?_, ?_, hname⟩
    · rw [← hcs, List.takeWhile_append_dropWhile]
    · exact fun c hc => List.mem_takeWhile_imp hc
  · rintro ⟨blanks, name, after, op, rfl, hblanks, hname⟩
    refine ⟨name, after, op, ?_, hname⟩
    rw [List.dropWhile_append_of_pos hblanks, dropWhile_isBlank_name hname]

theorem hasBoundary_iff :
    HasBoundary cs ↔ ∃ before rest, cs = before ++ ',' :: rest ∧ isBoundary rest = true := by
  simp only [isBoundary_iff]
  constructor
  · rintro ⟨before, blanks, name, after, op, hcs, hboundary⟩
    exact ⟨before, _, hcs, blanks, name, after, op, rfl, hboundary⟩
  · rintro ⟨before, rest, hcs, blanks, name, after, op, rfl, hboundary⟩
    exact ⟨before, blanks, name, after, op, hcs, hboundary⟩

theorem not_hasBoundary_nil : ¬HasBoundary [] := by
  rintro ⟨before, blanks, name, after, op, hcs, -⟩
  exact List.append_ne_nil_of_right_ne_nil _ (List.cons_ne_nil _ _) hcs.symm

theorem hasBoundary_cons_iff {c : Char} :
    HasBoundary (c :: cs) ↔ (c = ',' ∧ isBoundary cs = true) ∨ HasBoundary cs := by
  simp only [hasBoundary_iff]
  constructor
  · rintro ⟨before, rest, hcs, hrest⟩
    cases before with
    | nil =>
        obtain ⟨rfl, rfl⟩ := List.cons.inj hcs
        exact .inl ⟨rfl, hrest⟩
    | cons d before =>
        obtain ⟨rfl, rfl⟩ := List.cons.inj hcs
        exact .inr ⟨before, rest, rfl, hrest⟩
  · rintro (⟨rfl, hcs⟩ | ⟨before, rest, rfl, hrest⟩)
    · exact ⟨[], cs, rfl, hcs⟩
    · exact ⟨c :: before, rest, rfl, hrest⟩

/-! ## Pieces -/

theorem pieces_ne_nil (cs : List Char) : pieces cs ≠ [] := by
  cases cs with
  | nil => exact List.cons_ne_nil _ _
  | cons c cs =>
      rw [pieces]
      split
      · exact List.cons_ne_nil _ _
      · split <;> exact List.cons_ne_nil _ _

theorem pieces_cons_of_boundary (h : isBoundary cs = true) : pieces (',' :: cs) = [] :: pieces cs := by
  rw [pieces, h]
  rfl

theorem pieces_cons {c : Char} (h : ¬(c = ',' ∧ isBoundary cs = true)) {piece : List Char}
    {more : List (List Char)} (hcs : pieces cs = piece :: more) :
    pieces (c :: cs) = (c :: piece) :: more := by
  rw [pieces, if_neg, hcs]
  rwa [Bool.and_eq_true, beq_iff_eq]

/-- A text is one piece if there is no boundary in it. -/
theorem pieces_eq_singleton_iff : pieces cs = [cs] ↔ ¬HasBoundary cs := by
  induction cs with
  | nil => exact iff_of_true rfl not_hasBoundary_nil
  | cons c cs ih =>
      rw [hasBoundary_cons_iff, not_or, ← ih]
      by_cases hc : c = ',' ∧ isBoundary cs = true
      · obtain ⟨rfl, hcs⟩ := hc
        rw [pieces_cons_of_boundary hcs]
        simp [hcs]
      · obtain ⟨piece, more, hpieces⟩ := List.exists_cons_of_ne_nil (pieces_ne_nil cs)
        rw [pieces_cons hc hpieces, hpieces]
        simp [hc]

instance : DecidablePred HasBoundary := fun cs =>
  decidable_of_iff (pieces cs ≠ [cs]) (by rw [Ne, pieces_eq_singleton_iff, not_not])

theorem comma_not_mem_name {op : Operator} {name : List Char}
    (h : List.Forall₂ Text.SameLetter op.name.toList name) : ',' ∉ name := by
  intro hmem
  obtain ⟨w, hw, hsame⟩ := exists_of_mem_forall₂ h hmem
  exact Operator.not_sameLetter_comma hw hsame

/-- A text without commas ahead of a comma is the start of what stands ahead of the comma. -/
theorem exists_append_of_not_mem {front after : List Char} (hfront : ',' ∉ front)
    (h : cs ++ ',' :: rest = front ++ after) : ∃ more, cs = front ++ more := by
  rcases List.append_eq_append_iff.1 h with ⟨more, hmore, hafter⟩ | ⟨more, hmore, -⟩
  · cases more with
    | nil => exact ⟨[], by simpa using hmore.symm⟩
    | cons c more =>
        obtain ⟨rfl, -⟩ := List.cons.inj hafter
        exact absurd (hmore ▸ List.mem_append_right cs List.mem_cons_self) hfront
  · exact ⟨more, hmore⟩

/-- What follows a comma makes no boundary of what stands ahead of it. -/
theorem isBoundary_of_append_comma (h : isBoundary (cs ++ ',' :: rest) = true) :
    isBoundary cs = true := by
  obtain ⟨blanks, name, after, op, hcs, hblanks, hname⟩ := isBoundary_iff.1 h
  -- all that makes the boundary stands ahead of the comma, as there is none in it
  have hfront : ',' ∉ blanks ++ (name ++ [':']) := by
    simp only [List.mem_append, List.mem_singleton, not_or]
    exact ⟨fun hmem => absurd (hblanks _ hmem) (by decide), comma_not_mem_name hname, by decide⟩
  obtain ⟨more, rfl⟩ : ∃ more, cs = blanks ++ (name ++ [':']) ++ more := by
    apply exists_append_of_not_mem hfront
    rw [hcs, List.append_assoc, List.append_assoc, List.singleton_append]
  exact isBoundary_iff.2 ⟨blanks, name, more, op, by simp, hblanks, hname⟩

theorem isBoundary_append_comma_iff :
    isBoundary (cs ++ ',' :: rest) = true ↔ isBoundary cs = true := by
  refine ⟨isBoundary_of_append_comma, fun h => ?_⟩
  obtain ⟨blanks, name, after, op, rfl, hblanks, hname⟩ := isBoundary_iff.1 h
  exact isBoundary_iff.2 ⟨blanks, name, after ++ ',' :: rest, op, by simp, hblanks, hname⟩

/-- The pieces on either side of a boundary are pieces of the whole. -/
theorem pieces_append_of_boundary (hrest : isBoundary rest = true) :
    pieces (cs ++ ',' :: rest) = pieces cs ++ pieces rest := by
  induction cs with
  | nil => exact pieces_cons_of_boundary hrest
  | cons c cs ih =>
      rw [List.cons_append]
      by_cases hc : c = ',' ∧ isBoundary cs = true
      · obtain ⟨rfl, hcs⟩ := hc
        rw [pieces_cons_of_boundary (isBoundary_append_comma_iff.2 hcs), ih,
          pieces_cons_of_boundary hcs, List.cons_append]
      · obtain ⟨piece, more, hpieces⟩ := List.exists_cons_of_ne_nil (pieces_ne_nil cs)
        rw [hpieces] at ih
        rw [pieces_cons hc hpieces]
        refine pieces_cons (fun h => hc ⟨h.1, ?_⟩) ih
        exact isBoundary_append_comma_iff.1 h.2

/-- **A boundary ends a piece** that has no boundary in it. -/
theorem pieces_append (h : ¬HasBoundary cs) (hrest : isBoundary rest = true) :
    pieces (cs ++ ',' :: rest) = cs :: pieces rest := by
  rw [pieces_append_of_boundary hrest, pieces_eq_singleton_iff.2 h, List.singleton_append]

/-! ## Terms as they are written -/

/-- The operator and the value with a colon between them. -/
def writeTerm (t : Operator × String) : String :=
  t.1.name ++ ":" ++ t.2

/-- The terms with commas between them. -/
def writeTerms (ts : List (Operator × String)) : String :=
  Text.joinWith "," (ts.map writeTerm)

/-- The value may stand in a written term: it has no boundary in it and does not end in a blank. -/
def IsPlain (v : String) : Prop :=
  ¬HasBoundary v.toList ∧ ¬Text.EndsBlank v.toList

instance (v : String) : Decidable (IsPlain v) :=
  inferInstanceAs (Decidable (_ ∧ _))

/-- The terms are written into a text, or into several texts, each with terms of its own. -/
inductive Written : Value → List (Operator × String) → Prop
  | text (ts : List (Operator × String)) : Written (.text (writeTerms ts)) ts
  | several {raw : Value} {groups : List (List (Operator × String))} (htext : raw.text? = none)
    (helements : raw.elements? = some (groups.map fun ts => .text (writeTerms ts))) :
    Written raw groups.flatten

variable {t : Operator × String} {ts : List (Operator × String)}

theorem toList_writeTerm (t : Operator × String) :
    (writeTerm t).toList = t.1.name.toList ++ ':' :: t.2.toList := by
  rw [writeTerm, String.toList_append, String.toList_append, List.append_assoc]
  rfl

theorem forall₂_sameLetter_self (word : List Char) : List.Forall₂ Text.SameLetter word word :=
  List.forall₂_same.2 fun _ _ => .inl rfl

/-- A token starts where a term is written. -/
theorem isBoundary_writeTerm (t : Operator × String) (rest : List Char) :
    isBoundary ((writeTerm t).toList ++ rest) = true := by
  refine isBoundary_iff.2 ⟨[], t.1.name.toList, t.2.toList ++ rest, t.1, ?_, ?_, ?_⟩
  · rw [toList_writeTerm, List.append_assoc, List.cons_append, List.nil_append]
  · exact fun c hc => absurd hc List.not_mem_nil
  · exact forall₂_sameLetter_self _

theorem hasBoundary_append_iff_of_not_mem {front : List Char} (h : ',' ∉ front) :
    HasBoundary (front ++ cs) ↔ HasBoundary cs := by
  induction front with
  | nil => rfl
  | cons c front ih =>
      rw [List.mem_cons, not_or] at h
      rw [List.cons_append, hasBoundary_cons_iff, ih h.2, or_iff_right]
      exact fun hc => h.1 hc.1.symm

/-- A written term has no boundary in it if its value has none. -/
theorem hasBoundary_writeTerm_iff : HasBoundary (writeTerm t).toList ↔ HasBoundary t.2.toList := by
  rw [toList_writeTerm, List.append_cons]
  apply hasBoundary_append_iff_of_not_mem
  rw [List.mem_append, List.mem_singleton, not_or]
  exact ⟨t.1.not_mem_name (by decide), by decide⟩

/-- **The pieces of written terms are the terms.** -/
theorem pieces_writeTerms (hne : ts ≠ []) (h : ∀ t ∈ ts, ¬HasBoundary t.2.toList) :
    pieces (writeTerms ts).toList = ts.map fun t => (writeTerm t).toList := by
  induction ts with
  | nil => exact absurd rfl hne
  | cons t ts ih =>
      have ht : ¬HasBoundary (writeTerm t).toList :=
        fun hboundary => h t List.mem_cons_self (hasBoundary_writeTerm_iff.1 hboundary)
      cases ts with
      | nil => exact pieces_eq_singleton_iff.2 ht
      | cons t' ts =>
          have hrest := ih (List.cons_ne_nil _ _) fun s hs => h s (List.mem_cons_of_mem _ hs)
          have hcs : (writeTerms (t :: t' :: ts)).toList =
              (writeTerm t).toList ++ ',' :: (writeTerms (t' :: ts)).toList :=
            Text.toList_joinWith_cons_cons _ _ _ _
          -- the next term makes a boundary of the comma ahead of it
          obtain ⟨more, hmore⟩ : ∃ more, (writeTerms (t' :: ts)).toList =
              (writeTerm t').toList ++ more :=
            Text.exists_toList_joinWith_cons _ _ _
          have hstart : isBoundary (writeTerms (t' :: ts)).toList = true := by
            rw [hmore]
            exact isBoundary_writeTerm t' more
          rw [hcs, pieces_append ht hstart, hrest]
          rfl

/-- Trimming takes nothing from a written term. -/
theorem trimChars_writeTerm (h : ¬Text.EndsBlank t.2.toList) :
    Text.trimChars (writeTerm t).toList = (writeTerm t).toList := by
  rw [toList_writeTerm]
  apply Text.trimChars_eq_self
  · intro c hc
    obtain ⟨w, word, hname⟩ := List.exists_cons_of_ne_nil t.1.name_ne_nil
    rw [hname] at hc
    obtain rfl := Option.some.inj hc
    exact Text.isBlank_of_isSmall (Operator.isSmall_of_mem_name (hname ▸ List.mem_cons_self))
  · rw [Text.endsBlank_append_iff (List.cons_ne_nil _ _)]
    -- without a value the colon is the last character
    by_cases hv : t.2.toList = []
    · rw [hv]
      decide
    · rwa [← List.singleton_append, Text.endsBlank_append_iff hv]

theorem writeTerm_ne_empty (t : Operator × String) : writeTerm t ≠ "" := by
  intro hempty
  have hnil := (toList_writeTerm t).symm.trans (congrArg String.toList hempty)
  exact List.append_ne_nil_of_right_ne_nil _ (List.cons_ne_nil _ _) hnil

/-- The tokens of one text of written terms are the terms. -/
theorem tokensOfText_writeTerms (h : ∀ t ∈ ts, IsPlain t.2) :
    tokensOfText (writeTerms ts) = ts.map writeTerm := by
  by_cases hne : ts = []
  · subst hne
    rfl
  · rw [tokensOfText, pieces_writeTerms hne fun t ht => (h t ht).1, List.map_map]
    have htrim : ∀ t ∈ ts, ((fun piece => String.ofList (Text.trimChars piece)) ∘
        fun t => (writeTerm t).toList) t = writeTerm t := by
      intro t ht
      rw [Function.comp_apply, trimChars_writeTerm (h t ht).2, String.ofList_toList]
    rw [List.map_congr_left htrim, List.filter_eq_self]
    intro token htoken
    obtain ⟨t, -, rfl⟩ := List.mem_map.1 htoken
    exact decide_eq_true (writeTerm_ne_empty t)

theorem tokens_of_text?_eq_none {raw : Value} (h : raw.text? = none) :
    tokens raw = raw.elements >>= tokensOfItems := by
  cases raw with
  | text s => exact absurd h (Option.some_ne_none s)
  | _ => rfl

theorem tokensOfItems_writeTerms {groups : List (List (Operator × String))}
    (h : ∀ ts ∈ groups, ∀ t ∈ ts, IsPlain t.2) :
    tokensOfItems (groups.map fun ts => .text (writeTerms ts)) =
      .ok (groups.flatten.map writeTerm) := by
  have htexts := tokensOfItems_texts (groups.map writeTerms)
  rw [List.map_map, List.flatMap_map] at htexts
  refine htexts.trans (congrArg Except.ok ?_)
  rw [List.map_flatten, ← List.flatMap_def]
  exact List.flatMap_congr fun ts hts => tokensOfText_writeTerms (h ts hts)

/-- **The tokens of written terms are the terms**, one text after another. -/
theorem tokens_written {raw : Value} (hraw : Written raw ts) (h : ∀ t ∈ ts, IsPlain t.2) :
    tokens raw = .ok (ts.map writeTerm) := by
  cases hraw with
  | text => exact congrArg Except.ok (tokensOfText_writeTerms h)
  | @several _ groups htext helements =>
      have hgroups : ∀ ts ∈ groups, ∀ t ∈ ts, IsPlain t.2 :=
        fun ts hts t ht => h t (List.mem_flatten.2 ⟨ts, hts, ht⟩)
      rw [tokens_of_text?_eq_none htext, Value.elements, helements, Result.ok_bind,
        tokensOfItems_writeTerms hgroups]

/-- A written term is cut at its colon. -/
theorem readTerm_writeTerm (field : String) (t : Operator × String) :
    Clause.readTerm field (writeTerm t) = .ok (t.1, .text t.2) := by
  have hcut : Text.cutAt ':' (writeTerm t) = some (t.1.name, t.2) :=
    Text.cutAt_eq_some_iff.2 ⟨toList_writeTerm t, t.1.not_mem_name (by decide)⟩
  simp only [Clause.readTerm, hcut, Operator.read?_name]

theorem readTerms_writeTerms (field : String) (ts : List (Operator × String)) :
    Clause.readTerms field (ts.map writeTerm) = .ok (ts.map fun t => (t.1, .text t.2)) := by
  induction ts with
  | nil => rfl
  | cons t ts ih =>
      rw [List.map_cons, Clause.readTerms, readTerm_writeTerm, Result.ok_bind, ih, Result.ok_bind]
      rfl

/-- Written terms make up the clause of the terms. -/
theorem clause_written {raw : Value} (hraw : Written raw ts) (h : ∀ t ∈ ts, IsPlain t.2)
    (field : String) (junction : Value) :
    Clause.read field raw junction = (Junction.read junction field).map fun j =>
      ⟨field, ts.map fun t => (t.1, .text t.2), j⟩ := by
  rw [Clause.read, tokens_written hraw h, Result.ok_bind, readTerms_writeTerms, Result.ok_bind]
  cases Junction.read junction field <;> rfl

/-- Trimmed values that are not empty and have no comma in them are listed by what they are joined
to. -/
theorem listedValues_joinWith (field : String) {vs : List String} (hne : vs ≠ [])
    (htrim : ∀ v ∈ vs, Text.trim v = v) (hempty : ∀ v ∈ vs, v ≠ "")
    (hcomma : ∀ v ∈ vs, ',' ∉ v.toList) :
    listedValues field (.text (Text.joinWith "," vs)) = .ok vs :=
  listedValues_eq_ok_iff.2 ⟨(Text.parts_joinWith hne htrim hempty hcomma).symm, hne⟩

theorem isPlain_joinWith {vs : List String} (hne : vs ≠ []) (htrim : ∀ v ∈ vs, Text.trim v = v)
    (hempty : ∀ v ∈ vs, v ≠ "") (hboundary : ¬HasBoundary (Text.joinWith "," vs).toList) :
    IsPlain (Text.joinWith "," vs) := by
  refine ⟨hboundary, Text.not_endsBlank_joinWith "," hne hempty fun v hv => ?_⟩
  rw [← htrim v hv, Text.trim, String.toList_ofList]
  exact Text.not_endsBlank_trimChars v.toList

/-- **Filters are read as they are written.** Terms with plain values, written into one text or spread
over the texts of a collection, are read back as the terms in their order, whatever the field, and
the junction is read as it would be without them. Values that are trimmed, not empty and without
commas may be joined to the value of one term with the operator for several values, if that makes no
boundary; then they are listed as they were. -/
theorem reads_written (field : String) (junction : Value) :
    (∀ raw ts, Written raw ts → (∀ t ∈ ts, IsPlain t.2) →
      Clause.read field raw junction = (Junction.read junction field).map fun j =>
        ⟨field, ts.map fun t => (t.1, .text t.2), j⟩) ∧
    (∀ vs, vs ≠ [] → (∀ v ∈ vs, Text.trim v = v ∧ v ≠ "" ∧ ',' ∉ v.toList) →
      ¬HasBoundary (Text.joinWith "," vs).toList →
      Clause.read field (.text ("in:" ++ Text.joinWith "," vs)) junction =
        (Junction.read junction field).map (fun j =>
          ⟨field, [(.among, .text (Text.joinWith "," vs))], j⟩) ∧
      listedValues field (.text (Text.joinWith "," vs)) = .ok vs) := by
  refine ⟨fun raw ts hraw h => clause_written hraw h field junction, ?_⟩
  intro vs hne h hboundary
  have hplain : ∀ t ∈ [(Operator.among, Text.joinWith "," vs)], IsPlain t.2 := by
    intro t ht
    obtain rfl := List.mem_singleton.1 ht
    exact isPlain_joinWith hne (fun v hv => (h v hv).1) (fun v hv => (h v hv).2.1) hboundary
  refine ⟨clause_written (.text _) hplain field junction, ?_⟩
  exact listedValues_joinWith field hne (fun v hv => (h v hv).1) (fun v hv => (h v hv).2.1)
    fun v hv => (h v hv).2.2

/-- Commas, colons and leading blanks may stand in values, and a value may be empty or begin like a
term; the name of an operator in capitals is no part of a value if a colon follows it. -/
theorem reads_written_remarks :
    let first := [(Operator.among, "A, B:c"), (.equal, "")]
    let second := [(Operator.like, " 50%,, x:in:"), (.differ, "eq:b,")]
    let values := ["A", "b:c", "5 %"]
    (∀ t ∈ [first, second].flatten, IsPlain t.2) ∧ ¬IsPlain "A, NIN:c" ∧
    Clause.read "remark" (.list [.text (writeTerms first), .text (writeTerms second)])
      (.text "or") = .ok ⟨"remark", [(.among, .text "A, B:c"), (.equal, .text ""),
        (.like, .text " 50%,, x:in:"), (.differ, .text "eq:b,")], .disjunction⟩ ∧
    Clause.read "remark" (.text "in:A,b:c,5 %") .null =
      .ok ⟨"remark", [(.among, .text "A,b:c,5 %")], .conjunction⟩ ∧
    listedValues "remark" (.text "A,b:c,5 %") = .ok values := by
  intro first second values
  have hplain : ∀ t ∈ [first, second].flatten, IsPlain t.2 := by
    decide +kernel
  have hwritten : Written (.list [.text (writeTerms first), .text (writeTerms second)])
      [first, second].flatten :=
    .several rfl rfl
  have hterms := (reads_written "remark" (.text "or")).1 _ _ hwritten hplain
  have hvalues := (reads_written "remark" .null).2 values (List.cons_ne_nil _ _)
    (by decide +kernel) (by decide +kernel)
  refine ⟨hplain, by decide +kernel, hterms.trans ?_, hvalues⟩
  have hor : Junction.read (.text "or") "remark" = .ok .disjunction := by
    cbv
  rw [hor]
  rfl

end Filter

end Listing
