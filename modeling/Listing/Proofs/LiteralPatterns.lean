import Mathlib.Data.List.Forall2
import Mathlib.Data.List.Infix
import Listing.Proofs.PatternPieces

/-!
# Literal patterns

Escaping a text puts a backslash before each of its marks, as replacing one mark after another does
when backslashes come first (`Wildcard.escapeChars_eq_replaceChar`). Read as a pattern, an escaped
text is one letter after another, whatever follows it (`Wildcard.ofChars_escapeChars`). So it
describes the texts with the same letters (`Wildcard.matchesAll_escape_iff`), and between two runs
those that have such a piece (`Wildcard.matchesAll_containing_iff`).
-/

set_option autoImplicit false

namespace Listing.Wildcard

/-! ## Escaping -/

/-- The marks of a pattern: what stands for other characters, and what takes that away. -/
def IsMark (c : Char) : Prop :=
  c = '\\' ∨ c = '%' ∨ c = '_'

theorem escapeChar_of_isMark {c : Char} (h : IsMark c) : escapeChar c = ['\\', c] := by
  rcases h with rfl | rfl | rfl <;> rfl

theorem escapeChar_of_not_isMark {c : Char} (h : ¬IsMark c) : escapeChar c = [c] := by
  rw [escapeChar, if_neg]
  simpa [IsMark, or_assoc] using h

/-- The characters of an escaped text. -/
def escapeChars (cs : List Char) : List Char :=
  cs.flatMap escapeChar

theorem escapeChars_cons (c : Char) (cs : List Char) :
    escapeChars (c :: cs) = escapeChar c ++ escapeChars cs :=
  List.flatMap_cons

theorem toList_escape (s : String) : (escape s).toList = escapeChars s.toList :=
  String.toList_ofList

theorem toList_containing (s : String) :
    (containing s).toList = '%' :: (escapeChars s.toList ++ ['%']) := by
  rw [containing, String.toList_append, String.toList_append, toList_escape]
  rfl

/-- **Escaping is replacing one mark after another**, backslashes first: those that are put before
the other marks stay as they are. -/
theorem escapeChars_eq_replaceChar (cs : List Char) : escapeChars cs =
    Text.replaceChar '_' ['\\', '_']
      (Text.replaceChar '%' ['\\', '%'] (Text.replaceChar '\\' ['\\', '\\'] cs)) := by
  rw [escapeChars, Text.replaceChar, Text.replaceChar, Text.replaceChar, List.flatMap_assoc,
    List.flatMap_assoc]
  refine List.flatMap_congr fun c _ => ?_
  by_cases h : IsMark c
  · rcases h with rfl | rfl | rfl <;> rfl
  · rw [escapeChar_of_not_isMark h]
    simp only [IsMark, not_or] at h
    simp [h]

/-- What is escaped is read as letters, whatever follows it. -/
theorem ofChars_escapeChars (cs rest : List Char) :
    ofChars (escapeChars cs ++ rest) = cs.map letter ++ ofChars rest := by
  induction cs with
  | nil => rfl
  | cons c cs ih =>
      rw [escapeChars_cons, List.append_assoc, List.map_cons, List.cons_append, ← ih]
      by_cases h : IsMark c
      · rw [escapeChar_of_isMark h]
        rfl
      · rw [escapeChar_of_not_isMark h]
        simp only [IsMark, not_or] at h
        exact ofChars_cons h.1 h.2.1 h.2.2

/-! ## Letters one by one -/

variable {anyCase : Bool} {same : Char → Char → Bool} {alike : Char → Char → Prop}

/-- Letters describe what has the same letters, before what the rest of a pattern describes. -/
theorem describes_letters_append_iff (halike : ∀ a c, same a c = true ↔ alike a c)
    {cs s : List Char} {p : List Wildcard} : Describes same (cs.map letter ++ p) s ↔
      ∃ piece rest, s = piece ++ rest ∧ List.Forall₂ alike cs piece ∧ Describes same p rest := by
  induction cs generalizing s with
  | nil =>
      constructor
      · exact fun h => ⟨[], s, rfl, .nil, h⟩
      · rintro ⟨_, rest, rfl, ⟨⟩, h⟩
        exact h
  | cons a cs ih =>
      constructor
      · intro h
        cases h with
        | letter hac hrest =>
            obtain ⟨piece, rest, rfl, hpiece, hp⟩ := ih.1 hrest
            exact ⟨_ :: piece, rest, rfl, .cons ((halike _ _).1 hac) hpiece, hp⟩
      · rintro ⟨_, rest, rfl, hpiece, hp⟩
        cases hpiece with
        | cons hac hpiece =>
            exact .letter ((halike _ _).2 hac) (ih.2 ⟨_, rest, rfl, hpiece, hp⟩)

theorem describes_anyRun (s : List Char) : Describes same [anyRun] s := by
  have h : Describes same [anyRun] (s ++ []) := .anyRun s .nil
  rwa [List.append_nil] at h

/-- An escaped text matches the texts with the same letters. -/
theorem matchesAll_escape_iff (halike : ∀ a c, sameLetter anyCase a c = true ↔ alike a c)
    (v t : String) : matchesAll anyCase (escape v) t = true ↔
      List.Forall₂ alike v.toList t.toList := by
  have hread : ofChars (escape v).toList = v.toList.map letter ++ [] := by
    rw [toList_escape, ← List.append_nil (escapeChars v.toList)]
    exact ofChars_escapeChars v.toList []
  rw [matchesAll_iff, hread, describes_letters_append_iff halike]
  constructor
  · rintro ⟨piece, rest, hsplit, hpiece, hrest⟩
    rwa [hsplit, describes_nil_iff.1 hrest, List.append_nil]
  · exact fun h => ⟨t.toList, [], (List.append_nil _).symm, h, .nil⟩

/-- The pattern of the texts that contain one matches the texts with the same letters somewhere. -/
theorem matchesAll_containing_iff (halike : ∀ a c, sameLetter anyCase a c = true ↔ alike a c)
    (v t : String) : matchesAll anyCase (containing v) t = true ↔
      ∃ piece, piece <:+: t.toList ∧ List.Forall₂ alike v.toList piece := by
  have hread : ofChars (containing v).toList = anyRun :: (v.toList.map letter ++ [anyRun]) := by
    rw [toList_containing]
    exact congrArg (anyRun :: ·) (ofChars_escapeChars v.toList ['%'])
  rw [matchesAll_iff, hread, describes_anyRun_iff]
  constructor
  · rintro ⟨before, rest, hsplit, h⟩
    obtain ⟨piece, after, rfl, hpiece, -⟩ := (describes_letters_append_iff halike).1 h
    exact ⟨piece, ⟨before, after, by rw [hsplit, List.append_assoc]⟩, hpiece⟩
  · rintro ⟨piece, ⟨before, after, hsplit⟩, hpiece⟩
    refine ⟨before, piece ++ after, by rw [← hsplit, List.append_assoc], ?_⟩
    exact (describes_letters_append_iff halike).2
      ⟨piece, after, rfl, hpiece, describes_anyRun after⟩

/-- **Escaping makes a text literal.** Escaping is replacing the backslashes of a text, then its
percent signs, then its underscores. What is escaped matches the text alone; between two runs it
matches the texts that contain it, and without regard to case those that contain a piece of the same
length whose characters are the same letters one by one. -/
theorem matchesAll_literal (v t : String) :
    (escape v).toList = Text.replaceChar '_' ['\\', '_']
      (Text.replaceChar '%' ['\\', '%'] (Text.replaceChar '\\' ['\\', '\\'] v.toList)) ∧
    (matchesAll false (escape v) t = true ↔ t = v) ∧
    (matchesAll false (containing v) t = true ↔ v.toList <:+: t.toList) ∧
    (matchesAll true (containing v) t = true ↔
      ∃ piece, piece <:+: t.toList ∧ List.Forall₂ Text.SameLetter v.toList piece) := by
  refine ⟨?_, ?_, ?_, ?_⟩
  · rw [toList_escape, escapeChars_eq_replaceChar]
  · rw [matchesAll_escape_iff fun _ _ => sameLetter_false_iff, List.forall₂_eq_eq_eq,
      String.toList_inj, eq_comm]
  · rw [matchesAll_containing_iff fun _ _ => sameLetter_false_iff, List.forall₂_eq_eq_eq]
    exact exists_eq_right'
  · exact matchesAll_containing_iff (fun _ _ => sameLetter_true_iff) v t

end Listing.Wildcard
