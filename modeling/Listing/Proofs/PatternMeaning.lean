import Mathlib.Data.List.Basic
import Mathlib.Data.List.Forall2
import Mathlib.Data.List.Infix
import Listing.Wildcard

/-!
# What a pattern describes

`Wildcard.Describes` says it without any search: a text is cut into pieces, one for each element of
the pattern. Deciding for all tails of a text at once decides it (`Wildcard.matchesChars_iff`).
The least text that a pattern describes takes nothing for its runs (`Wildcard.least`); a text of
that length fits the elements one by one, so it tells how the pattern compares a single letter.
-/

set_option autoImplicit false

namespace Listing.Wildcard

variable {same same' : Char → Char → Bool} {p q : List Wildcard} {s t : List Char}

/-- The pattern describes the text, under a given comparison of letters. -/
inductive Describes (same : Char → Char → Bool) : List Wildcard → List Char → Prop
  | nil : Describes same [] []
  | letter {a c : Char} {p : List Wildcard} {s : List Char} (h : same a c = true)
      (hrest : Describes same p s) : Describes same (letter a :: p) (c :: s)
  | anyOne {c : Char} {p : List Wildcard} {s : List Char} (hrest : Describes same p s) :
      Describes same (anyOne :: p) (c :: s)
  | anyRun (run : List Char) {p : List Wildcard} {s : List Char} (hrest : Describes same p s) :
      Describes same (anyRun :: p) (run ++ s)

/-! ## Elements -/

theorem describes_nil_iff : Describes same [] s ↔ s = [] := by
  constructor
  · rintro ⟨⟩
    rfl
  · rintro rfl
    exact .nil

theorem describes_letter_iff {a c : Char} :
    Describes same (letter a :: p) (c :: s) ↔ same a c = true ∧ Describes same p s := by
  constructor
  · rintro ⟨⟩
    exact ⟨‹_›, ‹_›⟩
  · rintro ⟨h, hrest⟩
    exact .letter h hrest

theorem describes_anyOne_iff {c : Char} :
    Describes same (anyOne :: p) (c :: s) ↔ Describes same p s := by
  constructor
  · rintro ⟨⟩
    assumption
  · exact .anyOne

theorem not_describes_letter_nil {a : Char} : ¬Describes same (letter a :: p) [] := by
  rintro ⟨⟩

theorem not_describes_anyOne_nil : ¬Describes same (anyOne :: p) [] := by
  rintro ⟨⟩

theorem describes_anyRun_iff :
    Describes same (anyRun :: p) s ↔ ∃ run rest, s = run ++ rest ∧ Describes same p rest := by
  constructor
  · intro h
    cases h with
    | anyRun run hrest => exact ⟨run, _, rfl, hrest⟩
  · rintro ⟨run, rest, rfl, hrest⟩
    exact .anyRun run hrest

theorem describes_anyRun_nil_iff : Describes same (anyRun :: p) [] ↔ Describes same p [] := by
  rw [describes_anyRun_iff]
  constructor
  · rintro ⟨run, rest, hsplit, hrest⟩
    rwa [(List.append_eq_nil_iff.1 hsplit.symm).2] at hrest
  · exact fun h => ⟨[], [], rfl, h⟩

/-- A run takes the first character or it takes none. -/
theorem describes_anyRun_cons_iff {c : Char} : Describes same (anyRun :: p) (c :: s) ↔
    Describes same p (c :: s) ∨ Describes same (anyRun :: p) s := by
  rw [describes_anyRun_iff, describes_anyRun_iff]
  constructor
  · rintro ⟨run, rest, hsplit, hrest⟩
    cases run with
    | nil => exact Or.inl (hsplit ▸ hrest)
    | cons d run =>
        obtain ⟨rfl, rfl⟩ := List.cons.inj hsplit
        exact Or.inr ⟨run, rest, rfl, hrest⟩
  · rintro (h | ⟨run, rest, rfl, hrest⟩)
    · exact ⟨[], c :: s, rfl, h⟩
    · exact ⟨c :: run, rest, rfl, hrest⟩

/-! ## Deciding for all tails -/

/-- The answers tell of each tail of the text whether the pattern describes it. -/
def Tells (same : Char → Char → Bool) (p : List Wildcard) (s : List Char) (answers : List Bool) :
    Prop :=
  List.Forall₂ (fun b t => b = true ↔ Describes same p t) answers s.tails

theorem tells_nil_iff {answers : List Bool} :
    Tells same p [] answers ↔ ∃ b, answers = [b] ∧ (b = true ↔ Describes same p []) := by
  rw [Tells, List.tails, List.forall₂_cons_right_iff]
  simp [and_comm]

theorem tells_cons_iff {c : Char} {answers : List Bool} : Tells same p (c :: s) answers ↔
    ∃ b later, answers = b :: later ∧ (b = true ↔ Describes same p (c :: s)) ∧
      Tells same p s later := by
  rw [Tells, List.tails_cons, List.forall₂_cons_right_iff]
  constructor
  · rintro ⟨b, later, hb, hlater, rfl⟩
    exact ⟨b, later, rfl, hb, hlater⟩
  · rintro ⟨b, later, rfl, hb, hlater⟩
    exact ⟨b, later, hb, hlater, rfl⟩

/-- The first answer is about the whole text. -/
theorem Tells.head {answers : List Bool} (h : Tells same p s answers) :
    ∃ b later, answers = b :: later ∧ (b = true ↔ Describes same p s) := by
  cases s with
  | nil =>
      obtain ⟨b, rfl, hb⟩ := tells_nil_iff.1 h
      exact ⟨b, [], rfl, hb⟩
  | cons c s =>
      obtain ⟨b, later, rfl, hb, -⟩ := tells_cons_iff.1 h
      exact ⟨b, later, rfl, hb⟩

theorem tells_end (anyCase : Bool) (s : List Char) :
    Tells same [] s (describedTails anyCase s []) := by
  rw [describedTails]
  induction s with
  | nil => exact tells_nil_iff.2 ⟨true, rfl, by simp [describes_nil_iff]⟩
  | cons c s ih =>
      exact tells_cons_iff.2 ⟨false, _, rfl, by simp [describes_nil_iff], ih⟩

variable {anyCase : Bool} {answers : List Bool}

theorem tells_extend_letter (a : Char) (h : Tells (sameLetter anyCase) p s answers) :
    Tells (sameLetter anyCase) (letter a :: p) s (extend anyCase s answers (letter a)) := by
  rw [extend]
  induction s generalizing answers with
  | nil => exact tells_nil_iff.2 ⟨false, rfl, by simp [not_describes_letter_nil]⟩
  | cons c s ih =>
      obtain ⟨b, later, rfl, -, hlater⟩ := tells_cons_iff.1 h
      obtain ⟨b', later', rfl, hb'⟩ := hlater.head
      refine tells_cons_iff.2 ⟨sameLetter anyCase a c && b', _, rfl, ?_, ih hlater⟩
      rw [Bool.and_eq_true, hb', describes_letter_iff]

theorem tells_extend_anyOne (h : Tells (sameLetter anyCase) p s answers) :
    Tells (sameLetter anyCase) (anyOne :: p) s (extend anyCase s answers anyOne) := by
  rw [extend]
  induction s generalizing answers with
  | nil =>
      obtain ⟨b, rfl, -⟩ := tells_nil_iff.1 h
      exact tells_nil_iff.2 ⟨false, rfl, by simp [not_describes_anyOne_nil]⟩
  | cons c s ih =>
      obtain ⟨b, later, rfl, -, hlater⟩ := tells_cons_iff.1 h
      obtain ⟨b', later', rfl, hb'⟩ := hlater.head
      refine tells_cons_iff.2 ⟨b', _, rfl, ?_, ih hlater⟩
      rw [hb', describes_anyOne_iff]

theorem tells_anyFrom (h : Tells same p s answers) :
    Tells same (anyRun :: p) s (anyFrom answers) := by
  induction s generalizing answers with
  | nil =>
      obtain ⟨b, rfl, hb⟩ := tells_nil_iff.1 h
      refine tells_nil_iff.2 ⟨b, by simp [anyFrom], ?_⟩
      rw [hb, describes_anyRun_nil_iff]
  | cons c s ih =>
      obtain ⟨b, later, rfl, hb, hlater⟩ := tells_cons_iff.1 h
      obtain ⟨b', later', hfrom, hb'⟩ := (ih hlater).head
      refine tells_cons_iff.2 ⟨b || b', anyFrom later, ?_, ?_, ih hlater⟩
      · rw [anyFrom, hfrom]
        rfl
      · rw [Bool.or_eq_true, hb, hb', describes_anyRun_cons_iff]

theorem tells_describedTails (anyCase : Bool) (p : List Wildcard) (s : List Char) :
    Tells (sameLetter anyCase) p s (describedTails anyCase s p) := by
  induction p with
  | nil => exact tells_end anyCase s
  | cons w p ih =>
      rw [describedTails]
      cases w with
      | letter a => exact tells_extend_letter a ih
      | anyOne => exact tells_extend_anyOne ih
      | anyRun => exact tells_anyFrom ih

/-- **A pattern is found to describe exactly the texts that it describes.** -/
theorem matchesChars_iff (anyCase : Bool) (p : List Wildcard) (s : List Char) :
    matchesChars anyCase p s = true ↔ Describes (sameLetter anyCase) p s := by
  obtain ⟨b, later, hanswers, hb⟩ := (tells_describedTails anyCase p s).head
  rw [matchesChars, hanswers, ← hb]
  rfl

/-! ## Written patterns -/

/-- Every letter of a pattern stands in what is written. -/
theorem mem_of_letter_mem {a : Char} : ∀ {cs : List Char}, letter a ∈ ofChars cs → a ∈ cs := by
  intro cs
  induction cs using ofChars.induct with
  | case1 => simp [ofChars]
  | case2 => simp [ofChars]
  | case3 c rest ih =>
      intro h
      rw [ofChars] at h
      rcases List.mem_cons.1 h with h | h
      · obtain rfl := letter.inj h
        simp
      · exact List.mem_cons_of_mem _ (List.mem_cons_of_mem _ (ih h))
  | case4 rest ih =>
      intro h
      rw [ofChars] at h
      exact List.mem_cons_of_mem _ (ih ((List.mem_cons.1 h).resolve_left (by simp)))
  | case5 rest ih =>
      intro h
      rw [ofChars] at h
      exact List.mem_cons_of_mem _ (ih ((List.mem_cons.1 h).resolve_left (by simp)))
  | case6 c rest hescape hend hrun hone ih =>
      intro h
      rw [ofChars] at h
      · rcases List.mem_cons.1 h with h | h
        · obtain rfl := letter.inj h
          simp
        · exact List.mem_cons_of_mem _ (ih h)
      all_goals assumption

/-! ## Comparisons -/

/-- Only the comparison of the letters of a pattern matters. -/
theorem Describes.of_letters
    (hsame : ∀ a, Wildcard.letter a ∈ p → ∀ c ∈ s, same a c = true → same' a c = true)
    (h : Describes same p s) : Describes same' p s := by
  induction h with
  | nil => exact .nil
  | @letter a c p s hac _ ih =>
      refine .letter (hsame a (by simp) c (by simp) hac) (ih fun b hb d hd => ?_)
      exact hsame b (List.mem_cons_of_mem _ hb) d (List.mem_cons_of_mem _ hd)
  | @anyOne c p s _ ih =>
      refine .anyOne (ih fun b hb d hd => ?_)
      exact hsame b (List.mem_cons_of_mem _ hb) d (List.mem_cons_of_mem _ hd)
  | @anyRun run p s _ ih =>
      refine .anyRun run (ih fun b hb d hd => ?_)
      exact hsame b (List.mem_cons_of_mem _ hb) d (List.mem_append_right _ hd)

theorem describes_congr (hsame : ∀ a, letter a ∈ p → ∀ c ∈ s, same a c = same' a c) :
    Describes same p s ↔ Describes same' p s :=
  ⟨.of_letters fun a ha c hc h => hsame a ha c hc ▸ h,
    .of_letters fun a ha c hc h => (hsame a ha c hc).symm ▸ h⟩

/-- Letters that are read through maps are compared through them. -/
theorem describes_map {f : Wildcard → Wildcard} {g g' : Char → Char}
    (hletter : ∀ a, f (letter a) = letter (g a)) (hone : f anyOne = anyOne)
    (hrun : f anyRun = anyRun) :
    Describes same (p.map f) (s.map g') ↔ Describes (fun a c => same (g a) (g' c)) p s := by
  induction p generalizing s with
  | nil => rw [List.map_nil, describes_nil_iff, describes_nil_iff, List.map_eq_nil_iff]
  | cons w p ih =>
      rw [List.map_cons]
      cases w with
      | letter a =>
          rw [hletter]
          cases s with
          | nil => exact iff_of_false not_describes_letter_nil not_describes_letter_nil
          | cons c s => rw [List.map_cons, describes_letter_iff, describes_letter_iff, ih]
      | anyOne =>
          rw [hone]
          cases s with
          | nil => exact iff_of_false not_describes_anyOne_nil not_describes_anyOne_nil
          | cons c s => rw [List.map_cons, describes_anyOne_iff, describes_anyOne_iff, ih]
      | anyRun =>
          rw [hrun, describes_anyRun_iff, describes_anyRun_iff]
          constructor
          · rintro ⟨run, rest, hsplit, hrest⟩
            obtain ⟨run, rest, rfl, rfl, rfl⟩ := List.map_eq_append_iff.1 hsplit
            exact ⟨run, rest, rfl, ih.1 hrest⟩
          · rintro ⟨run, rest, rfl, hrest⟩
            exact ⟨run.map g', rest.map g', List.map_append, ih.2 hrest⟩

theorem Describes.append (h : Describes same p s) (h' : Describes same q t) :
    Describes same (p ++ q) (s ++ t) := by
  induction h with
  | nil => exact h'
  | letter hac _ ih => exact .letter hac ih
  | anyOne _ ih => exact .anyOne ih
  | anyRun run _ ih =>
      rw [List.append_assoc]
      exact .anyRun run ih

/-! ## The least text -/

/-- The least text that an element describes. -/
def leastOf : Wildcard → List Char
  | letter a => [a]
  | anyOne => ['-']
  | anyRun => []

/-- The least text that a pattern describes. -/
def least (p : List Wildcard) : List Char :=
  p.flatMap leastOf

theorem describes_least (hrefl : ∀ a, same a a = true) (p : List Wildcard) :
    Describes same p (least p) := by
  induction p with
  | nil => exact .nil
  | cons w p ih =>
      rw [least, List.flatMap_cons]
      cases w with
      | letter a => exact .letter (hrefl a) ih
      | anyOne => exact .anyOne ih
      | anyRun => exact .anyRun [] ih

theorem length_least_append (p q : List Wildcard) :
    (least (p ++ q)).length = (least p).length + (least q).length := by
  rw [least, List.flatMap_append, List.length_append]
  rfl

/-- No text that a pattern describes is shorter than the least one. -/
theorem Describes.length_least_le (h : Describes same p s) : (least p).length ≤ s.length := by
  induction h with
  | nil => exact Nat.le_refl 0
  | letter _ _ ih => exact Nat.succ_le_succ ih
  | anyOne _ ih => exact Nat.succ_le_succ ih
  | anyRun run _ ih =>
      rw [List.length_append]
      exact Nat.le_trans ih (Nat.le_add_left _ _)

/-- A text no longer than the least one fits the elements one by one. -/
theorem Describes.same_of_length {a c : Char} {before : List Char}
    (hbefore : before.length = (least p).length) (hafter : t.length = (least q).length)
    (h : Describes same (p ++ Wildcard.letter a :: q) (before ++ c :: t)) : same a c = true := by
  induction p generalizing before with
  | nil =>
      obtain rfl : before = [] := List.length_eq_zero_iff.1 hbefore
      exact (describes_letter_iff.1 h).1
  | cons w p ih =>
      cases w with
      | letter b =>
          cases before with
          | nil => exact absurd hbefore (by simp [least, leastOf])
          | cons d before =>
              refine ih ?_ (describes_letter_iff.1 h).2
              simpa [least, leastOf] using hbefore
      | anyOne =>
          cases before with
          | nil => exact absurd hbefore (by simp [least, leastOf])
          | cons d before =>
              refine ih ?_ (describes_anyOne_iff.1 h)
              simpa [least, leastOf] using hbefore
      | anyRun =>
          -- the run has nothing to take: the rest needs all there is
          obtain ⟨run, rest, hsplit, hrest⟩ := describes_anyRun_iff.1 h
          have hlength : (least (p ++ Wildcard.letter a :: q)).length ≤ rest.length :=
            hrest.length_least_le
          have hwhole := congrArg List.length hsplit
          rw [length_least_append] at hlength
          simp only [List.length_append, List.length_cons, least, List.flatMap_cons, leastOf,
            List.nil_append] at hlength hwhole hbefore hafter
          obtain rfl : run = [] := List.length_eq_zero_iff.1 (by omega)
          exact ih hbefore (hsplit ▸ hrest)

/-- A text that is the least but for one letter tells how that letter is compared. -/
theorem describes_least_iff (hrefl : ∀ a, same a a = true) {a c : Char} :
    Describes same (p ++ letter a :: q) (least p ++ c :: least q) ↔ same a c = true :=
  ⟨fun h => h.same_of_length rfl rfl, fun h =>
    (describes_least hrefl p).append (.letter h (describes_least hrefl q))⟩

end Listing.Wildcard
