import Mathlib.Data.List.Basic
import Mathlib.Data.List.TakeWhile
import Listing.Text.Split

/-!
# Texts that are cut, trimmed and joined

What is cut at a separator is put together by it (`Text.cutAt_eq_some_iff`), and texts without the
separator are the pieces of what they are joined to (`Text.parts_joinWith`). Trimming takes blanks
from both ends and leaves none there, so it leaves a text alone that has none at its ends
(`Text.trimChars_eq_self`).
-/

set_option autoImplicit false

namespace Listing.Text

/-! ## Cutting at the first separator -/

theorem cutChars_append {sep : Char} {before : List Char} (h : sep ∉ before)
    (after : List Char) : cutChars sep (before ++ sep :: after) = some (before, after) := by
  induction before with
  | nil => simp [cutChars]
  | cons c before ih =>
      -- no character ahead of the separator is taken for it
      have hc : (c == sep) = false := by
        rw [beq_eq_false_iff_ne]
        rintro rfl
        exact h (by simp)
      rw [List.cons_append, cutChars, hc, if_neg Bool.false_ne_true,
        ih fun hmem => h (List.mem_cons_of_mem c hmem)]
      rfl

/-- What is cut from a text is the text without the separator. -/
theorem eq_append_of_cutChars {sep : Char} {cs before after : List Char}
    (h : cutChars sep cs = some (before, after)) : cs = before ++ sep :: after := by
  induction cs generalizing before with
  | nil => exact absurd h (by simp [cutChars])
  | cons c cs ih =>
      rw [cutChars] at h
      split at h
      · next hsep =>
          obtain ⟨rfl, rfl⟩ := Prod.mk.inj (Option.some.inj h)
          rw [beq_iff_eq.1 hsep, List.nil_append]
      · obtain ⟨⟨front, back⟩, hcut, heq⟩ := Option.map_eq_some_iff.1 h
        obtain ⟨rfl, rfl⟩ := Prod.mk.inj heq
        rw [ih hcut, List.cons_append]

/-- Nothing ahead of the cut is a separator. -/
theorem not_mem_of_cutChars {sep : Char} {cs before after : List Char}
    (h : cutChars sep cs = some (before, after)) : sep ∉ before := by
  induction cs generalizing before with
  | nil => exact absurd h (by simp [cutChars])
  | cons c cs ih =>
      rw [cutChars] at h
      split at h
      · obtain ⟨rfl, -⟩ := Prod.mk.inj (Option.some.inj h)
        exact List.not_mem_nil
      · next hsep =>
          obtain ⟨⟨front, back⟩, hcut, heq⟩ := Option.map_eq_some_iff.1 h
          obtain ⟨rfl, rfl⟩ := Prod.mk.inj heq
          have hne : sep ≠ c := fun hc => hsep (beq_iff_eq.2 hc.symm)
          exact List.not_mem_cons_of_ne_of_not_mem hne (ih hcut)

/-- **A text is cut where its first separator stands.** -/
theorem cutAt_eq_some_iff {sep : Char} {s before after : String} :
    cutAt sep s = some (before, after) ↔
      s.toList = before.toList ++ sep :: after.toList ∧ sep ∉ before.toList := by
  constructor
  · intro h
    obtain ⟨⟨front, back⟩, hcut, heq⟩ := Option.map_eq_some_iff.1 h
    obtain ⟨rfl, rfl⟩ := Prod.mk.inj heq
    rw [String.toList_ofList, String.toList_ofList]
    exact ⟨eq_append_of_cutChars hcut, not_mem_of_cutChars hcut⟩
  · rintro ⟨hs, hnot⟩
    rw [cutAt, hs, cutChars_append hnot, Option.map_some]
    simp only [String.ofList_toList]

/-! ## Trimming -/

theorem trimChars_eq_nil_iff {cs : List Char} :
    trimChars cs = [] ↔ ∀ c ∈ cs, isBlank c = true := by
  rw [trimChars, List.reverse_eq_nil_iff, List.dropWhile_eq_nil_iff]
  constructor
  · intro h c hc
    -- what is dropped from the front is blank, and so is what is left
    rw [← List.takeWhile_append_dropWhile (p := isBlank) (l := cs)] at hc
    rcases List.mem_append.1 hc with hc | hc
    · exact List.mem_takeWhile_imp hc
    · exact h c (List.mem_reverse.2 hc)
  · intro h c hc
    exact h c ((List.dropWhile_sublist isBlank).subset (List.mem_reverse.1 hc))

/-- A text is blank if nothing remains of it once it is trimmed. -/
theorem isBlankText_iff {s : String} : isBlankText s = true ↔ trim s = "" := by
  rw [isBlankText, List.all_eq_true, ← trimChars_eq_nil_iff, trim, ← String.toList_inj,
    String.toList_ofList]
  rfl

/-- The last character is blank. -/
def EndsBlank (cs : List Char) : Prop :=
  ∃ c, cs.getLast? = some c ∧ isBlank c = true

instance : DecidablePred EndsBlank := fun cs =>
  decidable_of_iff (cs.getLast?.any isBlank = true) (Option.any_eq_true _ _)

theorem not_endsBlank_trimChars (cs : List Char) : ¬EndsBlank (trimChars cs) := by
  rintro ⟨c, hlast, hblank⟩
  rw [trimChars, List.getLast?_reverse] at hlast
  have hkept := List.head?_dropWhile_not isBlank (cs.dropWhile isBlank).reverse
  rw [hlast] at hkept
  exact Bool.false_ne_true (hkept.symm.trans hblank)

theorem endsBlank_append_iff {cs ds : List Char} (hne : ds ≠ []) :
    EndsBlank (cs ++ ds) ↔ EndsBlank ds := by
  rw [EndsBlank, EndsBlank, List.getLast?_append_of_ne_nil cs hne]

theorem dropWhile_isBlank_eq_self {cs : List Char}
    (h : ∀ c, cs.head? = some c → isBlank c = false) : cs.dropWhile isBlank = cs := by
  cases cs with
  | nil => rfl
  | cons c cs =>
      rw [List.dropWhile_cons_of_neg]
      rw [h c rfl]
      exact Bool.false_ne_true

/-- Trimming leaves a text alone that has no blank at its ends. -/
theorem trimChars_eq_self {cs : List Char} (hfirst : ∀ c, cs.head? = some c → isBlank c = false)
    (hlast : ¬EndsBlank cs) : trimChars cs = cs := by
  rw [trimChars, dropWhile_isBlank_eq_self hfirst, dropWhile_isBlank_eq_self, List.reverse_reverse]
  intro c hc
  rw [List.head?_reverse] at hc
  exact Bool.eq_false_iff.2 fun hblank => hlast ⟨c, hc, hblank⟩

theorem not_endsBlank_of_isBlank {cs : List Char} (h : ∀ c ∈ cs, isBlank c = false) :
    ¬EndsBlank cs := by
  rintro ⟨c, hc, hblank⟩
  exact Bool.false_ne_true ((h c (List.mem_of_getLast? hc)).symm.trans hblank)

/-- Trimming leaves a text without blanks as it is. -/
theorem trimChars_of_isBlank {cs : List Char} (h : ∀ c ∈ cs, isBlank c = false) :
    trimChars cs = cs :=
  trimChars_eq_self (fun c hc => h c (List.mem_of_mem_head? hc)) (not_endsBlank_of_isBlank h)

theorem mem_of_mem_trimChars {cs : List Char} {c : Char} (h : c ∈ trimChars cs) : c ∈ cs := by
  rw [trimChars, List.mem_reverse] at h
  have h := List.mem_reverse.1 ((List.dropWhile_sublist _).subset h)
  exact (List.dropWhile_sublist _).subset h

theorem mem_of_mem_trim {s : String} {c : Char} (h : c ∈ (trim s).toList) : c ∈ s.toList := by
  rw [trim, String.toList_ofList] at h
  exact mem_of_mem_trimChars h

/-! ## Joining and cutting at every separator -/

theorem toList_joinWith_cons_cons (sep s t : String) (texts : List String) :
    (joinWith sep (s :: t :: texts)).toList =
      s.toList ++ (sep.toList ++ (joinWith sep (t :: texts)).toList) := by
  rw [joinWith, String.toList_append, String.toList_append, List.append_assoc]
  exact List.cons_ne_nil t texts

/-- The characters of joined texts are those of the texts with the separator between neighbours. -/
theorem toList_joinWith (sep : String) (texts : List String) :
    (joinWith sep texts).toList = List.intercalate sep.toList (texts.map String.toList) := by
  induction texts with
  | nil => rfl
  | cons s texts ih =>
      cases texts with
      | nil => simp [joinWith]
      | cons t texts =>
          rw [toList_joinWith_cons_cons, ih]
          simp [List.intercalate]

/-- Joined texts start with the first of them. -/
theorem exists_toList_joinWith_cons (sep s : String) (texts : List String) :
    ∃ more, (joinWith sep (s :: texts)).toList = s.toList ++ more := by
  cases texts with
  | nil => exact ⟨[], (List.append_nil _).symm⟩
  | cons t texts => exact ⟨_, toList_joinWith_cons_cons sep s t texts⟩

/-- Joined texts end with the last of them. -/
theorem exists_toList_joinWith (sep : String) {texts : List String} (hne : texts ≠ []) :
    ∃ front, ∃ s ∈ texts, (joinWith sep texts).toList = front ++ s.toList := by
  induction texts with
  | nil => exact absurd rfl hne
  | cons s texts ih =>
      cases texts with
      | nil => exact ⟨[], s, List.mem_cons_self, rfl⟩
      | cons t texts =>
          obtain ⟨front, last, hlast, hfront⟩ := ih (List.cons_ne_nil t texts)
          refine ⟨s.toList ++ (sep.toList ++ front), last, List.mem_cons_of_mem s hlast, ?_⟩
          rw [toList_joinWith_cons_cons, hfront, List.append_assoc, List.append_assoc]

/-- Joined texts do not end in a blank if none of them is empty or does. -/
theorem not_endsBlank_joinWith (sep : String) {texts : List String} (hne : texts ≠ [])
    (hempty : ∀ s ∈ texts, s ≠ "") (hblank : ∀ s ∈ texts, ¬EndsBlank s.toList) :
    ¬EndsBlank (joinWith sep texts).toList := by
  obtain ⟨front, s, hs, hjoined⟩ := exists_toList_joinWith sep hne
  rw [hjoined, endsBlank_append_iff]
  · exact hblank s hs
  · exact fun hnil => hempty s hs (String.toList_inj.1 hnil)

theorem splitChars_eq_splitOn (sep : Char) (cs : List Char) :
    splitChars sep cs = cs.splitOn sep := by
  induction cs with
  | nil => rfl
  | cons c cs ih =>
      rw [splitChars, ih, List.splitOn_cons_eq_if_modifyHead]
      cases hsplit : cs.splitOn sep with
      | nil => exact absurd hsplit (List.splitOn_ne_nil sep cs)
      | cons piece more => rfl

/-- Texts without commas are the pieces between the commas that join them. -/
theorem splitChars_joinWith {texts : List String} (hne : texts ≠ [])
    (h : ∀ s ∈ texts, ',' ∉ s.toList) :
    splitChars ',' (joinWith "," texts).toList = texts.map String.toList := by
  rw [splitChars_eq_splitOn, toList_joinWith]
  apply List.splitOn_intercalate
  · intro cs hcs
    obtain ⟨s, hs, rfl⟩ := List.mem_map.1 hcs
    exact h s hs
  · exact fun hnil => hne (List.map_eq_nil_iff.1 hnil)

/-- Joined texts are told apart by the commas between them. -/
theorem joinWith_inj {texts texts' : List String} (hne : texts ≠ []) (hne' : texts' ≠ [])
    (h : ∀ s ∈ texts, ',' ∉ s.toList) (h' : ∀ s ∈ texts', ',' ∉ s.toList)
    (heq : joinWith "," texts = joinWith "," texts') : texts = texts' := by
  have hmap : texts.map String.toList = texts'.map String.toList := by
    rw [← splitChars_joinWith hne h, ← splitChars_joinWith hne' h', heq]
  exact List.map_injective_iff.2 (fun _ _ => String.toList_inj.1) hmap

/-- **Trimmed texts without commas are the parts of what they are joined to.** -/
theorem parts_joinWith {texts : List String} (hne : texts ≠ [])
    (htrim : ∀ s ∈ texts, trim s = s) (hblank : ∀ s ∈ texts, s ≠ "")
    (hcomma : ∀ s ∈ texts, ',' ∉ s.toList) : parts ',' (joinWith "," texts) = texts := by
  rw [parts, splitChars_joinWith hne hcomma, List.map_map]
  have hmap : texts.map ((fun piece => String.ofList (trimChars piece)) ∘ String.toList) = texts :=
    (List.map_congr_left htrim).trans (List.map_id texts)
  rw [hmap, List.filter_eq_self]
  exact fun s hs => decide_eq_true (hblank s hs)

/-- A blank text has no parts. -/
theorem parts_of_isBlankText {t : String} (h : isBlankText t = true) : parts ',' t = [] := by
  have hcomma : ',' ∉ t.toList := by
    intro hmem
    exact absurd (List.all_eq_true.1 h ',' hmem) (by decide)
  have hsplit : splitChars ',' t.toList = [t.toList] :=
    splitChars_joinWith (List.cons_ne_nil t []) (by simpa using hcomma)
  have htrim : String.ofList (trimChars t.toList) = "" := isBlankText_iff.1 h
  rw [parts, hsplit, List.map_singleton, htrim]
  rfl

/-- The pieces of a text have no separator in them. -/
theorem not_mem_of_mem_splitChars {sep : Char} (cs : List Char) :
    ∀ piece ∈ splitChars sep cs, sep ∉ piece := by
  induction cs with
  | nil => simp [splitChars]
  | cons c cs ih =>
      rw [splitChars]
      by_cases hc : (c == sep) = true
      · rw [if_pos hc]
        intro piece hpiece
        rcases List.mem_cons.1 hpiece with rfl | hpiece
        · exact List.not_mem_nil
        · exact ih piece hpiece
      · have hne : sep ≠ c := fun heq => hc (beq_iff_eq.2 heq.symm)
        rw [if_neg hc]
        cases hsplit : splitChars sep cs with
        | nil => simpa using hne
        | cons piece more =>
            rw [hsplit] at ih
            intro piece' hpiece'
            rcases List.mem_cons.1 hpiece' with rfl | hmore
            · exact List.not_mem_cons_of_ne_of_not_mem hne (ih piece (by simp))
            · exact ih piece' (by simp [hmore])

/-- The parts of a text have no separator in them. -/
theorem not_mem_of_mem_parts {sep : Char} {s part : String} (h : part ∈ parts sep s) :
    sep ∉ part.toList := by
  obtain ⟨piece, hpiece, rfl⟩ := List.mem_map.1 (List.mem_filter.1 h).1
  rw [String.toList_ofList]
  exact fun hmem => not_mem_of_mem_splitChars s.toList piece hpiece (mem_of_mem_trimChars hmem)

end Listing.Text
