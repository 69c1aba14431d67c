import Mathlib.Data.Bool.AllAny
import Listing.Proofs.PortablePatterns
import Listing.Proofs.TableWindow

/-!
# Patterns in a table and in memory

A condition with a pattern selects the tuples whose texts the pattern describes to the table, and a
predicate with it the rows whose texts it describes in memory (`StoredTable.exists_like`). A table with
tuples refuses a pattern that is too long (`Condition.checkPatterns_like`). So every table selects the
rows that satisfy the predicate in memory exactly for the portable patterns of a size that it takes,
and, where texts may have zero characters, for those of them that are beginnings
(`StoredTable.selectsAlike_iff`).
-/

set_option autoImplicit false

namespace Listing

/-! ## Patterns in a table -/

/-- The predicate matches a field with a pattern, or demands that it does not match. -/
inductive Predicate.Seeks (field pattern : String) : Bool → Predicate → Prop
  | like (anyCase : Bool) : Seeks field pattern anyCase (.like field (.text pattern) anyCase)
  | unlike : Seeks field pattern false (.unlike field (.text pattern))

/-- The tuple has a text of some kind in a column, or null. -/
def Tuple.HasText (P : List Char → Prop) (c : Column) (t : Tuple) : Prop :=
  (t.cell c).IsOf .text ∧ ∀ s, t.cell c = .text s → P s.toList

namespace Cell

theorem described_text (s p : String) : (text s).described (text p) =
    some (Wildcard.matchesPlain p s) :=
  rfl

theorem described_lowered_text (s p : String) : (text s).lowered.described (text p).lowered =
    some (Wildcard.matchesPlain p s) := by
  rw [← Wildcard.matchesPlain_lowered]
  rfl

end Cell

namespace Condition

variable {t : Tuple} {c : Column}

/-- A text is selected if the pattern describes it to the table, or if it does not. -/
theorem selects_like_text {s : String} (h : t.cell c = .text s) (pattern : String)
    (anyCase negated : Bool) : (like c (.text pattern) anyCase negated).selects t =
      (Wildcard.matchesPlain pattern s != negated) := by
  rw [selects, truthOf, h, Operand.cell_text, Cell.described_text, Cell.described_lowered_text,
    ite_self]
  cases negated <;> cases Wildcard.matchesPlain pattern s <;> rfl

/-- Null is selected by no pattern and by no pattern's negation. -/
theorem selects_like_null (h : t.cell c = .null) (pattern : String) (anyCase negated : Bool) :
    (like c (.text pattern) anyCase negated).selects t = false := by
  rw [selects, truthOf, h]
  cases negated <;> cases anyCase <;> rfl

/-- A pattern that is too long is refused as soon as there is a tuple. -/
theorem checkPatterns_like {tuples : List Tuple} (hne : tuples ≠ []) (pattern : String)
    (anyCase negated : Bool) : (like c (.text pattern) anyCase negated).checkPatterns tuples =
      if pattern.utf8ByteSize ≤ Wildcard.sizeLimit then .ok () else .error .complexPattern := by
  have hrefuses : ∀ t, refuses t (like c (.text pattern) anyCase negated) =
      decide (Wildcard.sizeLimit < pattern.utf8ByteSize) := by
    intro t
    rw [refuses, isOverlong, Operand.cell_text]
    rfl
  have hany : tuples.any (refuses · (like c (.text pattern) anyCase negated)) =
      decide (Wildcard.sizeLimit < pattern.utf8ByteSize) := by
    have hsome : ∃ t, t ∈ tuples := List.exists_mem_of_ne_nil tuples hne
    simp only [hrefuses]
    cases decide (Wildcard.sizeLimit < pattern.utf8ByteSize) <;> simp [hsome]
  rw [checkPatterns, hany]
  split
  · next hlong => rw [if_neg (Nat.not_le.2 (of_decide_eq_true hlong))]
  · next hshort => rw [if_pos (Nat.not_lt.1 (of_decide_eq_false (Bool.eq_false_iff.2 hshort)))]

end Condition

namespace StoredTable

variable {m : Mapping} {q : Predicate} {order : SortOrder} {c : Column}
  {field pattern : String} {anyCase : Bool} {t : Tuple} {P : List Char → Prop}

/-- A table selects what a pattern describes to it, a memory what it describes there; either may be
asked for the rest. Null is neither. -/
theorem exists_like (hf : m.column field = .ok c) (htype : c.type = .text)
    (hq : q.Seeks field pattern anyCase) : ∃ negated,
      m.condition q = .ok (.like c (.text pattern) anyCase negated) ∧
      (∀ t, t.cell c = .null → q.holds (rowOf m t) = .ok false) ∧
      ∀ t s, t.cell c = .text s →
        q.holds (rowOf m t) = .ok (Wildcard.matchesAll anyCase pattern s != negated) := by
  have htext : ∀ t s, t.cell c = .text s → (rowOf m t).fieldOrNull field = .text s := by
    intro t s hcell
    rw [Mapping.fieldOrNull_rowOf hf, hcell, htype]
    rfl
  have hnull : ∀ t, t.cell c = .null → (rowOf m t).fieldOrNull field = .null := by
    intro t hcell
    rw [Mapping.fieldOrNull_rowOf hf, hcell]
    rfl
  cases hq with
  | like anyCase =>
      refine ⟨false, by rw [Mapping.condition, hf]; rfl, fun t ht => ?_, fun t s ht => ?_⟩
      · rw [Predicate.holds, hnull t ht]
        rfl
      · rw [Predicate.holds, htext t s ht, Bool.bne_false]
        rfl
  | unlike =>
      refine ⟨true, by rw [Mapping.condition, hf]; rfl, fun t ht => ?_, fun t s ht => ?_⟩
      · rw [Predicate.holds, hnull t ht]
        rfl
      · rw [Predicate.holds, htext t s ht, Bool.bne_true]
        rfl

/-- A statement can carry a pattern. -/
theorem carried_like (htype : c.type = .text) (pattern : String) (anyCase negated : Bool) :
    ∀ o ∈ (Condition.like c (.text pattern) anyCase negated).operands, o.IsCarried := by
  intro o ho
  rw [List.mem_singleton.1 ho]
  exact Operand.isCarried_ofValue (htype ▸ .text pattern)

/-- The table selects the rows that satisfy the predicate in memory, whenever it is asked for so
many rows that none is left out. -/
def SelectsAlike (s : StoredTable) (order : SortOrder) (q : Predicate) : Prop :=
  ∀ limit : Nat, s.tuples.length ≤ limit → limit < 2 ^ 63 → ∃ rows matching,
    (s.store.fetch ⟨q, order, limit, 0⟩).result = .ok rows ∧
    Memory.matching (s.tuples.map (rowOf s.mapping)) q = .ok matching ∧ rows.Perm matching

section

variable {condition : Condition} {tuples : List Tuple}

/-- A window that leaves nothing out has the rows of the selected tuples, if no pattern is refused. -/
theorem exists_fetch (hcondition : m.condition q = .ok condition)
    (hcarried : ∀ o ∈ condition.operands, o.IsCarried)
    (horder : ∀ k ∈ order.keys, ∃ d, m.column k.field = .ok d) {limit : Nat}
    (hlength : tuples.length ≤ limit) (hlimit : limit < 2 ^ 63) : ∃ rows,
      ((⟨m, tuples⟩ : StoredTable).store.fetch ⟨q, order, limit, 0⟩).result =
        (if limit = 0 then .ok () else condition.checkPatterns tuples).map (fun _ => rows) ∧
      rows.Perm ((tuples.filter condition.selects).map (rowOf m)) := by
  obtain ⟨columns, hcolumns⟩ := Mapping.exists_sortColumns horder
  have hperm := List.mergeSort_perm (tuples.filter condition.selects)
    fun a b => compareBy a b columns != .gt
  refine ⟨(sortTuples columns (tuples.filter condition.selects)).map (rowOf m), ?_, hperm.map _⟩
  have hshort : ((sortTuples columns (tuples.filter condition.selects)).map (rowOf m)).length ≤
      limit := by
    rw [List.length_map, sortTuples, hperm.length_eq]
    exact (List.length_filter_le _ _).trans hlength
  refine (fetch_eq (s := ⟨m, tuples⟩) hcondition hcarried hcolumns limit 0).trans ?_
  rw [if_pos ⟨hlimit, by decide⟩, windowRows, List.drop_zero, List.take_of_length_le hshort]

/-- A table selects alike if its condition does so tuple by tuple and no pattern is refused. -/
theorem selectsAlike_of_holds (hcondition : m.condition q = .ok condition)
    (hcarried : ∀ o ∈ condition.operands, o.IsCarried)
    (horder : ∀ k ∈ order.keys, ∃ d, m.column k.field = .ok d)
    (hpatterns : condition.checkPatterns tuples = .ok ())
    (h : ∀ t ∈ tuples, q.holds (rowOf m t) = .ok (condition.selects t)) :
    (⟨m, tuples⟩ : StoredTable).SelectsAlike order q := by
  intro limit hlength hlimit
  obtain ⟨rows, hfetch, hperm⟩ := exists_fetch hcondition hcarried horder hlength hlimit
  rw [hpatterns, ite_self] at hfetch
  refine ⟨rows, _, hfetch, Memory.matching_eq_filter (decides_rows h (.refl _)), ?_⟩
  rwa [filter_map_rowOf h] at hperm

/-- A table of one tuple selects alike only if its condition does, and only if the pattern is not
refused. -/
theorem SelectsAlike.of_single (hcondition : m.condition q = .ok condition)
    (hcarried : ∀ o ∈ condition.operands, o.IsCarried)
    (horder : ∀ k ∈ order.keys, ∃ d, m.column k.field = .ok d) {b : Bool}
    (hholds : q.holds (rowOf m t) = .ok b)
    (h : (⟨m, [t]⟩ : StoredTable).SelectsAlike order q) :
    condition.checkPatterns [t] = .ok () ∧ condition.selects t = b := by
  obtain ⟨rows, matching, hfetch, hmatching, hperm⟩ := h 1 (Nat.le_refl 1) (by decide)
  have hlength : [t].length ≤ 1 := Nat.le_refl 1
  obtain ⟨rows', hfetch', hperm'⟩ := exists_fetch hcondition hcarried horder hlength (by decide)
  rw [if_neg Nat.one_ne_zero] at hfetch'
  obtain ⟨⟨⟩, hpatterns, rfl⟩ := Result.map_eq_ok.1 (hfetch'.symm.trans hfetch)
  refine ⟨hpatterns, ?_⟩
  have hrow : Memory.matching [rowOf m t] q = .ok (if b then [rowOf m t] else []) := by
    rw [Memory.matching, Predicate.select, hholds]
    rfl
  obtain rfl := Except.ok.inj (hmatching.symm.trans hrow)
  have hlengths := (hperm'.symm.trans hperm).length_eq
  cases b <;> cases hselects : condition.selects t <;> simp [hselects] at hlengths ⊢

end

/-- **A table with texts of some kind selects alike whatever the texts if and only if the pattern** is
not too long and **describes the same of them to a table and in memory.** -/
theorem selectsAlike_forall_iff (hf : m.column field = .ok c) (htype : c.type = .text)
    (hq : q.Seeks field pattern anyCase)
    (horder : ∀ k ∈ order.keys, ∃ d, m.column k.field = .ok d) :
    (∀ tuples : List Tuple, (∀ t ∈ tuples, t.HasText P c) →
      (⟨m, tuples⟩ : StoredTable).SelectsAlike order q) ↔
        pattern.utf8ByteSize ≤ Wildcard.sizeLimit ∧ ∀ s : String, P s.toList →
          Wildcard.matchesPlain pattern s = Wildcard.matchesAll anyCase pattern s := by
  obtain ⟨negated, hcondition, hnull, htext⟩ := exists_like hf htype hq
  have hcarried := carried_like htype pattern anyCase negated
  constructor
  · intro h
    constructor
    · -- a table of one null
      have hcell : Tuple.cell [] c = .null := rfl
      have hone : Tuple.HasText P c [] :=
        ⟨.null _, fun s hs => absurd (hcell.symm.trans hs) nofun⟩
      have hpatterns := ((h [_] (List.forall_mem_singleton.2 hone)).of_single hcondition hcarried
        horder (hnull _ hcell)).1
      rw [Condition.checkPatterns_like (List.cons_ne_nil _ _)] at hpatterns
      by_contra hlong
      exact absurd (hpatterns.symm.trans (if_neg hlong)) nofun
    intro s hs
    -- a table of one text
    have hcell : Tuple.cell [(c.name, .text s)] c = .text s := by
      simp [Tuple.cell, Entries.get?]
    have hone : Tuple.HasText P c [(c.name, .text s)] :=
      ⟨by rw [hcell]; exact .text s, fun s' hs' => Cell.text.inj (hcell.symm.trans hs') ▸ hs⟩
    have heq := ((h [_] (List.forall_mem_singleton.2 hone)).of_single hcondition hcarried horder
      (htext _ s hcell)).2
    rw [Condition.selects_like_text hcell] at heq
    exact Bool.bne_left_inj.1 heq
  · rintro ⟨hsize, h⟩ tuples htuples
    have hpatterns : (Condition.like c (.text pattern) anyCase negated).checkPatterns tuples =
        .ok () := by
      by_cases hempty : tuples = []
      · rw [hempty]
        rfl
      · rw [Condition.checkPatterns_like hempty, if_pos hsize]
    refine selectsAlike_of_holds hcondition hcarried horder hpatterns fun t ht => ?_
    obtain ⟨htype, hP⟩ := htuples t ht
    cases hcell : t.cell c with
    | null => rw [hnull t hcell, Condition.selects_like_null hcell]
    | text s => rw [htext t s hcell, Condition.selects_like_text hcell, h s (hP s hcell)]
    | int i => exact absurd (hcell ▸ htype) (fun h => by cases h)
    | real x => exact absurd (hcell ▸ htype) (fun h => by cases h)

/-- **A table selects what a memory does for the portable patterns and no others**, as long as no
character is zero and no pattern too long. Whatever the characters, it does so for the portable
patterns of all texts with a given beginning and no others. -/
theorem selectsAlike_iff (hf : m.column field = .ok c) (htype : c.type = .text)
    (hq : q.Seeks field pattern anyCase)
    (horder : ∀ k ∈ order.keys, ∃ d, m.column k.field = .ok d) :
    (Wildcard.ZeroFree pattern.toList →
      ((∀ tuples : List Tuple, (∀ t ∈ tuples, t.HasText Wildcard.ZeroFree c) →
        (⟨m, tuples⟩ : StoredTable).SelectsAlike order q) ↔
          pattern.utf8ByteSize ≤ Wildcard.sizeLimit ∧ Wildcard.Portable anyCase pattern)) ∧
    ((∀ tuples : List Tuple, (∀ t ∈ tuples, (t.cell c).IsOf .text) →
      (⟨m, tuples⟩ : StoredTable).SelectsAlike order q) ↔
        pattern.utf8ByteSize ≤ Wildcard.sizeLimit ∧ Wildcard.Portable anyCase pattern ∧
          Wildcard.IsBeginning (Wildcard.ofChars pattern.toList)) := by
  constructor
  · intro hpattern
    rw [selectsAlike_forall_iff hf htype hq horder, Wildcard.portable_iff hpattern]
  · have hall := selectsAlike_forall_iff (P := fun _ => True) hf htype hq horder
    simp only [Tuple.HasText, implies_true, and_true, true_implies] at hall
    rw [hall, Wildcard.portable_isBeginning_iff]

end StoredTable

namespace Shelf

/-- The keys of the shelf's order are stored. -/
theorem exists_column : ∀ k ∈ order.keys, ∃ d, mapping.column k.field = .ok d := by
  intro k hk
  rcases List.mem_pair.1 hk with rfl | rfl
  · exact ⟨⟨"name", .text⟩, rfl⟩
  · exact ⟨⟨"id", .integer⟩, rfl⟩

/-- Dates and their patterns have no letters. -/
theorem portable_dates :
    Wildcard.Portable false "2024-%" ∧ Wildcard.Portable false "%-_1" :=
  ⟨Wildcard.portable_of_marks (List.all_iff_forall_prop.1 (by decide)) (by decide),
    Wildcard.portable_of_marks (List.all_iff_forall_prop.1 (by decide)) (by decide)⟩

end Shelf

namespace StoredTable

/-- Dates are sought alike: by the year that they begin with, and by the day that they end with. -/
theorem selectsAlike_dates :
    (⟨Shelf.mapping, [Shelf.tuple 1 .null "2024-01", Shelf.tuple 2 .null "1999-01"]⟩ :
      StoredTable).SelectsAlike Shelf.order (.unlike "title" (.text "2024-%")) ∧
    (⟨Shelf.mapping, [Shelf.tuple 1 .null "2024-01", Shelf.tuple 2 .null "1999-02"]⟩ :
      StoredTable).SelectsAlike Shelf.order (.like "title" (.text "%-_1") false) := by
  have hname : Shelf.mapping.column "title" = .ok ⟨"name", .text⟩ := rfl
  constructor
  · refine ((selectsAlike_iff hname rfl .unlike Shelf.exists_column).2.2
      ⟨by decide, Shelf.portable_dates.1, "2024-".toList, 0, by decide +kernel⟩) _ fun t ht => ?_
    rcases List.mem_pair.1 ht with rfl | rfl
    · exact .text "2024-01"
    · exact .text "1999-01"
  · refine ((selectsAlike_iff hname rfl (.like false) Shelf.exists_column).1
      Shelf.portable_dates.2.zeroFree).2 ⟨by decide, Shelf.portable_dates.2⟩ _ fun t ht => ?_
    rcases List.mem_pair.1 ht with rfl | rfl
    · exact ⟨.text "2024-01", fun s hs => Cell.text.inj hs ▸
        List.all_iff_forall_prop.1 (by decide)⟩
    · exact ⟨.text "1999-02", fun s hs => Cell.text.inj hs ▸
        List.all_iff_forall_prop.1 (by decide)⟩

/-- A table finds a plain letter in either case where a memory finds it as written. -/
theorem selectsAlike_fails :
    ¬(⟨Shelf.mapping, [Shelf.tuple 1 .null "A"]⟩ : StoredTable).SelectsAlike Shelf.order
      (.like "title" (.text "a") false) := by
  intro h
  have hname : Shelf.mapping.column "title" = .ok ⟨"name", .text⟩ := rfl
  have hseeks : Predicate.Seeks "title" "a" false (.like "title" (.text "a") false) := .like false
  obtain ⟨negated, hcondition, -, htext⟩ := exists_like hname rfl hseeks
  have hcell : (Shelf.tuple 1 .null "A").cell ⟨"name", .text⟩ = .text "A" := rfl
  have hcarried := carried_like (c := ⟨"name", .text⟩) rfl "a" false negated
  have heq := (SelectsAlike.of_single hcondition hcarried Shelf.exists_column
    (htext _ "A" hcell) h).2
  rw [Condition.selects_like_text hcell] at heq
  exact absurd (Bool.bne_left_inj.1 heq) (by decide +kernel)

end StoredTable

end Listing
