import Mathlib.Data.List.Basic
import Mathlib.Data.List.Perm.Basic
import Listing.Proofs.MemoryWindow
import Listing.Proofs.TableMeaning

/-!
# Windows of a table

A table answers as a memory of its rows does. Its condition selects the tuples whose rows satisfy
the predicate, its order of cells is the order of their values (`compareBy_eq`), and so its sort
arranges the rows in the one way in which they can be arranged (`arranged_sortTuples`). The bounds
of a window are bound as integers of 64 bits; beyond those a table fails (`StoredTable.answers_eq`).
Both answer within the limits of the engine on the size of a statement, which a table leaves out.
-/

set_option autoImplicit false

namespace Listing

/-! ## The order of cells -/

/-- The order of two things, of which one may come before the other. -/
def orderOf (before after : Bool) : Ordering :=
  if before then .lt else if after then .gt else .eq

theorem orderOf_then (before after before' after' : Bool) :
    (orderOf before after).then (orderOf before' after') =
      orderOf (before || !after && before') (after || !before && after') := by
  cases before <;> cases after <;> rfl

theorem orderOf_swap {before after : Bool} (h : ¬(before = true ∧ after = true)) :
    (orderOf before after).swap = orderOf after before := by
  revert h
  cases before <;> cases after <;> decide

theorem orderOf_ne_gt {before after : Bool} (h : ¬(before = true ∧ after = true)) :
    (orderOf before after != .gt) = !after := by
  revert h
  cases before <;> cases after <;> decide

/-- Cells that are not empty are ordered as their values are. -/
theorem Cell.compare_eq {c : Column} {a b : Cell} (ha : a.IsOf c.type) (hb : b.IsOf c.type)
    (ha' : a ≠ .null) (hb' : b ≠ .null) : (a.value c.type).Alike (b.value c.type) ∧
      a.compare b = orderOf ((a.value c.type).isBelow (b.value c.type))
        ((b.value c.type).isBelow (a.value c.type)) := by
  obtain ⟨name, type⟩ := c
  cases ha with
  | null => exact absurd rfl ha'
  | integer i => cases hb with
    | null => exact absurd rfl hb'
    | integer j =>
        refine ⟨.int i j, ?_⟩
        change Ord.compare i j = orderOf (decide (i < j)) (decide (j < i))
        rw [orderOf]
        rcases Int.lt_trichotomy i j with h | rfl | h
        · rw [compare_lt_iff_lt.2 h, decide_eq_true h, if_pos rfl]
        · rw [compare_eq_iff_eq.2 rfl, decide_eq_false (Int.lt_irrefl i), if_neg Bool.false_ne_true,
            if_neg Bool.false_ne_true]
        · rw [compare_gt_iff_gt.2 h, decide_eq_false (Int.lt_asymm h), decide_eq_true h,
            if_neg Bool.false_ne_true, if_pos rfl]
  | text s => cases hb with
    | null => exact absurd rfl hb'
    | text t =>
        refine ⟨.text s t, ?_⟩
        change compareTexts s t = orderOf (compareTexts s t == .lt) (compareTexts t s == .lt)
        rw [← compareTexts_swap s t]
        cases compareTexts s t <;> rfl

namespace Mapping

/-- The tuple has an integer or a text in the column of every key. -/
def HoldsKeys (m : Mapping) (keys : List SortKey) (t : Tuple) : Prop :=
  ∀ k ∈ keys, ∃ c, m.column k.field = .ok c ∧ (t.cell c).IsOf c.type ∧ t.cell c ≠ .null

theorem exists_sortColumns {m : Mapping} : ∀ {keys : List SortKey},
    (∀ k ∈ keys, ∃ c, m.column k.field = .ok c) → ∃ columns, m.sortColumns keys = .ok columns := by
  intro keys
  induction keys with
  | nil => exact fun _ => ⟨[], rfl⟩
  | cons k keys ih =>
      intro h
      obtain ⟨c, hc⟩ := h k (by simp)
      obtain ⟨columns, hcolumns⟩ := ih fun k' hk' => h k' (by simp [hk'])
      refine ⟨(c, k.direction) :: columns, ?_⟩
      rw [sortColumns, hc, hcolumns]
      rfl

end Mapping

namespace StoredTable

variable {m : Mapping} {keys : List SortKey}

/-- The values of a tuple in the fields of keys. -/
def keysOf (m : Mapping) (keys : List SortKey) (t : Tuple) : List Value :=
  valuesIn keys (rowOf m t)

/-- A descending column exchanges what comes before and what comes after. -/
theorem compareBy_cons (a b : Tuple) (c : Column) (d : Direction)
    (columns : List (Column × Direction)) : compareBy a b ((c, d) :: columns) =
      (if d = .ascending then (a.cell c).compare (b.cell c)
        else ((a.cell c).compare (b.cell c)).swap).then (compareBy a b columns) := by
  cases d <;> rfl

/-- **The columns of a sort order tuples as its keys order their rows.** -/
theorem compareBy_eq {a b : Tuple} : ∀ {keys : List SortKey} {columns : List (Column × Direction)},
    m.sortColumns keys = .ok columns → m.HoldsKeys keys a → m.HoldsKeys keys b →
      AllAlike (keysOf m keys a) (keysOf m keys b) ∧
        compareBy a b columns = orderOf (precedes keys (keysOf m keys a) (keysOf m keys b))
          (precedes keys (keysOf m keys b) (keysOf m keys a)) := by
  intro keys
  induction keys with
  | nil =>
      intro columns h _ _
      obtain rfl := Except.ok.inj h
      exact ⟨.nil, rfl⟩
  | cons k keys ih =>
      intro columns h ha hb
      obtain ⟨c, hc, hac, hanull⟩ := ha k (by simp)
      obtain ⟨d, hd, hbc, hbnull⟩ := hb k (by simp)
      obtain rfl : c = d := Except.ok.inj (hc.symm.trans hd)
      rw [Mapping.sortColumns, hc, Result.ok_bind] at h
      obtain ⟨rest, hrest, h⟩ := Result.bind_eq_ok.1 h
      obtain rfl := Except.ok.inj h
      obtain ⟨halike, hcell⟩ := Cell.compare_eq hac hbc hanull hbnull
      obtain ⟨halikes, hcells⟩ := ih hrest (fun k' hk' => ha k' (by simp [hk']))
        fun k' hk' => hb k' (by simp [hk'])
      have hkeys : ∀ t : Tuple, keysOf m (k :: keys) t =
          (t.cell c).value c.type :: keysOf m keys t := by
        intro t
        rw [keysOf, valuesIn_cons, Mapping.fieldOrNull_rowOf hc]
        rfl
      rw [hkeys, hkeys]
      refine ⟨.cons halike halikes, ?_⟩
      have hkey : (if k.direction = .ascending then (a.cell c).compare (b.cell c)
          else ((a.cell c).compare (b.cell c)).swap) =
          orderOf (k.puts ((a.cell c).value c.type) ((b.cell c).value c.type))
            (k.puts ((b.cell c).value c.type) ((a.cell c).value c.type)) := by
        simp only [SortKey.puts, hcell]
        cases k.direction with
        | ascending => rfl
        | descending => exact orderOf_swap fun h => Value.isBelow_asymm h.1 h.2
      rw [compareBy_cons, precedes, precedes, ← orderOf_then, ← hkey, ← hcells]

/-- What does not come after something that does not come after a third does not come after it. -/
theorem not_precedes_trans {us vs ws : List Value} (huv : AllAlike us vs) (hvw : AllAlike vs ws)
    (hlength : us.length = keys.length) (h : ¬precedes keys vs us) (h' : ¬precedes keys ws vs) :
    ¬precedes keys ws us := by
  intro hwu
  rcases precedes_trichotomy keys huv hlength with huv' | rfl | hvu
  · exact h' (precedes_trans keys (huv.trans hvw).symm huv hwu huv')
  · exact h' hwu
  · exact h hvu

/-- The first of two tuples with keys does not come after the second. -/
def notAfter (m : Mapping) (keys : List SortKey) (columns : List (Column × Direction))
    (a b : { t // m.HoldsKeys keys t }) : Bool :=
  compareBy a.1 b.1 columns != .gt

section

variable {columns : List (Column × Direction)}

theorem notAfter_iff (hcolumns : m.sortColumns keys = .ok columns)
    (a b : { t // m.HoldsKeys keys t }) :
    notAfter m keys columns a b = true ↔
      ¬precedes keys (keysOf m keys b.1) (keysOf m keys a.1) := by
  obtain ⟨halike, hcompare⟩ := compareBy_eq hcolumns a.2 b.2
  rw [notAfter, hcompare, orderOf_ne_gt fun h => precedes_asymm halike h.1 h.2, Bool.not_eq_true',
    Bool.not_eq_true]

theorem notAfter_trans (hcolumns : m.sortColumns keys = .ok columns)
    (a b c : { t // m.HoldsKeys keys t }) (hab : notAfter m keys columns a b = true)
    (hbc : notAfter m keys columns b c = true) : notAfter m keys columns a c = true := by
  rw [notAfter_iff hcolumns] at hab hbc ⊢
  have hlength : (keysOf m keys a.1).length = keys.length := by simp [keysOf, valuesIn]
  exact not_precedes_trans (compareBy_eq hcolumns a.2 b.2).1 (compareBy_eq hcolumns b.2 c.2).1
    hlength hab hbc

theorem notAfter_total (hcolumns : m.sortColumns keys = .ok columns)
    (a b : { t // m.HoldsKeys keys t }) :
    (notAfter m keys columns a b || notAfter m keys columns b a) = true := by
  rw [Bool.or_eq_true, notAfter_iff hcolumns, notAfter_iff hcolumns]
  by_cases h : precedes keys (keysOf m keys b.1) (keysOf m keys a.1) = true
  · exact Or.inr (precedes_asymm (compareBy_eq hcolumns b.2 a.2).1 h)
  · exact Or.inl h

/-- **Sorting tuples sorts their rows.** -/
theorem pairwise_sortTuples {tuples : List Tuple} (hcolumns : m.sortColumns keys = .ok columns)
    (htuples : ∀ t ∈ tuples, m.HoldsKeys keys t) : (sortTuples columns tuples).Pairwise fun a b =>
      ¬precedes keys (keysOf m keys b) (keysOf m keys a) := by
  -- only tuples with keys are totally ordered, so the sort is taken among those
  have hmap : ((tuples.attachWith _ htuples).mergeSort (notAfter m keys columns)).map Subtype.val =
      sortTuples columns tuples := by
    refine (List.map_mergeSort (s := fun a b => compareBy a b columns != .gt)
      fun a _ b _ => rfl).trans ?_
    rw [List.attachWith_map_subtype_val]
    rfl
  rw [← hmap, List.pairwise_map]
  exact (List.pairwise_mergeSort (notAfter_trans hcolumns) (notAfter_total hcolumns) _).imp
    (notAfter_iff hcolumns _ _).1

end

/-! ## Windows -/

section

variable {s : StoredTable} {rows : List Value} {p : Predicate} {order : SortOrder} {c : Condition}

/-- The rows of the selected tuples are the rows that satisfy the predicate. -/
theorem filter_map_rowOf {tuples : List Tuple}
    (h : ∀ t ∈ tuples, p.holds (rowOf m t) = .ok (c.selects t)) :
    (tuples.filter c.selects).map (rowOf m) = (tuples.map (rowOf m)).filter p.accepts := by
  rw [List.filter_map]
  exact congrArg (List.map _)
    (List.filter_congr fun t ht => (Predicate.accepts_of_holds (h t ht)).symm)

/-- What a sort needs of a table: the tuples that a predicate selects have an integer or a text for
every key, and no two of their rows agree in all keys. -/
structure Sorts (s : StoredTable) (order : SortOrder) (p : Predicate) : Prop where
  columns : ∀ k ∈ order.keys, ∃ c, s.mapping.column k.field = .ok c ∧
    ∀ t ∈ s.tuples, p.accepts (rowOf s.mapping t) → t.cell c ≠ .null
  distinct : ((s.tuples.map (rowOf s.mapping)).filter p.accepts).Pairwise fun a b =>
    order.valuesOf a ≠ order.valuesOf b

theorem Sorts.holdsKeys (h : s.Sorts order p) (htuples : ∀ t ∈ s.tuples, s.mapping.Holds t)
    {t : Tuple} (ht : t ∈ s.tuples) (haccepts : p.accepts (rowOf s.mapping t) = true) :
    s.mapping.HoldsKeys order.keys t := by
  intro k hk
  obtain ⟨c, hc, hnull⟩ := h.columns k hk
  exact ⟨c, hc, htuples t ht k.field c hc, hnull t ht haccepts⟩

/-- The rows of a table that satisfy the predicate can be sorted in memory. -/
theorem Sorts.sortable (h : s.Sorts order p) (htuples : ∀ t ∈ s.tuples, s.mapping.Holds t) :
    Memory.Sortable order.keys ((s.tuples.map (rowOf s.mapping)).filter p.accepts) := by
  have hback : ∀ row ∈ (s.tuples.map (rowOf s.mapping)).filter p.accepts, ∀ k ∈ order.keys,
      ∃ t c, rowOf s.mapping t = row ∧ s.mapping.column k.field = .ok c ∧
        (t.cell c).IsOf c.type ∧ t.cell c ≠ .null := by
    intro row hrow k hk
    obtain ⟨hrow, haccepts⟩ := List.mem_filter.1 hrow
    obtain ⟨t, ht, rfl⟩ := List.mem_map.1 hrow
    obtain ⟨c, hc, hcell, hnull⟩ := h.holdsKeys htuples ht haccepts k hk
    exact ⟨t, c, rfl, hc, hcell, hnull⟩
  constructor
  · intro k hk row hrow
    obtain ⟨t, c, rfl, hc, -⟩ := hback row hrow k hk
    rw [Mapping.field?_rowOf hc]
    rfl
  · intro k hk a ha b hb
    obtain ⟨t, c, rfl, hc, ht, ht'⟩ := hback a ha k hk
    obtain ⟨u, d, rfl, hd, hu, hu'⟩ := hback b hb k hk
    obtain rfl : c = d := Except.ok.inj (hc.symm.trans hd)
    rw [Mapping.fieldOrNull_rowOf hc, Mapping.fieldOrNull_rowOf hc]
    exact (Cell.compare_eq ht hu ht' hu').1

/-- The sorted rows of the selected tuples are an arrangement. -/
theorem arranged_sortTuples {columns : List (Column × Direction)} (hc : s.mapping.Means p c)
    (htuples : ∀ t ∈ s.tuples, s.mapping.Holds t)
    (hcolumns : s.mapping.sortColumns order.keys = .ok columns) (hsorts : s.Sorts order p) :
    Memory.Arranged order p (s.tuples.map (rowOf s.mapping))
      ((sortTuples columns (s.tuples.filter c.selects)).map (rowOf s.mapping)) := by
  have hperm : ((sortTuples columns (s.tuples.filter c.selects)).map (rowOf s.mapping)).Perm
      ((s.tuples.map (rowOf s.mapping)).filter p.accepts) :=
    filter_map_rowOf (fun t ht => hc.holds (htuples t ht)) ▸ (List.mergeSort_perm _ _).map _
  refine ⟨hperm, ?_⟩
  have hkeys : ∀ t ∈ s.tuples.filter c.selects, s.mapping.HoldsKeys order.keys t := by
    intro t ht
    obtain ⟨ht, hselects⟩ := List.mem_filter.1 ht
    refine hsorts.holdsKeys htuples ht ?_
    rw [Predicate.accepts_of_holds (hc.holds (htuples t ht)), hselects]
  have hsorted : ((sortTuples columns (s.tuples.filter c.selects)).map (rowOf s.mapping)).Pairwise
      fun a b => ¬order.puts (order.valuesOf b) (order.valuesOf a) :=
    List.pairwise_map.2 (pairwise_sortTuples hcolumns hkeys)
  have hne := (hperm.pairwise_iff fun h => Ne.symm h).2 hsorts.distinct
  refine (hsorted.and hne).imp_of_mem ?_
  intro a b ha hb hab
  have halike := (hsorts.sortable htuples).allAlike (hperm.mem_iff.1 ha) (hperm.mem_iff.1 hb)
  -- no two rows tie in all keys
  rcases precedes_trichotomy order.keys halike (order.length_valuesOf a) with h | h | h
  · exact h
  · exact absurd h hab.2
  · exact absurd h hab.1

/-! ## Answers -/

theorem isStorable_natCast {n : Nat} : Cell.isStorable n = true ↔ n < 2 ^ 63 := by
  rw [Cell.isStorable, decide_eq_true_iff, Cell.integerBound]
  omega

theorem bound_plain_int (i : Int) : (Operand.mk .plain (.int i)).bound =
    if Cell.isStorable i then .ok (.int i) else .error .overflow :=
  rfl

/-- A statement can carry the bounds of a window that are integers of 64 bits. -/
theorem check_boundOperands {os : List Operand} (h : ∀ o ∈ os, o.IsCarried) (limit offset : Nat) :
    Operand.check (os ++ boundOperands limit offset) =
      if limit < 2 ^ 63 ∧ offset < 2 ^ 63 then .ok () else .error .overflow := by
  have hconverted : Operand.checkConverted (boundOperands limit offset) = .ok () := by
    rw [boundOperands]
    split <;> rfl
  have hbound : Operand.checkBound (boundOperands limit offset) =
      if limit < 2 ^ 63 ∧ offset < 2 ^ 63 then .ok () else .error .overflow := by
    have hstored : ∀ n : Nat, (Operand.mk .plain (.int n)).bound =
        if n < 2 ^ 63 then .ok (.int n) else .error .overflow := fun n =>
      (bound_plain_int n).trans (if_congr isStorable_natCast rfl rfl)
    by_cases hlimit : limit < 2 ^ 63
    · rw [boundOperands, Operand.checkBound, hstored, if_pos hlimit, Result.ok_bind]
      -- no offset is sent where there is none, and zero is in range
      by_cases hzero : (offset : Int) = 0
      · rw [if_pos hzero, if_pos ⟨hlimit, by omega⟩]
        rfl
      · rw [if_neg hzero, Operand.checkBound, hstored]
        by_cases hoffset : offset < 2 ^ 63
        · rw [if_pos hoffset, if_pos ⟨hlimit, hoffset⟩]
          rfl
        · rw [if_neg hoffset, if_neg fun h => hoffset h.2]
          rfl
    · have hneither : ¬(limit < 2 ^ 63 ∧ offset < 2 ^ 63) := fun h => hlimit h.1
      rw [boundOperands, Operand.checkBound, hstored, if_neg hlimit, if_neg hneither,
        Result.error_bind]
  rw [Operand.check, Operand.checkConverted_append_of_isCarried h, hconverted, Result.ok_bind,
    Operand.checkBound_append_of_isCarried h, hbound]

theorem windowOf_natCast {α : Type} (limit offset : Nat) (items : List α) :
    windowOf (limit : Int) (offset : Int) items = (items.drop offset).take limit := by
  rw [windowOf, if_neg (Int.not_lt.2 (Int.natCast_nonneg limit)), Int.toNat_natCast,
    Int.toNat_natCast]

/-- The rows of a window of the tuples that a condition selects. -/
def windowRows (s : StoredTable) (c : Condition) (columns : List (Column × Direction))
    (limit offset : Nat) : List Value :=
  (((sortTuples columns (s.tuples.filter c.selects)).map (rowOf s.mapping)).drop offset).take limit

/-- What a table answers to a window under keys that have columns. A window without rows asks for no
pattern. -/
theorem fetch_eq {columns : List (Column × Direction)} (hc : s.mapping.condition p = .ok c)
    (hcarried : ∀ o ∈ c.operands, o.IsCarried)
    (hcolumns : s.mapping.sortColumns order.keys = .ok columns) (limit offset : Nat) :
    (s.store.fetch ⟨p, order, limit, offset⟩).result =
      if limit < 2 ^ 63 ∧ offset < 2 ^ 63 then
        (if limit = 0 then .ok () else c.checkPatterns s.tuples).map fun _ =>
          s.windowRows c columns limit offset
      else .error .overflow := by
  have hrows : (windowOf (limit : Int) (offset : Int) (sortTuples columns
      (s.tuples.filter c.selects))).map (rowOf s.mapping) = s.windowRows c columns limit offset := by
    rw [windowOf_natCast, windowRows, List.map_take, List.map_drop]
  have hwindow : s.window ⟨p, order, limit, offset⟩ =
      if limit < 2 ^ 63 ∧ offset < 2 ^ 63 then
        (if limit = 0 then .ok () else c.checkPatterns s.tuples).map fun _ =>
          s.windowRows c columns limit offset
      else .error .overflow := by
    rw [window, hc, Result.ok_bind, hcolumns, Result.ok_bind, check_boundOperands hcarried]
    split
    · rw [Result.ok_bind, ← hrows]
      by_cases hlimit : limit = 0
      · subst hlimit
        rfl
      · rw [if_neg hlimit, if_pos (show (limit : Int) ≠ 0 by omega)]
        cases c.checkPatterns s.tuples <;> rfl
    · rfl
  simp only [store, Traced.result_bind, Traced.result_liftM, hwindow]
  split
  · cases (if limit = 0 then .ok () else c.checkPatterns s.tuples : Result Unit) <;> rfl
  · rfl

theorem count_eq (hc : s.mapping.Means p c) :
    (s.store.count p).result = .ok (s.tuples.filter c.selects).length := by
  have hcheck := Operand.check_of_isCarried hc.carried
  have hpatterns := Condition.checkPatterns_of_hasPattern hc.plain s.tuples
  simp only [store, number, hc.compiled, Result.ok_bind, hcheck, hpatterns, Traced.result_ofResult]
  rfl

/-- The rows that a table stands for can be asked whatever its columns can. -/
theorem decides_rows {tuples : List Tuple}
    (h : ∀ t ∈ tuples, p.holds (rowOf m t) = .ok (c.selects t)) {rows : List Value}
    (hrows : rows.Perm (tuples.map (rowOf m))) : p.Decides rows := by
  intro row hrow
  obtain ⟨t, ht, rfl⟩ := List.mem_map.1 (hrows.mem_iff.1 hrow)
  exact ⟨_, h t ht⟩

theorem count_answers {rows : List Value} (hrows : rows.Perm (s.tuples.map (rowOf s.mapping)))
    (htuples : ∀ t ∈ s.tuples, s.mapping.Holds t) (hp : s.mapping.Asks p) :
    ∃ n, ((Memory.ofRows rows).store.count p).result = .ok n ∧
      (s.store.count p).result = .ok n := by
  obtain ⟨c, hc⟩ := hp.exists_means
  have hholds := fun t ht => hc.holds (htuples t ht)
  have hlength := congrArg List.length (filter_map_rowOf hholds)
  rw [List.length_map] at hlength
  refine ⟨(s.tuples.filter c.selects).length, ?_, count_eq hc⟩
  rw [Memory.result_count, Memory.matching_eq_filter (decides_rows hholds hrows),
    Result.ok_bind, (hrows.filter p.accepts).length_eq, hlength]

theorem fetch_answers {rows : List Value} (hrows : rows.Perm (s.tuples.map (rowOf s.mapping)))
    (htuples : ∀ t ∈ s.tuples, s.mapping.Holds t) (hp : s.mapping.Asks p)
    (hsorts : s.Sorts order p) (limit offset : Nat) : ∃ answer,
      ((Memory.ofRows rows).store.fetch ⟨p, order, limit, offset⟩).result = .ok answer ∧
      (s.store.fetch ⟨p, order, limit, offset⟩).result =
        if limit < 2 ^ 63 ∧ offset < 2 ^ 63 then .ok answer else .error .overflow := by
  obtain ⟨c, hc⟩ := hp.exists_means
  obtain ⟨columns, hcolumns⟩ := Mapping.exists_sortColumns fun k hk =>
    (hsorts.columns k hk).imp fun _ h => h.1
  have hmatching := hrows.filter p.accepts
  have hsortable := (hsorts.sortable htuples).of_perm hmatching
  obtain ⟨arranged, harranged, hwindow⟩ := Memory.window_of_matching hsortable
    ((hmatching.pairwise_iff fun h => Ne.symm h).2 hsorts.distinct)
    (decides_rows (fun t ht => hc.holds (htuples t ht)) hrows)
  -- both stores arrange the same rows, and there is only one arrangement
  have hsorted := arranged_sortTuples hc htuples hcolumns hsorts
  have hone := harranged.unique_of_matching hsortable
    ⟨hsorted.perm.trans hmatching.symm, hsorted.sorted⟩
  refine ⟨(arranged.drop offset).take limit, ?_, ?_⟩
  · rw [Memory.result_fetch, hwindow]
  · rw [fetch_eq hc.compiled hc.carried hcolumns,
      Condition.checkPatterns_of_hasPattern hc.plain, ite_self, windowRows, hone]
    rfl

end

end StoredTable

/-! ## Books on a shelf -/

namespace Shelf

/-- Books with a number, perhaps the number of a box, and a title, which is kept under another
name. -/
def mapping : Mapping where
  table := ⟨"books", [⟨"id", .integer⟩, ⟨"box", .integer⟩, ⟨"name", .text⟩]⟩
  fields := [("id", ⟨"id", .integer⟩), ("box", ⟨"box", .integer⟩), ("title", ⟨"name", .text⟩)]

example : Mapping.make mapping.table [("title", "name")] = .ok mapping := by
  rfl

/-- The tuple of a book. -/
def tuple (id : Int) (box : Cell) (title : String) : Tuple :=
  [("id", .int id), ("box", box), ("name", .text title)]

/-- Four books, of which one is in no box. -/
def table : StoredTable :=
  ⟨mapping, [tuple 1 .null "b", tuple 2 (.int 7) "a", tuple 3 (.int 8) "b", tuple 4 (.int 7) "c"]⟩

/-- By title from the last to the first, and by number. -/
def order : SortOrder :=
  ⟨[⟨"title", .descending⟩, ⟨"id", .ascending⟩], by decide⟩

/-- The books in no box, and those in another box than the seventh with a title up to a given one,
if any. -/
def criteria : Predicate :=
  .any [.equal "box" .null, .all [.differ "box" (.int 7), .order "title" .lte (.text "b"), .always],
    .any [], .among "id" [.int 4, .int 5]]

theorem asks_criteria : mapping.Asks criteria := by
  have hnumber : ∀ i ∈ [4, 5, 7], (Value.int i).IsOf .integer := fun i hi =>
    .integer ((by decide : ∀ i ∈ [4, 5, 7], Cell.isStorable i = true) i hi)
  refine .any fun p hp => ?_
  simp only [List.mem_cons, List.not_mem_nil, or_false] at hp
  rcases hp with rfl | rfl | rfl | rfl
  · exact .equal (c := ⟨"box", .integer⟩) rfl (.inl rfl)
  · refine .all fun p hp => ?_
    simp only [List.mem_cons, List.not_mem_nil, or_false] at hp
    rcases hp with rfl | rfl | rfl
    · exact .differ (c := ⟨"box", .integer⟩) rfl (.inr (hnumber 7 (by decide)))
    · exact .order (c := ⟨"name", .text⟩) .lte rfl (.text "b")
    · exact .always
  · exact .any fun p hp => absurd hp List.not_mem_nil
  · refine .among (c := ⟨"id", .integer⟩) rfl (by simp) fun v hv => ?_
    rcases List.mem_pair.1 hv with rfl | rfl
    · exact hnumber 4 (by decide)
    · exact hnumber 5 (by decide)

theorem holds_tuple (id : Int) {box : Cell} (h : box.IsOf .integer) (title : String) :
    mapping.Holds (tuple id box title) := by
  intro field c hc
  have hmem := Mapping.mem_fields_of_column hc
  simp only [mapping, List.mem_cons, Prod.mk.injEq, List.not_mem_nil, or_false] at hmem
  rcases hmem with ⟨-, rfl⟩ | ⟨-, rfl⟩ | ⟨-, rfl⟩
  · exact .integer id
  · exact h
  · exact .text title

theorem mem_table {t : Tuple} (h : t ∈ table.tuples) :
    ∃ id box title, t = tuple id box title ∧ box.IsOf .integer := by
  simp only [table, List.mem_cons, List.not_mem_nil, or_false] at h
  rcases h with rfl | rfl | rfl | rfl
  · exact ⟨_, _, _, rfl, .null _⟩
  · exact ⟨_, _, _, rfl, .integer 7⟩
  · exact ⟨_, _, _, rfl, .integer 8⟩
  · exact ⟨_, _, _, rfl, .integer 7⟩

theorem holds_table : ∀ t ∈ table.tuples, mapping.Holds t := by
  intro t ht
  obtain ⟨id, box, title, rfl, hbox⟩ := mem_table ht
  exact holds_tuple id hbox title

theorem sorts_table (p : Predicate) : table.Sorts order p where
  columns := by
    intro k hk
    rcases List.mem_pair.1 hk with rfl | rfl
    · refine ⟨⟨"name", .text⟩, rfl, fun t ht _ => ?_⟩
      obtain ⟨id, box, title, rfl, -⟩ := mem_table ht
      exact Cell.noConfusion
    · refine ⟨⟨"id", .integer⟩, rfl, fun t ht _ => ?_⟩
      obtain ⟨id, box, title, rfl, -⟩ := mem_table ht
      exact Cell.noConfusion
  distinct := by
    have hkeys : ∀ id box title, order.valuesOf (StoredTable.rowOf mapping (tuple id box title)) =
        [.text title, .int id] := fun _ _ _ => rfl
    refine List.Pairwise.filter _ (List.pairwise_map.2 ?_)
    simp [table, hkeys]

end Shelf

namespace StoredTable

/-- **A table answers as a memory of its rows does**, to every window and every count, except that a
bound of a window that is no integer of 64 bits cannot be sent to it. -/
theorem answers_eq {s : StoredTable} {rows : List Value} {p : Predicate} {order : SortOrder}
    (hrows : rows.Perm (s.tuples.map (rowOf s.mapping)))
    (htuples : ∀ t ∈ s.tuples, s.mapping.Holds t) (hp : s.mapping.Asks p)
    (hsorts : s.Sorts order p) :
    (∃ n, ((Memory.ofRows rows).store.count p).result = .ok n ∧ (s.store.count p).result = .ok n) ∧
    ∀ limit offset : Nat, ∃ answer,
      ((Memory.ofRows rows).store.fetch ⟨p, order, limit, offset⟩).result = .ok answer ∧
      (s.store.fetch ⟨p, order, limit, offset⟩).result =
        if limit < 2 ^ 63 ∧ offset < 2 ^ 63 then .ok answer else .error .overflow := by
  constructor
  · exact count_answers hrows htuples hp
  · intro limit offset
    exact fetch_answers hrows htuples hp hsorts limit offset

/-- Either store answers with the same two books, however the rows in memory are placed. -/
theorem answers_eq_shelf :
    (∃ n, ((Memory.ofRows (Shelf.table.tuples.map (rowOf Shelf.mapping)).reverse).store.count
      Shelf.criteria).result = .ok n ∧ (Shelf.table.store.count Shelf.criteria).result = .ok n) ∧
    ∃ answer, ((Memory.ofRows (Shelf.table.tuples.map (rowOf Shelf.mapping)).reverse).store.fetch
      ⟨Shelf.criteria, Shelf.order, 2, 1⟩).result = .ok answer ∧
      (Shelf.table.store.fetch ⟨Shelf.criteria, Shelf.order, 2, 1⟩).result = .ok answer := by
  have h := answers_eq (List.reverse_perm _) Shelf.holds_table Shelf.asks_criteria
    (Shelf.sorts_table Shelf.criteria)
  exact ⟨h.1, h.2 2 1⟩

/-- A limit of more than 64 bits is taken by a memory and not by a table. -/
theorem answers_eq_fails : ∃ answer,
    ((Memory.ofRows (Shelf.table.tuples.map (rowOf Shelf.mapping))).store.fetch
      ⟨.always, Shelf.order, 9223372036854775808, 0⟩).result = .ok answer ∧
    (Shelf.table.store.fetch ⟨.always, Shelf.order, 9223372036854775808, 0⟩).result =
      .error .overflow :=
  fetch_answers (.refl _) Shelf.holds_table .always (Shelf.sorts_table .always)
    9223372036854775808 0

end StoredTable

end Listing
