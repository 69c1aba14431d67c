import Mathlib.Data.List.Basic
import Mathlib.Data.List.Pairwise
import Listing.Proofs.KeysetPages

/-!
# The window of a page at a position

A page at a position that can be written is the exact window of the matching rows on that side of
its key values, for every such position and both sides, precisely when the criteria can be written
and agree with their normal form on the rows, and the key values of the matching rows can be written
(`Pager.positionPage_window_iff`). A position that cannot be written has no page at all.

That the condition is needed is seen by going from one row to the next: the window at a position is
that of the normal form, and the row next to the position is in it if it is in the window that is
expected, and was sealed (`Pager.mem_of_sameWindows`). Every row lies on some side of some position
that can be written, namely one that differs from it in each key (`SortOrder.otherValues`).
-/

set_option autoImplicit false

namespace Listing

/-! ## Other values -/

namespace Value

/-- Another value of the same type, which can be written. -/
def other : Value → Value
  | int i => int (if i = 0 then 1 else 0)
  | text s => text (if s = "" then "x" else "")
  | v => v

variable {v w : Value}

theorem Alike.other (h : v.Alike w) : v.other.Alike w := by
  cases h with
  | int i j => exact .int _ j
  | text s t => exact .text _ t

theorem Alike.other_ne (h : v.Alike w) : v.other ≠ v := by
  cases h with
  | int i j =>
      rw [Value.other, Ne, int.injEq]
      split <;> omega
  | text s t =>
      rw [Value.other, Ne, text.injEq]
      split
      · next hs => exact fun h => absurd (h.trans hs) (by decide)
      · next hs => exact fun h => hs h.symm

theorem Alike.isShowable_other (h : v.Alike w) : v.other.isShowable = true := by
  cases h with
  | int i j =>
      rw [Value.other]
      split <;> exact isShowable_int (by decide)
  | text s t => rfl

end Value

namespace SortOrder

variable {order : SortOrder} {row : Value}

/-- Key values that differ from those of a row in each key. -/
def otherValues (order : SortOrder) (row : Value) : List Value :=
  (order.valuesOf row).map Value.other

theorem length_otherValues (order : SortOrder) (row : Value) :
    (order.otherValues row).length = order.size := by
  rw [otherValues, List.length_map, length_valuesOf]

theorem allAlike_otherValues {ws : List Value} (h : AllAlike (order.valuesOf row) ws) :
    AllAlike (order.otherValues row) ws :=
  List.forall₂_map_left_iff.2 (h.imp fun _ _ hv => hv.other)

theorem otherValues_ne (h : AllAlike (order.valuesOf row) (order.valuesOf row)) :
    order.otherValues row ≠ order.valuesOf row := by
  have hsize : (order.valuesOf row).length = order.keys.length := order.length_valuesOf row
  rw [otherValues]
  cases hvalues : order.valuesOf row with
  | nil =>
      rw [hvalues] at hsize
      exact absurd (List.length_eq_zero_iff.1 hsize.symm) order.nonempty
  | cons v values =>
      rw [hvalues] at h
      cases h with
      | cons hv _ => exact fun heq => hv.other_ne (List.cons.inj heq).1

theorem isShowable_otherValues (h : AllAlike (order.valuesOf row) (order.valuesOf row)) :
    ∀ v ∈ order.otherValues row, v.isShowable = true := by
  intro v hv
  obtain ⟨w, hw, rfl⟩ := List.mem_map.1 hv
  obtain ⟨u, -, hu⟩ := exists_of_mem_forall₂ h hw
  exact hu.symm.isShowable_other

end SortOrder

namespace Pager

variable {p : Pager} {order : SortOrder} {rows : List Value} {criteria : Predicate}

/-! ## Agreement -/

/-- The two predicates are asked with the same outcome. -/
def Agree (q q' : Predicate) (rows : List Value) : Prop :=
  ∀ row ∈ rows, q.holds row = q'.holds row

theorem Agree.decides {q q' : Predicate} (h : Agree q q' rows) (hq : q'.Decides rows) :
    q.Decides rows := by
  intro row hrow
  rw [h row hrow]
  exact hq row hrow

/-- Predicates that accept the same rows without faults agree. -/
theorem agree_of_accepts {q q' : Predicate} (hq : q.Decides rows) (hq' : q'.Decides rows)
    (haccepts : ∀ row ∈ rows, q.accepts row = q'.accepts row) : Agree q q' rows := by
  intro row hrow
  rw [hq.holds_eq hrow, hq'.holds_eq hrow, haccepts row hrow]

/-- Arrangements by predicates that agree are arrangements by either. -/
theorem Agree.arranged {q q' : Predicate} (h : Agree q q' rows) {arranged : List Value}
    (harranged : Memory.Arranged order q' rows arranged) :
    Memory.Arranged order q rows arranged where
  perm := by
    have hfilter : rows.filter q.accepts = rows.filter q'.accepts := by
      apply List.filter_congr
      intro row hrow
      rw [Predicate.accepts, Predicate.accepts, h row hrow]
    rw [hfilter]
    exact harranged.perm
  sorted := harranged.sorted

section

variable {arranged values : List Value} {q : Predicate} {side : Side} {n : Nat} {r : Value}

/-! ## From one row to the next -/

/-- The row lies on the side of the key values. -/
def liesOn (order : SortOrder) (values : List Value) (row : Value) : Side → Bool
  | .after => order.puts values (order.valuesOf row)
  | .before => order.puts (order.valuesOf row) values

/-- Rows in the order in which they are met towards a side. -/
def towards (arranged : List Value) : Side → List Value
  | .after => arranged
  | .before => arranged.reverse

/-- The arranged rows on a side of key values, from the values on. -/
def rowsOn (order : SortOrder) (arranged values : List Value) (side : Side) : List Value :=
  (towards arranged side).filter (liesOn order values · side)

theorem rowsOn_before (order : SortOrder) (arranged values : List Value) :
    rowsOn order arranged values .before = (rowsBefore order values arranged).reverse :=
  List.filter_reverse

theorem mem_towards_iff : r ∈ towards arranged side ↔ r ∈ arranged := by
  cases side with
  | after => exact Iff.rfl
  | before => exact List.mem_reverse

theorem mem_rowsOn_iff :
    r ∈ rowsOn order arranged values side ↔ r ∈ arranged ∧ liesOn order values r side = true :=
  List.mem_filter.trans (and_congr_left' mem_towards_iff)

theorem pairwise_rowsOn (h : Memory.Arranged order q rows arranged) (values : List Value)
    (side : Side) : (rowsOn order arranged values side).Pairwise fun a b =>
      liesOn order (order.valuesOf a) b side = true := by
  cases side with
  | after => exact h.sorted.filter _
  | before => exact (List.pairwise_reverse.2 h.sorted).filter _

/-- The row of a window next to its key values. -/
def nearest (order : SortOrder) (n : Nat) (arranged values : List Value) : Side → Option Value
  | .after => previousRow order n arranged values .after
  | .before => nextRow order n arranged values .before

theorem nearest_eq (hn : 1 ≤ n) (arranged values : List Value) (side : Side) :
    nearest order n arranged values side = (rowsOn order arranged values side).head? := by
  obtain ⟨n, rfl⟩ : ∃ m, n = m + 1 := ⟨n - 1, by omega⟩
  cases side with
  | after =>
      change ((rowsAfter order values arranged).take (n + 1)).head? = _
      change _ = (rowsAfter order values arranged).head?
      cases rowsAfter order values arranged <;> rfl
  | before =>
      change (ending (rowsBefore order values arranged) (n + 1)).getLast? = _
      rw [← reverse_take_reverse, List.getLast?_reverse, rowsOn_before]
      cases (rowsBefore order values arranged).reverse <;> rfl

/-- On the side of a row there is a nearest one, and the row is that or lies beyond it. -/
theorem exists_nearest (h : Memory.Arranged order q rows arranged) (hn : 1 ≤ n)
    (hr : r ∈ rowsOn order arranged values side) :
    ∃ u, nearest order n arranged values side = some u ∧
      u ∈ rowsOn order arranged values side ∧
      (r = u ∨ r ∈ rowsOn order arranged (order.valuesOf u) side) := by
  have hsorted := pairwise_rowsOn h values side
  rw [nearest_eq hn]
  cases hrows : rowsOn order arranged values side with
  | nil =>
      rw [hrows] at hr
      exact absurd hr List.not_mem_nil
  | cons u rest =>
      refine ⟨u, rfl, List.mem_cons_self, ?_⟩
      have hmem := (mem_rowsOn_iff.1 hr).1
      rw [hrows] at hr hsorted
      rcases List.mem_cons.1 hr with rfl | hr
      · exact .inl rfl
      · exact .inr (mem_rowsOn_iff.2 ⟨hmem, List.rel_of_pairwise_cons hsorted hr⟩)

theorem liesOn_trans {z : Value} (hr : AllAlike values (order.valuesOf r))
    (hz : AllAlike (order.valuesOf r) (order.valuesOf z)) (h : liesOn order values r side = true)
    (h' : liesOn order (order.valuesOf r) z side = true) : liesOn order values z side = true := by
  cases side with
  | after => exact precedes_trans order.keys hr hz h h'
  | before => exact precedes_trans order.keys hz.symm hr.symm h' h

/-- Fewer rows lie beyond a row than beyond key values on whose side the row lies. -/
theorem length_rowsOn_lt (hrows : Listable p.sealer.schema order rows)
    (h : Memory.Arranged order q rows arranged) (hcomparable : Comparable order values rows)
    (hr : r ∈ rowsOn order arranged values side) :
    (rowsOn order arranged (order.valuesOf r) side).length <
      (rowsOn order arranged values side).length := by
  obtain ⟨hmem, hside⟩ := mem_rowsOn_iff.1 hr
  have hrow : r ∈ rows := (h.mem_iff.1 hmem).1
  have hbeyond : rowsOn order arranged (order.valuesOf r) side =
      (rowsOn order arranged values side).filter (liesOn order (order.valuesOf r) · side) := by
    rw [rowsOn, rowsOn, List.filter_filter]
    refine List.filter_congr fun z hz => ?_
    have hzrow : z ∈ rows := (h.mem_iff.1 (mem_towards_iff.1 hz)).1
    -- what lies beyond the row lies beyond the values
    rw [Bool.eq_iff_iff, Bool.and_eq_true]
    exact ⟨fun h => ⟨h, liesOn_trans (hcomparable r hrow) (hrows.sortable.allAlike hrow hzrow)
      hside h⟩, And.left⟩
  rw [hbeyond, List.length_filter_lt_length_iff_exists]
  refine ⟨r, hr, ?_⟩
  cases side with
  | after => exact precedes_irrefl order.keys _
  | before => exact precedes_irrefl order.keys _

/-- At key values that can be written two arrangements show the same, and the row next to the values
can be written. -/
def SameWindows (order : SortOrder) (n : Nat) (rows arranged arranged' : List Value) : Prop :=
  ∀ values side, values.length = order.size → Comparable order values rows →
    (∀ v ∈ values, v.isShowable = true) →
      nearest order n arranged values side = nearest order n arranged' values side ∧
      ∀ r, nearest order n arranged values side = some r → ∀ v ∈ order.valuesOf r, v.IsWritable

theorem SameWindows.symm {arranged' : List Value} (h : SameWindows order n rows arranged arranged') :
    SameWindows order n rows arranged' arranged := by
  intro values side hlength hcomparable hshown
  obtain ⟨hequal, hwritable⟩ := h values side hlength hcomparable hshown
  exact ⟨hequal.symm, hequal ▸ hwritable⟩

/-- **What one arrangement has on a side of some values, the other has**, and it can be written. By
induction on the number of rows there, going from the row next to the values to the one next to it. -/
theorem mem_of_sameWindows {q' : Predicate} {arranged' : List Value}
    (hrows : Listable p.sealer.schema order rows) (h : Memory.Arranged order q rows arranged)
    (h' : Memory.Arranged order q' rows arranged') (hn : 1 ≤ n)
    (hsame : SameWindows order n rows arranged arranged') (hlength : values.length = order.size)
    (hcomparable : Comparable order values rows) (hshown : ∀ v ∈ values, v.isShowable = true)
    (hr : r ∈ rowsOn order arranged values side) :
    r ∈ arranged' ∧ ∀ v ∈ order.valuesOf r, v.IsWritable := by
  induction hm : (rowsOn order arranged values side).length using Nat.strong_induction_on
    generalizing values with
  | _ m ih =>
      obtain ⟨hequal, hwritable⟩ := hsame values side hlength hcomparable hshown
      obtain ⟨u, hu, hmem, hbeyond⟩ := exists_nearest h hn hr
      have huwritable := hwritable u hu
      have hushown : u ∈ arranged' := by
        rw [hequal, nearest_eq hn] at hu
        exact (mem_rowsOn_iff.1 (List.mem_of_head? hu)).1
      rcases hbeyond with rfl | hbeyond
      · exact ⟨hushown, huwritable⟩
      · have hurow : u ∈ rows := (h'.mem_iff.1 hushown).1
        exact ih _ (hm ▸ length_rowsOn_lt hrows h hcomparable hmem) (order.length_valuesOf u)
          (fun z hz => hrows.sortable.allAlike hurow hz)
          ((hrows.sortable.allAlike hurow hurow).isShowable huwritable) hbeyond rfl

/-- Every row lies on some side of key values that can be written. -/
theorem exists_side (hrows : Listable p.sealer.schema order rows) (hr : r ∈ rows) :
    ∃ side, liesOn order (order.otherValues r) r side = true := by
  have halike := hrows.sortable.allAlike hr hr
  rcases precedes_trichotomy order.keys (SortOrder.allAlike_otherValues halike)
    (order.length_otherValues r) with h | h | h
  · exact ⟨.after, h⟩
  · exact absurd h (SortOrder.otherValues_ne halike)
  · exact ⟨.before, h⟩

/-- Two arrangements that show the same everywhere have the same rows, all of which can be written. -/
theorem mem_iff_of_sameWindows {q' : Predicate} {arranged' : List Value}
    (hrows : Listable p.sealer.schema order rows) (h : Memory.Arranged order q rows arranged)
    (h' : Memory.Arranged order q' rows arranged') (hn : 1 ≤ n)
    (hsame : SameWindows order n rows arranged arranged') (hr : r ∈ rows) :
    (r ∈ arranged ↔ r ∈ arranged') ∧ (r ∈ arranged → ∀ v ∈ order.valuesOf r, v.IsWritable) := by
  obtain ⟨side, hside⟩ := exists_side hrows hr
  have halike := hrows.sortable.allAlike hr hr
  have hlength := order.length_otherValues r
  have hcomparable : Comparable order (order.otherValues r) rows := fun z hz =>
    SortOrder.allAlike_otherValues (hrows.sortable.allAlike hr hz)
  have hshown := SortOrder.isShowable_otherValues halike
  have hin := fun hmem => mem_of_sameWindows hrows h h' hn hsame hlength hcomparable hshown
    (mem_rowsOn_iff.2 ⟨hmem, hside⟩)
  have hback := fun hmem => mem_of_sameWindows hrows h' h hn hsame.symm hlength hcomparable hshown
    (mem_rowsOn_iff.2 ⟨hmem, hside⟩)
  exact ⟨⟨fun hmem => (hin hmem).1, fun hmem => (hback hmem).1⟩, fun hmem => (hin hmem).2⟩

end

/-! ## Windows at every position -/

variable {arranged arranged' : List Value} {n : Nat}

/-- There are key values that compare with those of all rows and can be written. -/
theorem exists_comparable (hrows : Listable p.sealer.schema order rows) :
    ∃ values, values.length = order.size ∧ Comparable order values rows ∧
      ∀ v ∈ values, v.isShowable = true := by
  cases hfirst : rows with
  | nil =>
      refine ⟨List.replicate order.size .null, List.length_replicate, ?_, ?_⟩
      · exact fun row hrow => absurd hrow List.not_mem_nil
      · exact fun v hv => List.eq_of_mem_replicate hv ▸ rfl
  | cons r rest =>
      have hr : r ∈ rows := hfirst ▸ List.mem_cons_self
      rw [← hfirst]
      exact ⟨order.otherValues r, order.length_otherValues r,
        fun row hrow => SortOrder.allAlike_otherValues (hrows.sortable.allAlike hr hrow),
        SortOrder.isShowable_otherValues (hrows.sortable.allAlike hr hr)⟩

/-- The row next to the values of a page was sealed. -/
theorem ShowsWindow.isWritable_nearest {values : List Value} {side : Side} {page : KeysetPage}
    {r : Value} (hrows : Listable p.sealer.schema order rows) {q : Predicate}
    (harranged : Memory.Arranged order q rows arranged)
    (h : p.ShowsWindow order n arranged values side page)
    (hr : nearest order n arranged values side = some r) : ∀ v ∈ order.valuesOf r, v.IsWritable := by
  cases side with
  | after =>
      change previousRow order n arranged values .after = some r at hr
      have hmem := mem_of_mem_windowRows (mem_of_previousRow hr)
      have hmarks := KeysetPage.Shows.previous h
      rw [hr] at hmarks
      exact hmarks.isWritable (hrows.holdsKeys harranged hmem)
  | before =>
      change nextRow order n arranged values .before = some r at hr
      have hmem := mem_of_mem_windowRows (mem_of_nextRow hr)
      have hmarks := KeysetPage.Shows.next h
      rw [hr] at hmarks
      exact hmarks.isWritable (hrows.holdsKeys harranged hmem)

/-- The window tells the row next to its values. -/
theorem nearest_congr {values : List Value} {side : Side}
    (h : windowRows order n arranged values side = windowRows order n arranged' values side) :
    nearest order n arranged values side = nearest order n arranged' values side := by
  cases side with
  | after => exact congrArg List.head? h
  | before => exact congrArg List.getLast? h

/-- The expected window at every position that can be written. -/
def ShowsWindows (p : Pager) (criteria : Predicate) (order : SortOrder) (n : Nat)
    (rows arranged : List Value) : Prop :=
  ∀ values side, values.length = order.size → Comparable order values rows →
    (∀ v ∈ values, v.isShowable = true) →
      ∃ page, ((p.onRows rows).pageAt criteria order n (some ⟨values, side⟩)).result = .ok page ∧
        p.ShowsWindow order n arranged values side page

/-- A page is the window of the normal form, so the criteria show what their normal form shows. -/
theorem ShowsWindows.sameWindows (h : p.ShowsWindows criteria order n rows arranged)
    (hrows : Listable p.sealer.schema order rows) (hforeign : criteria.hasForeign = false)
    (harranged : Memory.Arranged order criteria rows arranged)
    (hnormal : Memory.Arranged order criteria.normal rows arranged') :
    SameWindows order n rows arranged arranged' := by
  intro values side hlength hcomparable hshown
  obtain ⟨page, hpage, hshows⟩ := h values side hlength hcomparable hshown
  have hshows' := showsWindow_of_pageAt hrows hforeign hlength hcomparable hnormal hpage
  exact ⟨nearest_congr (hshows.rows_eq.symm.trans hshows'.rows_eq),
    fun r hr => hshows.isWritable_nearest hrows harranged hr⟩

/-- Exact windows leave nothing for the normal form to change, and every matching row in them was
sealed. -/
theorem ShowsWindows.agree (h : p.ShowsWindows criteria order n rows arranged)
    (hrows : Listable p.sealer.schema order rows) (hforeign : criteria.hasForeign = false)
    (hdecides : criteria.Decides rows) (hn : 1 ≤ n)
    (harranged : Memory.Arranged order criteria rows arranged) :
    criteria.isWritable = true ∧ Agree criteria.normal criteria rows ∧
      Writable order arranged := by
  obtain ⟨values, hlength, hcomparable, hshown⟩ := exists_comparable hrows
  obtain ⟨page, hpage, -⟩ := h values .after hlength hcomparable hshown
  obtain ⟨hwritten, hnormal⟩ := decides_of_pageAt hforeign hlength hpage
  obtain ⟨arranged', harranged', -⟩ := Memory.window_spec hrows.sortable hrows.distinct hnormal
  have hsame := h.sameWindows hrows hforeign harranged harranged'
  refine ⟨hwritten.1, agree_of_accepts hnormal hdecides fun row hrow => ?_, fun row hrow => ?_⟩
  · have hmem := (mem_iff_of_sameWindows hrows harranged harranged' hn hsame hrow).1
    rw [harranged.mem_iff, harranged'.mem_iff, and_iff_right hrow, and_iff_right hrow] at hmem
    exact Bool.eq_iff_iff.2 hmem.symm
  · exact (mem_iff_of_sameWindows hrows harranged harranged' hn hsame
      (harranged.mem_iff.1 hrow).1).2 hrow

/-- **The exact window at every position.** For rows with keys, criteria that raise no fault and an
admitted size, there is a page at all key values that can be written and on both sides, and it is the
window of the matching rows there, exactly when the criteria can be written, their normal form agrees
with them on every row, and the key values of the matching rows can be written. At key values that
cannot be written, or for such criteria, there is no page. -/
theorem positionPage_window_iff {size : Value}
    (hrows : Listable p.sealer.schema order rows) (hforeign : criteria.hasForeign = false)
    (hdecides : criteria.Decides rows) (hsize : admitSize p.maxPageSize size = .ok n) :
    ∃ arranged, Memory.Arranged order criteria rows arranged ∧
      ((∀ values side, values.length = order.size → Comparable order values rows →
          (∀ v ∈ values, v.isShowable = true) →
        ∃ page, p.answer criteria order size rows (.position ⟨values, side⟩) = .ok page ∧
          p.ShowsWindow order n arranged values side page) ↔
        criteria.isWritable = true ∧ Agree criteria.normal criteria rows ∧
          Writable order arranged) ∧
      ∀ values side, values.length = order.size → ¬Written criteria values →
        p.answer criteria order size rows (.position ⟨values, side⟩) = .error .longInteger := by
  obtain ⟨arranged, harranged, -⟩ := Memory.window_spec hrows.sortable hrows.distinct hdecides
  refine ⟨arranged, harranged, ?_, ?_⟩ <;> simp only [answer_position hsize]
  · constructor
    · intro hwindows
      exact ShowsWindows.agree hwindows hrows hforeign hdecides (one_le_of_admitSize hsize)
        harranged
    · rintro ⟨hcriteria, hagree, hwritable⟩ values side hlength hcomparable hshown
      have hnormal := hagree.arranged harranged
      obtain ⟨page, hresult⟩ : ∃ page,
          ((p.onRows rows).pageAt criteria order n (some ⟨values, side⟩)).result = .ok page :=
        exists_pageAt hrows hforeign hlength ⟨hcriteria, hshown⟩ hcomparable
          (hagree.decides hdecides) hnormal fun r hr =>
            hwritable r (mem_of_mem_windowRows (hr.elim mem_of_nextRow mem_of_previousRow))
      exact ⟨page, hresult,
        showsWindow_of_pageAt hrows hforeign hlength hcomparable hnormal hresult⟩
  · intro values side hlength hlong
    exact pageAt_of_not_written hforeign hlength hlong n side

/-- Three items, all but a fourth one asked for, two on a page. -/
theorem positionPage_window_grouped :
    Listable Grouped.schema Grouped.order Grouped.three ∧
      (Predicate.differ "id" (.int 4)).hasForeign = false ∧
      (Predicate.differ "id" (.int 4)).Decides Grouped.three ∧
      admitSize Grouped.pager.maxPageSize (.int 2) = .ok 2 ∧
      ∃ arranged, Memory.Arranged Grouped.order (.differ "id" (.int 4)) Grouped.three arranged ∧
        ((∀ values side, values.length = Grouped.order.size →
            Comparable Grouped.order values Grouped.three →
            (∀ v ∈ values, v.isShowable = true) →
          ∃ page, Grouped.pager.answer (.differ "id" (.int 4)) Grouped.order (.int 2)
              Grouped.three (.position ⟨values, side⟩) = .ok page ∧
            Grouped.pager.ShowsWindow Grouped.order 2 arranged values side page) ↔
          (Predicate.differ "id" (.int 4)).isWritable = true ∧
          Agree (Predicate.differ "id" (.int 4)).normal (.differ "id" (.int 4)) Grouped.three ∧
          Writable Grouped.order arranged) ∧
        ∀ values side, values.length = Grouped.order.size →
          ¬Written (.differ "id" (.int 4)) values →
          Grouped.pager.answer (.differ "id" (.int 4)) Grouped.order (.int 2) Grouped.three
            (.position ⟨values, side⟩) = .error .longInteger := by
  refine ⟨Grouped.listable_three, rfl, Grouped.decides_three, rfl, ?_⟩
  exact positionPage_window_iff Grouped.listable_three rfl Grouped.decides_three rfl

/-- **A page that is no window.** Both items are matched by everything or the first item, and both
come after the values given; the page of one item after them has no cursor onwards. -/
theorem positionPage_window_fails :
    Listable Grouped.schema Grouped.order Grouped.two ∧
      Grouped.allOrFirst.hasForeign = false ∧ Grouped.allOrFirst.Decides Grouped.two ∧
      Writable Grouped.order Grouped.two ∧
      Memory.Arranged Grouped.order Grouped.allOrFirst Grouped.two Grouped.two ∧
      Comparable Grouped.order [.text "a", .int 0] Grouped.two ∧
      ¬∃ page, Grouped.pager.answer Grouped.allOrFirst Grouped.order (.int 1) Grouped.two
          (.position ⟨[.text "a", .int 0], .after⟩) = .ok page ∧
        Grouped.pager.ShowsWindow Grouped.order 1 Grouped.two [.text "a", .int 0] .after page := by
  have hcomparable : Comparable Grouped.order [.text "a", .int 0] Grouped.two := by
    intro row hrow
    rcases List.mem_pair.1 hrow with rfl | rfl
    · exact .cons (.text _ _) (.cons (.int _ _) .nil)
    · exact .cons (.text _ _) (.cons (.int _ _) .nil)
  have hsize : admitSize Grouped.pager.maxPageSize (.int 1) = .ok (1 : Nat) := rfl
  refine ⟨Grouped.listable_two, rfl, Grouped.decides_two, Grouped.writable_two,
    Grouped.arranged_two, hcomparable, ?_⟩
  rintro ⟨page, hpage, hshows⟩
  rw [answer_position hsize] at hpage
  have hshows' := showsWindow_of_pageAt Grouped.listable_two rfl rfl hcomparable
    Grouped.arranged_normal_two hpage
  have hnext : page.next.isSome = true := (Sealer.Marks.isSome_eq hshows.next).trans rfl
  have hnone : page.next.isSome = false := (Sealer.Marks.isSome_eq hshows'.next).trans rfl
  exact absurd (hnext.symm.trans hnone) (by simp)

end Pager

end Listing
