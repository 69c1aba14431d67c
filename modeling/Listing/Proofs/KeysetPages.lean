import Mathlib.Data.List.Basic
import Listing.Page.Pager
import Listing.Proofs.KeysetMeaning
import Listing.Proofs.MemoryWindow
import Listing.Proofs.SealedCursor
import Listing.Proofs.TracedResult
import Listing.Proofs.WritableTexts

/-!
# Keyset pages over a memory

What one keyset page holds when the rows of a memory have keys that can be compared. A page after a
position is the start of the rows behind it, a page before a position the end of the rows ahead of
it, and the cursors of the page stand for its outer rows (`Pager.result_pageAfter`,
`Pager.result_pageBefore`). The first page asks for the criteria as they are, every other page for
their normal form.
-/

set_option autoImplicit false

namespace Listing

/-! ## Rows that can be listed -/

/-- Single digits can be shown. -/
theorem Value.isShowable_int {i : Int} (h : i.natAbs < 10) : (int i).isShowable = true := by
  have hwidth : Decimal.width i.natAbs ≤ 1 := Text.length_digits_le (k := 0) h
  exact decide_eq_true (hwidth.trans (by decide))

/-- Integers and texts are shown as they are written into cursors. -/
theorem Value.Alike.isShowable_iff {v w : Value} (h : v.Alike w) :
    v.isShowable = true ↔ v.IsWritable := by
  cases h with
  | int i j => exact decide_eq_true_iff
  | text s t => exact iff_of_true rfl trivial

/-- Key values that can be sealed can be shown. -/
theorem AllAlike.isShowable {vs : List Value} (h : AllAlike vs vs) (hw : ∀ v ∈ vs, v.IsWritable) :
    ∀ v ∈ vs, v.isShowable = true := by
  intro v hv
  obtain ⟨w, -, hvw⟩ := exists_of_mem_forall₂ h hv
  exact hvw.symm.isShowable_iff.2 (hw v hv)

/-- The rows have keys under an order, and no two of them agree in the last key. -/
structure Listable (s : Schema) (order : SortOrder) (rows : List Value) : Prop where
  keys : ∀ row ∈ rows, s.HoldsKeys order.keys row
  distinct : Memory.Distinct order rows

theorem Listable.sortable {s : Schema} {order : SortOrder} {rows : List Value}
    (h : Listable s order rows) : Memory.Sortable order.keys rows where
  present k hk row hrow := by
    rw [((h.keys row hrow).fieldOrNull hk).1]
    rfl
  alike k hk a ha b hb :=
    ((h.keys a ha).fieldOrNull hk).2.alike ((h.keys b hb).fieldOrNull hk).2

/-- The key values of the rows can be written. -/
def Writable (order : SortOrder) (rows : List Value) : Prop :=
  ∀ row ∈ rows, ∀ v ∈ order.valuesOf row, v.IsWritable

/-- The values can be compared with the key values of each row. -/
def Comparable (order : SortOrder) (values rows : List Value) : Prop :=
  ∀ row ∈ rows, AllAlike values (order.valuesOf row)

theorem Listable.comparable {s : Schema} {order : SortOrder} {rows : List Value}
    (h : Listable s order rows) {row : Value} (hrow : s.HoldsKeys order.keys row) :
    Comparable order (order.valuesOf row) rows := by
  intro other hother
  exact hrow.allAlike (h.keys other hother)

theorem Listable.holdsKeys {s : Schema} {order : SortOrder} {rows arranged : List Value}
    {q : Predicate} (h : Listable s order rows) (harranged : Memory.Arranged order q rows arranged)
    {row : Value} (hrow : row ∈ arranged) : s.HoldsKeys order.keys row :=
  h.keys row (harranged.mem_iff.1 hrow).1

/-! ## Cursors of rows -/

namespace Sealer

/-- There is a cursor exactly when there is a row, and the cursor is the sealed side of the row: it
is opened as the key values of the row and that side, unless it is longer than the sealer admits. -/
def Marks (s : Sealer) (order : SortOrder) (side : Side) : Option Value → Option String → Prop
  | none, none => True
  | some row, some t => s.sealRow order row side = .ok t ∧ ∀ long, s.exceeds t = .ok long →
      s.openText order t = if long then refuse .tooLong else .ok ⟨order.valuesOf row, side⟩
  | _, _ => False

theorem Marks.isSome_eq {s : Sealer} {order : SortOrder} {side : Side} {row : Option Value}
    {cursor : Option String} (h : s.Marks order side row cursor) : cursor.isSome = row.isSome := by
  cases row <;> cases cursor <;> first | rfl | exact absurd h not_false

/-- A cursor stands for a row. -/
theorem Marks.exists_row {s : Sealer} {order : SortOrder} {side : Side} {row : Option Value}
    {t : String} (h : s.Marks order side row (some t)) :
    ∃ r, row = some r ∧ s.Marks order side (some r) (some t) := by
  cases row with
  | none => exact absurd h not_false
  | some r => exact ⟨r, rfl, h⟩

/-- A row has a cursor. -/
theorem Marks.exists_cursor {s : Sealer} {order : SortOrder} {side : Side} {r : Value}
    {cursor : Option String} (h : s.Marks order side (some r) cursor) :
    ∃ t, cursor = some t ∧ s.Marks order side (some r) (some t) := by
  cases cursor with
  | none => exact absurd h not_false
  | some t => exact ⟨t, rfl, h⟩

/-- Where no cursor goes on after the start of a list, the start is all of it. -/
theorem Marks.take_eq_of_none {s : Sealer} {order : SortOrder} {side : Side} {items : List Value}
    {n : Nat} (hn : 1 ≤ n)
    (h : s.Marks order side (if n < items.length then (items.take n).getLast? else none) none) :
    items.take n = items := by
  apply List.take_of_length_le
  apply Nat.le_of_not_lt
  intro hlonger
  have hsome := h.isSome_eq
  -- a longer list would have a row to go on after
  rw [if_pos hlonger, List.getLast?_take, if_neg (by omega),
    List.getElem?_eq_getElem (by omega)] at hsome
  exact absurd hsome (by simp)

/-- A row of keys that has a cursor has key values that can be written. -/
theorem Marks.isWritable {s : Sealer} {order : SortOrder} {side : Side} {r : Value}
    {cursor : Option String} (h : s.Marks order side (some r) cursor)
    (hkeys : s.schema.HoldsKeys order.keys r) : ∀ v ∈ order.valuesOf r, v.IsWritable := by
  obtain ⟨t, -, ht, -⟩ := h.exists_cursor
  exact isWritable_of_sealRow hkeys ht

/-- A cursor that is opened at all is opened as the key values of its row. -/
theorem Marks.here_eq {s : Sealer} {order : SortOrder} {side : Side} {r : Value} {t : String}
    {here : Position} (h : s.Marks order side (some r) (some t))
    (hopen : s.openText order t = .ok here) : here = ⟨order.valuesOf r, side⟩ :=
  Except.ok.inj (hopen.symm.trans (h.2 false (exceeds_of_openText hopen)))

end Sealer

/-- The page has the given rows, and cursors after one row and before another. -/
structure KeysetPage.Shows (page : KeysetPage) (s : Sealer) (order : SortOrder)
    (rows : List Value) (next previous : Option Value) : Prop where
  rows_eq : page.rows = rows
  next : s.Marks order .after next page.next
  previous : s.Marks order .before previous page.previous

namespace Pager

variable {p : Pager} {order : SortOrder} {rows : List Value} {criteria : Predicate}

/-- The pager over a memory of rows. -/
def onRows (p : Pager) (rows : List Value) : Pager :=
  { p with store := (Memory.ofRows rows).store }

/-- A memory answers with its window once the predicate has been written. -/
theorem result_fetch_onRows (p : Pager) (rows : List Value) (w : Window) :
    ((p.onRows rows).fetch w).result = w.predicate.written >>= fun _ => Memory.window rows w := by
  rw [fetch, onRows]
  cases w.predicate.written <;> simp [Memory.result_fetch, Result.ok_bind, Result.error_bind]

theorem sealOptional_spec (side : Side) {row : Option Value}
    (h : ∀ r ∈ row, p.sealer.schema.HoldsKeys order.keys r)
    (hw : ∀ r ∈ row, ∀ v ∈ order.valuesOf r, v.IsWritable) :
    ∃ cursor, p.sealOptional order side row = .ok cursor ∧
      p.sealer.Marks order side row cursor := by
  cases row with
  | none => exact ⟨none, rfl, trivial⟩
  | some r =>
      obtain ⟨t, ht, hopen⟩ := Sealer.sealRow_spec side (h r rfl) (hw r rfl)
      refine ⟨some t, ?_, ht, hopen⟩
      rw [sealOptional, ht]
      rfl

theorem marks_of_sealOptional {side : Side} {row : Option Value} {cursor : Option String}
    (h : ∀ r ∈ row, p.sealer.schema.HoldsKeys order.keys r)
    (hcursor : p.sealOptional order side row = .ok cursor) :
    p.sealer.Marks order side row cursor := by
  cases row with
  | none =>
      obtain rfl := Except.ok.inj hcursor
      trivial
  | some r =>
      rw [sealOptional] at hcursor
      -- the cursor is the sealed row, and a row that was sealed is opened again
      obtain ⟨t, ht, hsome⟩ := Result.bind_eq_ok.1 hcursor
      obtain rfl := Except.ok.inj hsome
      obtain ⟨t', ht', hopen⟩ := Sealer.sealRow_spec side (h r rfl)
        (Sealer.isWritable_of_sealRow (h r rfl) ht)
      obtain rfl := Except.ok.inj (ht.symm.trans ht')
      exact ⟨ht, hopen⟩

/-! ## What is asked for -/

/-- A row strictly after a position is asked for when it satisfies the normal form of the
criteria. -/
theorem wanted_some {values : List Value} {side : Side} (hforeign : criteria.hasForeign = false)
    (hlength : values.length = order.size) :
    wanted criteria order (some ⟨values, side⟩) =
      .ok (.conjoin [criteria, Keyset.strictlyAfter order values]) := by
  have hany : Predicate.anyForeign [criteria, Keyset.strictlyAfter order values] = false := by
    simp [Predicate.anyForeign, hforeign, Keyset.hasForeign_strictlyAfter]
  rw [wanted, Keyset.predicate, if_pos hlength, Result.ok_bind, Predicate.conjoined, hany,
    if_neg Bool.false_ne_true]

/-- The criteria and key values can be written, and so can the predicate of the rows after them. -/
def Written (criteria : Predicate) (values : List Value) : Prop :=
  criteria.isWritable = true ∧ ∀ v ∈ values, v.isShowable = true

theorem isWritable_wanted {values : List Value} (hlength : values.length = order.size) :
    (Predicate.conjoin [criteria, Keyset.strictlyAfter order values]).isWritable = true ↔
      Written criteria values := by
  rw [Predicate.isWritable_conjoin, Predicate.areWritable_iff]
  simp [Written, Keyset.isWritable_strictlyAfter_iff hlength]

theorem holds_wanted {values : List Value} {row : Value}
    (halike : AllAlike values (order.valuesOf row)) {b : Bool}
    (hb : criteria.normal.holds row = .ok b) :
    (Predicate.conjoin [criteria, Keyset.strictlyAfter order values]).holds row =
      .ok (b && order.puts values (order.valuesOf row)) := by
  rw [Predicate.holds_conjoin, List.map_cons, List.map_singleton, Predicate.holdsAll, hb,
    Predicate.holdsAll_singleton, Keyset.normal_strictlyAfter, Keyset.holds_strictlyAfter halike]
  cases b <;> rfl

/-! ## Forward -/

/-- The page of fetched rows: those shown, the row that `next` stands after and the row that
`previous` stands before. -/
def sealPage (p : Pager) (order : SortOrder) (shown : List Value) (next previous : Option Value) :
    Result KeysetPage := do
  let next ← p.sealOptional order .after next
  let previous ← p.sealOptional order .before previous
  return ⟨shown, next, previous⟩

theorem result_forwardPage (p : Pager) (rows : List Value) (criteria : Predicate)
    (order : SortOrder) (n : Nat) (from? : Option Position) :
    ((p.onRows rows).forwardPage criteria order n from?).result = (do
      let q ← wanted criteria order from?
      let _ ← q.written
      let found ← Memory.window rows ⟨q, order, n + 1, 0⟩
      p.sealPage order (found.take n) (if n < found.length then (found.take n).getLast? else none)
        (if from?.isSome then (found.take n).head? else none)) := by
  unfold forwardPage
  simp only [Traced.result_bind, Traced.result_liftM, result_fetch_onRows, Int.toNat_natCast,
    Int.ofNat_lt, bind_assoc]
  rfl

/-- The row over and above tells whether a page follows, and is not shown. -/
theorem take_take_succ {α : Type} (items : List α) (n : Nat) :
    (items.take (n + 1)).take n = items.take n ∧ (n < (items.take (n + 1)).length ↔
      n < items.length) := by
  constructor
  · rw [List.take_take, Nat.min_eq_left (Nat.le_succ n)]
  · rw [List.length_take]
    omega

/-- The fetched window of a predicate is sealed as it stands in any arrangement. -/
theorem result_forwardPage_of_arranged (hrows : Listable p.sealer.schema order rows)
    {from? : Option Position} {q : Predicate} (hq : wanted criteria order from? = .ok q)
    (hwritable : q.isWritable = true) (hdecides : q.Decides rows) {arranged : List Value}
    (h : Memory.Arranged order q rows arranged) (n : Nat) :
    ((p.onRows rows).forwardPage criteria order n from?).result =
      p.sealPage order (arranged.take n)
        (if n < arranged.length then (arranged.take n).getLast? else none)
        (if from?.isSome then (arranged.take n).head? else none) := by
  have hwindow := h.window_eq hrows.sortable hrows.distinct hdecides 0 (n + 1)
  obtain ⟨htake, hlength⟩ := take_take_succ arranged n
  rw [result_forwardPage, hq, Result.ok_bind, Predicate.written_of_isWritable hwritable,
    Result.ok_bind]
  change Memory.window rows ⟨q, order, n + 1, 0⟩ = .ok (arranged.take (n + 1)) at hwindow
  rw [hwindow, Result.ok_bind, htake]
  simp only [hlength]

theorem mem_of_next {arranged : List Value} {n : Nat} {r : Value}
    (h : (if n < arranged.length then (arranged.take n).getLast? else none) = some r) :
    r ∈ arranged := by
  split at h
  · exact List.mem_of_mem_take (List.mem_of_getLast? h)
  · exact absurd h (by simp)

/-- What is sealed for rows of keys shows them. -/
theorem shows_of_sealPage {shown : List Value} {next previous : Option Value} {page : KeysetPage}
    (hnext : ∀ r ∈ next, p.sealer.schema.HoldsKeys order.keys r)
    (hprevious : ∀ r ∈ previous, p.sealer.schema.HoldsKeys order.keys r)
    (h : p.sealPage order shown next previous = .ok page) :
    page.Shows p.sealer order shown next previous := by
  rw [sealPage] at h
  obtain ⟨nextCursor, hn, h⟩ := Result.bind_eq_ok.1 h
  obtain ⟨previousCursor, hp, h⟩ := Result.bind_eq_ok.1 h
  obtain rfl := Except.ok.inj h
  exact ⟨rfl, marks_of_sealOptional hnext hn, marks_of_sealOptional hprevious hp⟩

/-- Rows whose key values can be written are sealed. -/
theorem sealPage_ok {shown : List Value} {next previous : Option Value}
    (hnext : ∀ r ∈ next, p.sealer.schema.HoldsKeys order.keys r ∧
      ∀ v ∈ order.valuesOf r, v.IsWritable)
    (hprevious : ∀ r ∈ previous, p.sealer.schema.HoldsKeys order.keys r ∧
      ∀ v ∈ order.valuesOf r, v.IsWritable) :
    ∃ page, p.sealPage order shown next previous = .ok page := by
  obtain ⟨nextCursor, hn, -⟩ := sealOptional_spec (p := p) .after (fun r hr => (hnext r hr).1)
    (fun r hr => (hnext r hr).2)
  obtain ⟨previousCursor, hp, -⟩ := sealOptional_spec (p := p) .before
    (fun r hr => (hprevious r hr).1) (fun r hr => (hprevious r hr).2)
  refine ⟨⟨shown, nextCursor, previousCursor⟩, ?_⟩
  rw [sealPage, hn, Result.ok_bind, hp]
  rfl

/-! ## Rows on a side of key values -/

/-- The rows strictly after key values. -/
def rowsAfter (order : SortOrder) (values arranged : List Value) : List Value :=
  arranged.filter fun row => order.puts values (order.valuesOf row)

/-- The rows strictly before key values. -/
def rowsBefore (order : SortOrder) (values arranged : List Value) : List Value :=
  arranged.filter fun row => order.puts (order.valuesOf row) values

/-- The last items of a list. -/
def ending {α : Type} (items : List α) (n : Nat) : List α :=
  items.drop (items.length - n)

theorem reverse_take_reverse {α : Type} (items : List α) (n : Nat) :
    (items.reverse.take n).reverse = ending items n := by
  rw [List.take_reverse, List.reverse_reverse, ending]

variable {values : List Value}

/-- The rows after key values are read with the normal form of the criteria. -/
theorem arranged_after (hcomparable : Comparable order values rows)
    (hdecides : criteria.normal.Decides rows) {arranged : List Value}
    (h : Memory.Arranged order criteria.normal rows arranged) :
    (Predicate.conjoin [criteria, Keyset.strictlyAfter order values]).Decides rows ∧
      Memory.Arranged order (.conjoin [criteria, Keyset.strictlyAfter order values]) rows
        (rowsAfter order values arranged) := by
  have hholds : ∀ row ∈ rows,
      (Predicate.conjoin [criteria, Keyset.strictlyAfter order values]).holds row =
        .ok (criteria.normal.accepts row && order.puts values (order.valuesOf row)) := by
    intro row hrow
    exact holds_wanted (hcomparable row hrow) (hdecides.holds_eq hrow)
  constructor
  · intro row hrow
    exact ⟨_, hholds row hrow⟩
  · apply h.filter
    intro row hrow
    exact Predicate.accepts_of_holds (hholds row hrow)

/-- So are those before them, under the reversed order. -/
theorem arranged_before (hcomparable : Comparable order values rows)
    (hdecides : criteria.normal.Decides rows) {arranged : List Value}
    (h : Memory.Arranged order criteria.normal rows arranged) :
    (Predicate.conjoin [criteria, Keyset.strictlyAfter order.reversed values]).Decides rows ∧
      Memory.Arranged order.reversed
        (.conjoin [criteria, Keyset.strictlyAfter order.reversed values]) rows
        (rowsBefore order values arranged).reverse := by
  -- the rows before are those after in the opposite order
  have hreversed : Comparable order.reversed values rows := by
    intro row hrow
    rw [SortOrder.valuesOf_reversed]
    exact hcomparable row hrow
  obtain ⟨hq, harranged⟩ := arranged_after hreversed hdecides h.reverse
  refine ⟨hq, ?_⟩
  have hrows : rowsAfter order.reversed values arranged.reverse =
      (rowsBefore order values arranged).reverse := by
    simp only [rowsAfter, rowsBefore, SortOrder.reversed_puts, SortOrder.valuesOf_reversed,
      List.filter_reverse]
  rwa [hrows] at harranged

/-! ## Backward -/

theorem result_backwardPage (p : Pager) (rows : List Value) (criteria : Predicate)
    (order : SortOrder) (n : Nat) (here : Position) :
    ((p.onRows rows).backwardPage criteria order n here).result = (do
      let q ← wanted criteria order.reversed (some here)
      let _ ← q.written
      let found ← Memory.window rows ⟨q, order.reversed, n + 1, 0⟩
      let previous ← p.sealOptional order .before
        (if n < found.length then (found.take n).reverse.head? else none)
      let next ← p.sealOptional order .after (found.take n).reverse.getLast?
      return ⟨(found.take n).reverse, next, previous⟩) := by
  unfold backwardPage
  simp only [Traced.result_bind, Traced.result_liftM, result_fetch_onRows, Int.toNat_natCast,
    Int.ofNat_lt, bind_assoc]
  rfl

/-- A page before key values is sealed as the end of the rows before them. -/
theorem result_backwardPage_of_arranged (hrows : Listable p.sealer.schema order rows)
    (hforeign : criteria.hasForeign = false) (hlength : values.length = order.size)
    (hwritten : Written criteria values) (hcomparable : Comparable order values rows)
    (hdecides : criteria.normal.Decides rows) {arranged : List Value}
    (h : Memory.Arranged order criteria.normal rows arranged) (n : Nat)
    (page : KeysetPage) :
    ((p.onRows rows).backwardPage criteria order n ⟨values, .before⟩).result = .ok page ↔
      p.sealPage order (ending (rowsBefore order values arranged) n)
        (ending (rowsBefore order values arranged) n).getLast?
        (if n < (rowsBefore order values arranged).length then
          (ending (rowsBefore order values arranged) n).head? else none) = .ok page := by
  obtain ⟨hq, harranged⟩ := arranged_before hcomparable hdecides h
  have hwindow := harranged.window_eq hrows.sortable.reversed hrows.distinct.reversed hq 0 (n + 1)
  obtain ⟨htake, hlonger⟩ := take_take_succ (rowsBefore order values arranged).reverse n
  change Memory.window rows ⟨_, order.reversed, n + 1, 0⟩ =
    .ok ((rowsBefore order values arranged).reverse.take (n + 1)) at hwindow
  have hsize : values.length = order.reversed.size := by
    rw [SortOrder.size_reversed, hlength]
  rw [result_backwardPage, wanted_some hforeign hsize, Result.ok_bind,
    Predicate.written_of_isWritable ((isWritable_wanted hsize).2 hwritten), Result.ok_bind, hwindow,
    Result.ok_bind, htake, reverse_take_reverse, sealPage]
  -- the cursors are sealed in the other order than onwards, which changes no page
  simp only [hlonger, List.length_reverse, Result.bind_eq_ok]
  constructor
  · rintro ⟨previous, hprevious, next, hnext, hpage⟩
    exact ⟨next, hnext, previous, hprevious, hpage⟩
  · rintro ⟨next, hnext, previous, hprevious, hpage⟩
    exact ⟨previous, hprevious, next, hnext, hpage⟩

/-! ## Pages -/

theorem result_keysetPage {size : Value} {n : Nat} (hsize : admitSize p.maxPageSize size = .ok n)
    (rows : List Value) (criteria : Predicate) (order : SortOrder) (start : Start) :
    ((p.onRows rows).keysetPage criteria order size start).result = (do
      let from? ← (p.startPosition order start).result
      ((p.onRows rows).pageAt criteria order n from?).result) := by
  have hover : admitSize (p.onRows rows).maxPageSize size = .ok n := hsize
  have hstart : (p.onRows rows).startPosition order start = p.startPosition order start := by
    cases start <;> rfl
  unfold keysetPage
  simp only [Traced.result_bind, Traced.result_liftM, hover, hstart, Result.ok_bind]

/-- An admitted size is the integer that was given, which is positive. -/
theorem eq_of_admitSize {most size : Value} {n : Int} (h : admitSize most size = .ok n) :
    size = .int n ∧ 1 ≤ n := by
  cases size with
  | int i =>
      rw [admitSize] at h
      by_cases hi : i < 1
      · rw [if_pos hi] at h
        exact absurd h (rejectWith_ne_ok _ _)
      · rw [if_neg hi] at h
        obtain ⟨b, -, h⟩ := Result.bind_eq_ok.1 h
        cases b with
        | false => exact absurd h (rejectWith_ne_ok _ _)
        | true =>
            -- the size is the integer itself, and it was refused below one
            obtain rfl : i = n := Except.ok.inj h
            exact ⟨rfl, by omega⟩
  | _ => exact absurd h (rejectWith_ne_ok _ _)

theorem one_le_of_admitSize {most size : Value} {n : Nat} (h : admitSize most size = .ok n) :
    1 ≤ n :=
  Int.ofNat_le.1 (eq_of_admitSize h).2

theorem startPosition_cursor {t : String} {here : Position}
    (h : p.sealer.openText order t = .ok here) :
    (p.startPosition order (.cursor (.text t))).result = .ok (some here) := by
  have hresume : p.sealer.resume order (.text t) = pure here := by
    rw [Sealer.resume, Sealer.openValue, h]
  unfold startPosition
  simp only [hresume, Traced.result_bind, Traced.result_pure, Result.ok_bind]

/-- **The first page** is sealed as the start of the rows that satisfy the criteria. -/
theorem result_firstPage (hrows : Listable p.sealer.schema order rows)
    (hwritable : criteria.isWritable = true) (hdecides : criteria.Decides rows)
    {arranged : List Value} (h : Memory.Arranged order criteria rows arranged) (n : Nat) :
    ((p.onRows rows).pageAt criteria order n none).result =
      p.sealPage order (arranged.take n)
        (if n < arranged.length then (arranged.take n).getLast? else none) none :=
  result_forwardPage_of_arranged hrows rfl hwritable hdecides h n

/-- **A page after key values** is sealed as the start of the rows after them that satisfy the normal
form of the criteria. -/
theorem result_pageAfter (hrows : Listable p.sealer.schema order rows)
    (hforeign : criteria.hasForeign = false) (hlength : values.length = order.size)
    (hwritten : Written criteria values) (hcomparable : Comparable order values rows)
    (hdecides : criteria.normal.Decides rows) {arranged : List Value}
    (h : Memory.Arranged order criteria.normal rows arranged) (n : Nat) :
    ((p.onRows rows).pageAt criteria order n (some ⟨values, .after⟩)).result =
      p.sealPage order ((rowsAfter order values arranged).take n)
        (if n < (rowsAfter order values arranged).length then
          ((rowsAfter order values arranged).take n).getLast? else none)
        ((rowsAfter order values arranged).take n).head? := by
  obtain ⟨hq, harranged⟩ := arranged_after hcomparable hdecides h
  exact result_forwardPage_of_arranged hrows (wanted_some hforeign hlength)
    ((isWritable_wanted hlength).2 hwritten) hq harranged n

/-- **A page before key values** is sealed as the end of the rows before them that satisfy the normal
form of the criteria. -/
theorem result_pageBefore (hrows : Listable p.sealer.schema order rows)
    (hforeign : criteria.hasForeign = false) (hlength : values.length = order.size)
    (hwritten : Written criteria values) (hcomparable : Comparable order values rows)
    (hdecides : criteria.normal.Decides rows) {arranged : List Value}
    (h : Memory.Arranged order criteria.normal rows arranged) (n : Nat)
    (page : KeysetPage) :
    ((p.onRows rows).pageAt criteria order n (some ⟨values, .before⟩)).result = .ok page ↔
      p.sealPage order (ending (rowsBefore order values arranged) n)
        (ending (rowsBefore order values arranged) n).getLast?
        (if n < (rowsBefore order values arranged).length then
          (ending (rowsBefore order values arranged) n).head? else none) = .ok page :=
  result_backwardPage_of_arranged hrows hforeign hlength hwritten hcomparable hdecides h n page

/-- The order in which a page on a side of key values is read. -/
def readingOrder (order : SortOrder) : Side → SortOrder
  | .after => order
  | .before => order.reversed

theorem size_readingOrder (order : SortOrder) (side : Side) :
    (readingOrder order side).size = order.size := by
  cases side with
  | after => rfl
  | before => exact order.size_reversed

/-- A page away from the start writes the predicate of the rows after its key values and then asks for
these rows. -/
theorem result_pageAt_some (p : Pager) (rows : List Value) (hforeign : criteria.hasForeign = false)
    (hlength : values.length = order.size) (n : Nat) (side : Side) {q : Predicate}
    (hq : q = .conjoin [criteria, Keyset.strictlyAfter (readingOrder order side) values]) :
    ∃ rest : List Value → Result KeysetPage,
      ((p.onRows rows).pageAt criteria order n (some ⟨values, side⟩)).result =
        q.written >>= fun _ =>
          Memory.window rows ⟨q, readingOrder order side, n + 1, 0⟩ >>= rest := by
  subst hq
  cases side with
  | after =>
      refine ⟨?onwards, ?read⟩
      case read =>
        change ((p.onRows rows).forwardPage criteria order n (some ⟨values, .after⟩)).result = _
        rw [result_forwardPage, wanted_some hforeign hlength, Result.ok_bind]
        rfl
  | before =>
      refine ⟨?back, ?readBack⟩
      case readBack =>
        have hsize : values.length = order.reversed.size := by
          rw [SortOrder.size_reversed, hlength]
        change ((p.onRows rows).backwardPage criteria order n ⟨values, .before⟩).result = _
        rw [result_backwardPage, wanted_some hforeign hsize, Result.ok_bind]
        rfl

/-- A page away from the start is only read when the criteria and its key values can be written and
the normal form of the criteria is decided. -/
theorem decides_of_pageAt {here : Position} {n : Nat} {page : KeysetPage}
    (hforeign : criteria.hasForeign = false) (hlength : here.values.length = order.size)
    (h : ((p.onRows rows).pageAt criteria order n (some here)).result = .ok page) :
    Written criteria here.values ∧ criteria.normal.Decides rows := by
  obtain ⟨values, side⟩ := here
  obtain ⟨rest, hresult⟩ := result_pageAt_some p rows hforeign hlength n side rfl
  rw [hresult] at h
  obtain ⟨s, hs, h⟩ := Result.bind_eq_ok.1 h
  obtain ⟨found, hfound, -⟩ := Result.bind_eq_ok.1 h
  have hsize := hlength.trans (size_readingOrder order side).symm
  refine ⟨(isWritable_wanted hsize).1 (Predicate.written_eq_ok_iff.1 hs).1, ?_⟩
  -- a memory asks all of its rows before it sorts and cuts
  rw [Memory.window] at hfound
  obtain ⟨matched, hmatched, -⟩ := Result.bind_eq_ok.1 hfound
  -- the criteria come first, so each row is asked their normal form
  intro row hrow
  obtain ⟨b, hb⟩ := Memory.decides_of_matching hmatched row hrow
  rw [Predicate.holds_conjoin, List.map_cons, Predicate.holdsAll] at hb
  obtain ⟨b', hb', -⟩ := Result.bind_eq_ok.1 hb
  exact ⟨b', hb'⟩

/-- Key values or criteria that cannot be written are asked for nothing. -/
theorem pageAt_of_not_written (hforeign : criteria.hasForeign = false)
    (hlength : values.length = order.size) (h : ¬Written criteria values) (n : Nat) (side : Side) :
    ((p.onRows rows).pageAt criteria order n (some ⟨values, side⟩)).result =
      .error .longInteger := by
  obtain ⟨rest, hresult⟩ := result_pageAt_some p rows hforeign hlength n side rfl
  have hlong := mt (isWritable_wanted (hlength.trans (size_readingOrder order side).symm)).1 h
  rw [hresult, Predicate.written_of_not_isWritable (Bool.eq_false_iff.2 hlong)]
  rfl

/-! ## Windows -/

/-- The window of at most `n` arranged rows next to key values, on a side of them. -/
def windowRows (order : SortOrder) (n : Nat) (arranged values : List Value) : Side → List Value
  | .after => (rowsAfter order values arranged).take n
  | .before => ending (rowsBefore order values arranged) n

/-- The row after which the next page goes on. Away from the values there is one when more than `n`
rows lie on their side. -/
def nextRow (order : SortOrder) (n : Nat) (arranged values : List Value) : Side → Option Value
  | .after =>
    if n < (rowsAfter order values arranged).length then
      (windowRows order n arranged values .after).getLast?
    else none
  | .before => (windowRows order n arranged values .before).getLast?

/-- The row before which the previous page ends. -/
def previousRow (order : SortOrder) (n : Nat) (arranged values : List Value) : Side → Option Value
  | .after => (windowRows order n arranged values .after).head?
  | .before =>
    if n < (rowsBefore order values arranged).length then
      (windowRows order n arranged values .before).head?
    else none

/-- The page is the window of at most `n` arranged rows on a side of key values: it shows those rows,
and has a cursor onwards when more than `n` rows lie there and a cursor back when it shows a row. -/
def ShowsWindow (p : Pager) (order : SortOrder) (n : Nat) (arranged values : List Value)
    (side : Side) (page : KeysetPage) : Prop :=
  page.Shows p.sealer order (windowRows order n arranged values side)
    (nextRow order n arranged values side) (previousRow order n arranged values side)

section

variable {n : Nat} {arranged values : List Value} {side : Side} {page : KeysetPage} {r : Value}

theorem mem_of_mem_windowRows (h : r ∈ windowRows order n arranged values side) : r ∈ arranged := by
  cases side with
  | after => exact List.mem_of_mem_filter (List.mem_of_mem_take h)
  | before => exact List.mem_of_mem_filter (List.mem_of_mem_drop h)

theorem holdsKeys_of_mem_windowRows (hrows : Listable p.sealer.schema order rows) {q : Predicate}
    (h : Memory.Arranged order q rows arranged) (hr : r ∈ windowRows order n arranged values side) :
    p.sealer.schema.HoldsKeys order.keys r :=
  hrows.holdsKeys h (mem_of_mem_windowRows hr)

theorem mem_of_nextRow (h : nextRow order n arranged values side = some r) :
    r ∈ windowRows order n arranged values side := by
  cases side with
  | after =>
      rw [nextRow] at h
      split at h
      · exact List.mem_of_getLast? h
      · exact absurd h (by simp)
  | before => exact List.mem_of_getLast? h

theorem mem_of_previousRow (h : previousRow order n arranged values side = some r) :
    r ∈ windowRows order n arranged values side := by
  cases side with
  | after => exact List.mem_of_head? h
  | before =>
      rw [previousRow] at h
      split at h
      · exact List.mem_of_head? h
      · exact absurd h (by simp)

/-- A page at key values is sealed as the window of the rows that satisfy the normal form of the
criteria. -/
theorem result_pageAt_iff (hrows : Listable p.sealer.schema order rows)
    (hforeign : criteria.hasForeign = false) (hlength : values.length = order.size)
    (hwritten : Written criteria values) (hcomparable : Comparable order values rows)
    (hdecides : criteria.normal.Decides rows)
    (h : Memory.Arranged order criteria.normal rows arranged) :
    ((p.onRows rows).pageAt criteria order n (some ⟨values, side⟩)).result = .ok page ↔
      p.sealPage order (windowRows order n arranged values side)
        (nextRow order n arranged values side) (previousRow order n arranged values side) =
          .ok page := by
  cases side with
  | after => rw [result_pageAfter hrows hforeign hlength hwritten hcomparable hdecides h n]; rfl
  | before => exact result_pageBefore hrows hforeign hlength hwritten hcomparable hdecides h n page

/-- **Every page at key values is a window** of the rows that satisfy the normal form. -/
theorem showsWindow_of_pageAt (hrows : Listable p.sealer.schema order rows)
    (hforeign : criteria.hasForeign = false) (hlength : values.length = order.size)
    (hcomparable : Comparable order values rows)
    (h : Memory.Arranged order criteria.normal rows arranged)
    (hpage : ((p.onRows rows).pageAt criteria order n (some ⟨values, side⟩)).result = .ok page) :
    p.ShowsWindow order n arranged values side page := by
  obtain ⟨hwritten, hdecides⟩ := decides_of_pageAt hforeign hlength hpage
  rw [result_pageAt_iff hrows hforeign hlength hwritten hcomparable hdecides h] at hpage
  refine shows_of_sealPage ?_ ?_ hpage
  · intro r hr
    exact holdsKeys_of_mem_windowRows hrows h (mem_of_nextRow hr)
  · intro r hr
    exact holdsKeys_of_mem_windowRows hrows h (mem_of_previousRow hr)

/-- When the key values of its outer rows can be written, there is a page at key values that can be
written themselves. -/
theorem exists_pageAt (hrows : Listable p.sealer.schema order rows)
    (hforeign : criteria.hasForeign = false) (hlength : values.length = order.size)
    (hwritten : Written criteria values) (hcomparable : Comparable order values rows)
    (hdecides : criteria.normal.Decides rows)
    (h : Memory.Arranged order criteria.normal rows arranged)
    (hwritable : ∀ r, nextRow order n arranged values side = some r ∨
      previousRow order n arranged values side = some r → ∀ v ∈ order.valuesOf r, v.IsWritable) :
    ∃ page, ((p.onRows rows).pageAt criteria order n (some ⟨values, side⟩)).result = .ok page := by
  obtain ⟨page, hpage⟩ : ∃ page, p.sealPage order (windowRows order n arranged values side)
      (nextRow order n arranged values side) (previousRow order n arranged values side) =
        .ok page := by
    refine sealPage_ok ?_ ?_
    · intro r hr
      exact ⟨holdsKeys_of_mem_windowRows hrows h (mem_of_nextRow hr), hwritable r (Or.inl hr)⟩
    · intro r hr
      exact ⟨holdsKeys_of_mem_windowRows hrows h (mem_of_previousRow hr), hwritable r (Or.inr hr)⟩
  exact ⟨page, (result_pageAt_iff hrows hforeign hlength hwritten hcomparable hdecides h).2 hpage⟩

end

/-! ## The first page -/

/-- The first page is only read when the criteria can be written. -/
theorem isWritable_of_firstPage {n : Nat} {page : KeysetPage}
    (h : ((p.onRows rows).pageAt criteria order n none).result = .ok page) :
    criteria.isWritable = true := by
  change ((p.onRows rows).forwardPage criteria order n none).result = .ok page at h
  rw [result_forwardPage, wanted, Result.ok_bind] at h
  obtain ⟨s, hs, -⟩ := Result.bind_eq_ok.1 h
  exact (Predicate.written_eq_ok_iff.1 hs).1

/-- **The first page** shows the start of the rows that satisfy the criteria. -/
theorem shows_of_firstPage {n : Nat} {arranged : List Value} {page : KeysetPage}
    (hrows : Listable p.sealer.schema order rows) (hdecides : criteria.Decides rows)
    (h : Memory.Arranged order criteria rows arranged)
    (hpage : ((p.onRows rows).pageAt criteria order n none).result = .ok page) :
    page.Shows p.sealer order (arranged.take n)
      (if n < arranged.length then (arranged.take n).getLast? else none) none := by
  rw [result_firstPage hrows (isWritable_of_firstPage hpage) hdecides h] at hpage
  refine shows_of_sealPage ?_ ?_ hpage
  · intro r hr
    exact hrows.holdsKeys h (mem_of_next hr)
  · intro r hr
    exact absurd hr (by simp)

/-- When the key values of its last row can be written, there is a first page. -/
theorem exists_firstPage {n : Nat} {arranged : List Value}
    (hrows : Listable p.sealer.schema order rows) (hwritable : criteria.isWritable = true)
    (hdecides : criteria.Decides rows)
    (h : Memory.Arranged order criteria rows arranged)
    (hlast : ∀ r, (if n < arranged.length then (arranged.take n).getLast? else none) = some r →
      ∀ v ∈ order.valuesOf r, v.IsWritable) :
    ∃ page, ((p.onRows rows).pageAt criteria order n none).result = .ok page := by
  rw [result_firstPage hrows hwritable hdecides h]
  refine sealPage_ok ?_ ?_
  · intro r hr
    exact ⟨hrows.holdsKeys h (mem_of_next hr), hlast r hr⟩
  · intro r hr
    exact absurd hr (by simp)

/-! ## Answers -/

/-- What the pager answers from a start over a memory of rows. -/
def answer (p : Pager) (criteria : Predicate) (order : SortOrder) (size : Value)
    (rows : List Value) (start : Start) : Result KeysetPage :=
  ((p.onRows rows).keysetPage criteria order size start).result

section

variable {size : Value} {n : Nat}

theorem answer_first (hsize : admitSize p.maxPageSize size = .ok n) :
    p.answer criteria order size rows .first =
      ((p.onRows rows).pageAt criteria order n none).result := by
  rw [answer, result_keysetPage hsize]
  rfl

theorem answer_position (hsize : admitSize p.maxPageSize size = .ok n) (here : Position) :
    p.answer criteria order size rows (.position here) =
      ((p.onRows rows).pageAt criteria order n (some here)).result := by
  rw [answer, result_keysetPage hsize]
  rfl

theorem answer_cursor (hsize : admitSize p.maxPageSize size = .ok n) {t : String} {here : Position}
    (h : p.sealer.openText order t = .ok here) :
    p.answer criteria order size rows (.cursor (.text t)) =
      ((p.onRows rows).pageAt criteria order n (some here)).result := by
  rw [answer, result_keysetPage hsize, startPosition_cursor h, Result.ok_bind]

/-- An answer to a cursor is the page at the position that it is opened as. -/
theorem openText_of_answer (hsize : admitSize p.maxPageSize size = .ok n) {t : String}
    {page : KeysetPage} (h : p.answer criteria order size rows (.cursor (.text t)) = .ok page) :
    ∃ here, p.sealer.openText order t = .ok here ∧
      ((p.onRows rows).pageAt criteria order n (some here)).result = .ok page := by
  cases hopen : p.sealer.openText order t with
  | ok here =>
      rw [answer_cursor hsize hopen] at h
      exact ⟨here, rfl, h⟩
  | error e =>
      rw [answer, result_keysetPage hsize] at h
      obtain ⟨from?, hfrom, -⟩ := Result.bind_eq_ok.1 h
      unfold startPosition at hfrom
      simp only [Traced.result_bind] at hfrom
      obtain ⟨here, hhere, -⟩ := Result.bind_eq_ok.1 hfrom
      rw [Sealer.resume, Sealer.openValue, hopen] at hhere
      -- a cursor that is not opened is refused, and there is no answer
      cases e with
      | flaw f => exact absurd hhere (by simp [Result.ok_bind, reject])
      | fault f => exact absurd hhere (by simp)

end

end Pager

/-! ## Grouped items -/

namespace Grouped

/-- Items in groups, numbered across all of them. -/
def schema : Schema where
  entity := "items"
  fields := [("group", ⟨.text, [.equal], true, false, [], false⟩),
    ("id", ⟨.number, [.equal], true, false, [], false⟩)]
  tieBreaker := "id"
  defaultSort := []

/-- The last group first, in each the least number first. -/
def order : SortOrder :=
  ⟨[⟨"group", .descending⟩, ⟨"id", .ascending⟩], by decide⟩

/-- The row of an item. -/
def row (group : String) (id : Int) : Value :=
  .record [("group", .text group), ("id", .int id)]

/-- A pager of such items. -/
def pager : Pager where
  store := (Memory.ofRows []).store
  sealer := { key := [1], schema := schema, maxLength := .int Sealer.lengthLimit }
  maxPageSize := .int Pager.sizeLimit

/-- A pager that opens cursors of any length. -/
def boundless : Pager :=
  { pager with sealer := { pager.sealer with maxLength := .float (.infinite false) } }

theorem exceeds_boundless (t : String) : boundless.sealer.exceeds t = .ok false :=
  rfl

theorem valuesOf_row (group : String) (id : Int) :
    order.valuesOf (row group id) = [.text group, .int id] :=
  rfl

/-- Items of different numbers can be listed. -/
theorem listable {items : List (String × Int)} (h : (items.map (·.2)).Nodup) :
    Listable schema order (items.map fun (group, id) => row group id) where
  keys := by
    intro r hr
    obtain ⟨⟨group, id⟩, -, rfl⟩ := List.mem_map.1 hr
    intro k hk
    rcases List.mem_cons.1 hk with rfl | hk
    · exact ⟨.text group, rfl, .text group group, _, rfl, rfl⟩
    · obtain rfl := List.mem_singleton.1 hk
      exact ⟨.int id, rfl, .int id id, _, rfl, rfl⟩
  distinct := by
    refine List.pairwise_map.2 ((List.pairwise_map.1 h).imp ?_)
    intro a b hne heq
    exact hne (Value.int.inj heq)

/-- Single digits can be written. -/
theorem writable {items : List (String × Int)} (h : ∀ item ∈ items, item.2.natAbs < 10) :
    Writable order (items.map fun (group, id) => row group id) := by
  intro r hr v hv
  obtain ⟨⟨group, id⟩, hitem, rfl⟩ := List.mem_map.1 hr
  rw [valuesOf_row, List.mem_pair] at hv
  rcases hv with rfl | rfl
  · trivial
  · exact (Value.Alike.int id id).isShowable_iff.1 (Value.isShowable_int (h (group, id) hitem))

/-- Three items in two groups. -/
def three : List Value :=
  [row "a" 2, row "b" 3, row "b" 1]

theorem listable_three : Listable schema order three :=
  @listable [("a", 2), ("b", 3), ("b", 1)] (by decide)

theorem writable_three : Writable order three :=
  @writable [("a", 2), ("b", 3), ("b", 1)] (by decide)

/-- All of them can be asked whether they are a fourth one. -/
theorem decides_three : (Predicate.differ "id" (.int 4)).Decides three := by
  intro r hr
  rcases List.mem_cons.1 hr with rfl | hr
  · exact ⟨true, by cbv⟩
  rcases List.mem_pair.1 hr with rfl | rfl
  · exact ⟨true, by cbv⟩
  · exact ⟨true, by cbv⟩

/-- Two items in one group. -/
def two : List Value :=
  [row "a" 1, row "a" 2]

theorem listable_two : Listable schema order two :=
  @listable [("a", 1), ("a", 2)] (by decide)

theorem writable_two : Writable order two :=
  @writable [("a", 1), ("a", 2)] (by decide)

/-- Everything or the first item: the neutral part is dropped from the normal form. -/
def allOrFirst : Predicate :=
  .any [.always, .equal "id" (.int 1)]

theorem decides_two : allOrFirst.Decides two := by
  intro r hr
  rcases List.mem_pair.1 hr with rfl | rfl
  · exact ⟨true, by cbv⟩
  · exact ⟨true, by cbv⟩

theorem decides_normal_two : allOrFirst.normal.Decides two := by
  intro r hr
  rcases List.mem_pair.1 hr with rfl | rfl
  · exact ⟨true, by cbv⟩
  · exact ⟨false, by cbv⟩

theorem isWritable_allOrFirst : allOrFirst.isWritable = true := by
  rw [allOrFirst, Predicate.isWritable, Predicate.areWritable_iff]
  rintro p hp
  rcases List.mem_pair.1 hp with rfl | rfl
  · rfl
  · exact Value.isShowable_int (by decide)

theorem arranged_two : Memory.Arranged order allOrFirst two two where
  perm := by
    have hfilter : two.filter allOrFirst.accepts = two := by cbv
    rw [hfilter]
  sorted := List.pairwise_pair.2 rfl

/-- The normal form keeps the first item only. -/
theorem arranged_normal_two : Memory.Arranged order allOrFirst.normal two [row "a" 1] where
  perm := by
    have hfilter : two.filter allOrFirst.normal.accepts = [row "a" 1] := by cbv
    rw [hfilter]
  sorted := List.pairwise_singleton _ _

end Grouped

end Listing
