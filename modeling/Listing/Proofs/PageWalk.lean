import Mathlib.Data.List.Basic
import Mathlib.Data.List.Pairwise
import Listing.Proofs.PageWindow

/-!
# Walking through the pages of an unchanged memory

The pages that follow one another from the first one are the consecutive pieces of the matching rows,
and the cursor back from a page leads to the piece before it. Each page of the walk stands at its
place among the pieces (`Pager.StandsAt`), which is what one step of the walk keeps.
-/

set_option autoImplicit false

namespace Listing

/-! ## Neighbours in an arrangement -/

/-- In a sorted list the items behind one and those ahead of it are what comes later and earlier. -/
theorem filter_neighbours {α : Type} (lt : α → α → Bool) {items : List α}
    (hsorted : items.Pairwise fun a b => lt a b)
    (hasymm : ∀ a ∈ items, ∀ b ∈ items, lt a b → ¬lt b a) : ∀ {i : Nat} {r : α},
    items[i]? = some r → items.filter (fun z => lt r z) = items.drop (i + 1) ∧
      items.filter (fun z => lt z r) = items.take i := by
  induction items with
  | nil =>
      intro i r h
      exact absurd h (by simp)
  | cons a items ih =>
      intro i r h
      obtain ⟨hhead, htail⟩ := List.pairwise_cons.1 hsorted
      have hself : ¬lt a a := by
        intro haa
        exact hasymm a (by simp) a (by simp) haa haa
      cases i with
      | zero =>
          -- the first item is put before all others and after none
          obtain rfl : a = r := by simpa using h
          have hbehind : items.filter (fun z => lt a z) = items :=
            List.filter_eq_self.2 hhead
          have hahead : items.filter (fun z => lt z a) = [] := by
            apply List.filter_eq_nil_iff.2
            intro z hz
            exact hasymm a (by simp) z (by simp [hz]) (hhead z hz)
          simp [hself, hbehind, hahead]
      | succ i =>
          rw [List.getElem?_cons_succ] at h
          -- the first item is one of those ahead of `r`
          have hr : r ∈ items := List.mem_of_getElem? h
          have har : lt a r := hhead r hr
          have hra : ¬lt r a := hasymm a (by simp) r (by simp [hr]) har
          obtain ⟨hbehind, hahead⟩ := ih htail (fun b hb c hc =>
            hasymm b (by simp [hb]) c (by simp [hc])) h
          simp [har, hra, hbehind, hahead]

namespace Memory

variable {order : SortOrder} {rows : List Value} {q : Predicate} {arranged : List Value}

theorem Arranged.asymm (hrows : Sortable order.keys rows) (h : Arranged order q rows arranged) :
    ∀ a ∈ arranged, ∀ b ∈ arranged, order.puts (order.valuesOf a) (order.valuesOf b) →
      ¬order.puts (order.valuesOf b) (order.valuesOf a) := by
  intro a ha b hb hab
  exact precedes_asymm (hrows.allAlike (h.mem_iff.1 ha).1 (h.mem_iff.1 hb).1) hab

theorem Arranged.rowsAfter_eq (hrows : Sortable order.keys rows)
    (h : Arranged order q rows arranged) {i : Nat} {r : Value} (hr : arranged[i]? = some r) :
    Pager.rowsAfter order (order.valuesOf r) arranged = arranged.drop (i + 1) :=
  (filter_neighbours (fun a b => order.puts (order.valuesOf a) (order.valuesOf b)) h.sorted
    (h.asymm hrows) hr).1

theorem Arranged.rowsBefore_eq (hrows : Sortable order.keys rows)
    (h : Arranged order q rows arranged) {i : Nat} {r : Value} (hr : arranged[i]? = some r) :
    Pager.rowsBefore order (order.valuesOf r) arranged = arranged.take i :=
  (filter_neighbours (fun a b => order.puts (order.valuesOf a) (order.valuesOf b)) h.sorted
    (h.asymm hrows) hr).2

/-- An arrangement is what lies before one of its rows, the row and what lies behind it. -/
theorem Arranged.eq_around (hrows : Sortable order.keys rows)
    (h : Arranged order q rows arranged) {r : Value} (hr : r ∈ arranged) :
    arranged = Pager.rowsBefore order (order.valuesOf r) arranged ++
      r :: Pager.rowsAfter order (order.valuesOf r) arranged := by
  obtain ⟨i, hi, hget⟩ := List.mem_iff_getElem.1 hr
  have hsome : arranged[i]? = some r := List.getElem?_eq_some_iff.2 ⟨hi, hget⟩
  rw [h.rowsAfter_eq hrows hsome, h.rowsBefore_eq hrows hsome, ← hget,
    ← List.drop_eq_getElem_cons hi, List.take_append_drop]

end Memory

/-! ## Pieces -/

/-- The piece at a place among the consecutive pieces of a length. -/
def piece {α : Type} (n k : Nat) (items : List α) : List α :=
  (items.drop (k * n)).take n

section

variable {α : Type} {items : List α} {n k : Nat}

theorem piece_zero (n : Nat) (items : List α) : piece n 0 items = items.take n := by
  rw [piece, Nat.zero_mul, List.drop_zero]

theorem mem_of_mem_piece {a : α} (h : a ∈ piece n k items) : a ∈ items :=
  List.mem_of_mem_drop (List.mem_of_mem_take h)

theorem head?_piece (hn : 1 ≤ n) : (piece n k items).head? = items[k * n]? := by
  rw [piece, List.head?_take, if_neg (by omega), List.head?_drop]

theorem length_piece (h : (k + 1) * n ≤ items.length) : (piece n k items).length = n := by
  rw [Nat.succ_mul] at h
  rw [piece, List.length_take, List.length_drop]
  omega

theorem getLast?_piece (hn : 1 ≤ n) (h : (k + 1) * n ≤ items.length) :
    (piece n k items).getLast? = items[(k + 1) * n - 1]? := by
  rw [List.getLast?_eq_getElem?, length_piece h, piece, List.getElem?_take, if_pos (by omega),
    List.getElem?_drop]
  congr 1
  rw [Nat.succ_mul]
  omega

theorem piece_ne_nil (hn : 1 ≤ n) (h : k * n < items.length) : piece n k items ≠ [] := by
  intro hnil
  have hlength := congrArg List.length hnil
  rw [piece, List.length_take, List.length_drop, List.length_nil] at hlength
  omega

/-- The last `n` of the items up to the end of a piece are the piece. -/
theorem ending_take (h : (k + 1) * n ≤ items.length) :
    Pager.ending (items.take ((k + 1) * n)) n = piece n k items := by
  rw [Pager.ending, List.length_take, Nat.min_eq_left h, List.drop_take, piece, Nat.succ_mul,
    Nat.add_sub_cancel, Nat.add_sub_cancel_left]

end

namespace Pager

variable {p : Pager} {criteria : Predicate} {order : SortOrder} {size : Value} {n k : Nat}
  {rows arranged : List Value} {page : KeysetPage} {t : String}

/-! ## Standing at a piece -/

/-- The page shows the piece at a place, with a cursor onwards when the rows go on behind it and a
cursor back when it is not the first. -/
def StandsAt (p : Pager) (order : SortOrder) (n : Nat) (arranged : List Value) (k : Nat)
    (page : KeysetPage) : Prop :=
  page.Shows p.sealer order (piece n k arranged)
    (if (k + 1) * n < arranged.length then (piece n k arranged).getLast? else none)
    (if 0 < k then (piece n k arranged).head? else none)

/-- The page shows the piece at a place, as it is reached from the place behind it. -/
def ReturnsTo (p : Pager) (order : SortOrder) (n : Nat) (arranged : List Value) (k : Nat)
    (page : KeysetPage) : Prop :=
  page.Shows p.sealer order (piece n k arranged) (piece n k arranged).getLast?
    (if 0 < k then (piece n k arranged).head? else none)

/-- The rows on either side of each boundary between pieces have key values that can be written. -/
def WritableEdges (order : SortOrder) (n : Nat) (arranged : List Value) : Prop :=
  ∀ k, 0 < k → k * n < arranged.length → ∀ r,
    arranged[k * n - 1]? = some r ∨ arranged[k * n]? = some r → ∀ v ∈ order.valuesOf r, v.IsWritable

/-- The window after the last row of a piece is the next piece. -/
theorem window_after (hn : 1 ≤ n) (hrows : Memory.Sortable order.keys rows) {q : Predicate}
    (h : Memory.Arranged order q rows arranged) (hk : (k + 1) * n < arranged.length) {r : Value}
    (hr : (piece n k arranged).getLast? = some r) :
    windowRows order n arranged (order.valuesOf r) .after = piece n (k + 1) arranged ∧
      nextRow order n arranged (order.valuesOf r) .after =
        (if (k + 1 + 1) * n < arranged.length then (piece n (k + 1) arranged).getLast? else none) ∧
      previousRow order n arranged (order.valuesOf r) .after = (piece n (k + 1) arranged).head? := by
  have hpos : 1 ≤ (k + 1) * n := Nat.mul_pos (Nat.succ_pos k) hn
  rw [getLast?_piece hn (Nat.le_of_lt hk)] at hr
  -- what lies behind the row starts at the next piece
  have hafter := h.rowsAfter_eq hrows hr
  rw [Nat.sub_add_cancel hpos] at hafter
  have hwindow : windowRows order n arranged (order.valuesOf r) .after =
      piece n (k + 1) arranged := by
    rw [windowRows, hafter, piece]
  have hlonger : n < (arranged.drop ((k + 1) * n)).length ↔
      (k + 1 + 1) * n < arranged.length := by
    rw [List.length_drop, Nat.succ_mul (k + 1)]
    omega
  refine ⟨hwindow, ?_, ?_⟩
  · rw [nextRow, hwindow, hafter]
    simp only [hlonger]
  · rw [previousRow, hwindow]

/-- The window before the first row of a piece is the piece before it. -/
theorem window_before (hn : 1 ≤ n) (hrows : Memory.Sortable order.keys rows) {q : Predicate}
    (h : Memory.Arranged order q rows arranged) (hk : (k + 1) * n < arranged.length) {r : Value}
    (hr : (piece n (k + 1) arranged).head? = some r) :
    windowRows order n arranged (order.valuesOf r) .before = piece n k arranged ∧
      nextRow order n arranged (order.valuesOf r) .before = (piece n k arranged).getLast? ∧
      previousRow order n arranged (order.valuesOf r) .before =
        (if 0 < k then (piece n k arranged).head? else none) := by
  rw [head?_piece hn] at hr
  -- what lies ahead of the row ends with the piece before
  have hbefore := h.rowsBefore_eq hrows hr
  have hwindow : windowRows order n arranged (order.valuesOf r) .before = piece n k arranged := by
    rw [windowRows, hbefore, ending_take (Nat.le_of_lt hk)]
  have hlonger : n < (arranged.take ((k + 1) * n)).length ↔ 0 < k := by
    rw [List.length_take, Nat.min_eq_left (Nat.le_of_lt hk), Nat.succ_mul]
    constructor
    · intro hlt
      rcases Nat.eq_zero_or_pos k with rfl | hpos
      · omega
      · exact hpos
    · intro hpos
      have : 1 ≤ k * n := Nat.mul_pos hpos hn
      omega
  refine ⟨hwindow, ?_, ?_⟩
  · rw [nextRow, hwindow]
  · rw [previousRow, hwindow, hbefore]
    simp only [hlonger]

/-! ## One step -/

/-- A page reached from behind stands at its piece like one reached from ahead. -/
theorem ReturnsTo.standsAt (h : p.ReturnsTo order n arranged k page)
    (hk : (k + 1) * n < arranged.length) : p.StandsAt order n arranged k page := by
  rw [StandsAt, if_pos hk]
  exact h

section

variable (hrows : Listable p.sealer.schema order rows) (hforeign : criteria.hasForeign = false)
  (hsize : admitSize p.maxPageSize size = .ok n)
  (h : Memory.Arranged order criteria.normal rows arranged)

include hrows hforeign hsize h

/-- The answer to a cursor of a row is the window on that side of the row. -/
theorem showsWindow_of_answer {side : Side} {r : Value}
    (hr : p.sealer.schema.HoldsKeys order.keys r)
    (hmarks : p.sealer.Marks order side (some r) (some t))
    (hpage : p.answer criteria order size rows (.cursor (.text t)) = .ok page) :
    p.ShowsWindow order n arranged (order.valuesOf r) side page := by
  obtain ⟨here, hopen, hpage⟩ := openText_of_answer hsize hpage
  obtain rfl := hmarks.here_eq hopen
  exact showsWindow_of_pageAt hrows hforeign (order.length_valuesOf r)
    (hrows.comparable hr) h hpage

/-- There is an answer to a cursor of a row that fits, when the outer rows of the window can be
sealed. -/
theorem exists_answer {side : Side} {r : Value} (hr : p.sealer.schema.HoldsKeys order.keys r)
    (hcriteria : criteria.isWritable = true) (hdecides : criteria.normal.Decides rows)
    (hmarks : p.sealer.Marks order side (some r) (some t))
    (hfits : p.sealer.exceeds t = .ok false)
    (hwritable : ∀ o, nextRow order n arranged (order.valuesOf r) side = some o ∨
      previousRow order n arranged (order.valuesOf r) side = some o →
      ∀ v ∈ order.valuesOf o, v.IsWritable) :
    ∃ page, p.answer criteria order size rows (.cursor (.text t)) = .ok page := by
  have hopen := hmarks.2 false hfits
  have hshown := AllAlike.isShowable (hr.allAlike hr) (hmarks.isWritable hr)
  rw [answer_cursor hsize hopen]
  exact exists_pageAt hrows hforeign (order.length_valuesOf r) ⟨hcriteria, hshown⟩
    (hrows.comparable hr) hdecides h hwritable

/-- **One step onwards** leads from a piece to the next one. -/
theorem StandsAt.next {following : KeysetPage} (hstands : p.StandsAt order n arranged k page)
    (hnext : page.next = some t)
    (hpage : p.answer criteria order size rows (.cursor (.text t)) = .ok following) :
    (k + 1) * n < arranged.length ∧ p.StandsAt order n arranged (k + 1) following := by
  have hn := one_le_of_admitSize hsize
  have hmarks := KeysetPage.Shows.next hstands
  rw [hnext] at hmarks
  obtain ⟨r, hr, hmarks⟩ := hmarks.exists_row
  split at hr
  · rename_i hk
    -- the cursor was sealed for the last row of the piece
    have hmem : r ∈ arranged := mem_of_mem_piece (List.mem_of_getLast? hr)
    have hshows := showsWindow_of_answer hrows hforeign hsize h
      (hrows.holdsKeys h hmem) hmarks hpage
    obtain ⟨hwindow, hnextRow, hpreviousRow⟩ := window_after hn hrows.sortable h hk hr
    rw [ShowsWindow, hwindow, hnextRow, hpreviousRow] at hshows
    refine ⟨hk, ?_⟩
    rw [StandsAt, if_pos (Nat.succ_pos k)]
    exact hshows
  · exact absurd hr (by simp)

/-- **One step back** leads from a piece to the one before it. -/
theorem StandsAt.previous {earlier : KeysetPage}
    (hstands : p.StandsAt order n arranged (k + 1) page) (hk : (k + 1) * n < arranged.length)
    (hprevious : page.previous = some t)
    (hpage : p.answer criteria order size rows (.cursor (.text t)) = .ok earlier) :
    p.ReturnsTo order n arranged k earlier := by
  have hn := one_le_of_admitSize hsize
  have hmarks := KeysetPage.Shows.previous hstands
  rw [hprevious, if_pos (Nat.succ_pos k)] at hmarks
  -- the cursor was sealed for the first row of the piece
  obtain ⟨r, hr, hmarks⟩ := hmarks.exists_row
  have hmem : r ∈ arranged := mem_of_mem_piece (List.mem_of_head? hr)
  have hshows := showsWindow_of_answer hrows hforeign hsize h
    (hrows.holdsKeys h hmem) hmarks hpage
  obtain ⟨hwindow, hnextRow, hpreviousRow⟩ := window_before hn hrows.sortable h hk hr
  rwa [ShowsWindow, hwindow, hnextRow, hpreviousRow] at hshows

end

/-- There is a row behind the piece of a page with a cursor onwards. -/
theorem StandsAt.lt_of_next (h : p.StandsAt order n arranged k page) (hnext : page.next = some t) :
    (k + 1) * n < arranged.length := by
  have hmarks := KeysetPage.Shows.next h
  rw [hnext] at hmarks
  obtain ⟨r, hr, -⟩ := hmarks.exists_row
  split at hr
  · assumption
  · exact absurd hr (by simp)

/-- There is none behind the piece of a page without one. -/
theorem StandsAt.le_of_next_eq_none (h : p.StandsAt order n arranged k page) (hn : 1 ≤ n)
    (hnext : page.next = none) : arranged.length ≤ (k + 1) * n := by
  rcases Nat.lt_or_ge ((k + 1) * n) arranged.length with hk | hk
  · have hsome := Sealer.Marks.isSome_eq (KeysetPage.Shows.next h)
    rw [hnext, if_pos hk, getLast?_piece hn (Nat.le_of_lt hk), Option.isSome_none, eq_comm,
      Option.isSome_eq_false_iff, Option.isNone_iff_eq_none, List.getElem?_eq_none_iff] at hsome
    omega
  · exact hk

/-! ## Walks -/

/-- Pages fetched one after another, each from the cursor onwards of the one before, up to one that
has none. -/
inductive Walk (fetch : Start → Result KeysetPage) : Start → List KeysetPage → Prop
  | last {start : Start} {page : KeysetPage} (hpage : fetch start = .ok page)
      (hnext : page.next = none) : Walk fetch start [page]
  | more {start : Start} {page : KeysetPage} {t : String} {pages : List KeysetPage}
      (hpage : fetch start = .ok page) (hnext : page.next = some t)
      (hrest : Walk fetch (.cursor (.text t)) pages) : Walk fetch start (page :: pages)

/-- The starts that can be reached from the first page by the cursors of pages. -/
inductive Reached (fetch : Start → Result KeysetPage) : Start → Prop
  | first : Reached fetch .first
  | next {start : Start} {page : KeysetPage} {t : String} (hstart : Reached fetch start)
      (hpage : fetch start = .ok page) (ht : page.next = some t) :
      Reached fetch (.cursor (.text t))
  | previous {start : Start} {page : KeysetPage} {t : String} (hstart : Reached fetch start)
      (hpage : fetch start = .ok page) (ht : page.previous = some t) :
      Reached fetch (.cursor (.text t))

/-- A walk begins with the page at its start. -/
theorem Walk.head {fetch : Start → Result KeysetPage} {start : Start} {pages : List KeysetPage}
    (hwalk : Walk fetch start pages) :
    ∃ page others, pages = page :: others ∧ fetch start = .ok page := by
  cases hwalk with
  | last hpage _ => exact ⟨_, _, rfl, hpage⟩
  | more hpage _ _ => exact ⟨_, _, rfl, hpage⟩

/-- Every page of a walk is fetched from where its start is reached. -/
theorem Walk.reached {fetch : Start → Result KeysetPage} {start : Start} {pages : List KeysetPage}
    (hwalk : Walk fetch start pages) (hstart : Reached fetch start) :
    ∀ page ∈ pages, ∃ s, Reached fetch s ∧ fetch s = .ok page := by
  induction hwalk with
  | last hpage _ =>
      intro page hmem
      obtain rfl := List.mem_singleton.1 hmem
      exact ⟨_, hstart, hpage⟩
  | more hpage hnext _ ih =>
      intro page hmem
      rcases List.mem_cons.1 hmem with rfl | hmem
      · exact ⟨_, hstart, hpage⟩
      · exact ih (.next hstart hpage hnext) page hmem

section

variable (hrows : Listable p.sealer.schema order rows) (hforeign : criteria.hasForeign = false)
  (hsize : admitSize p.maxPageSize size = .ok n)
  (h : Memory.Arranged order criteria.normal rows arranged)

include hrows hforeign hsize h

/-- **The pages of a walk** stand at consecutive pieces up to the end of the rows. -/
theorem Walk.standsAt {start : Start} {pages : List KeysetPage}
    (hwalk : Walk (p.answer criteria order size rows) start pages) : ∀ {k : Nat},
    (∀ page, p.answer criteria order size rows start = .ok page →
      p.StandsAt order n arranged k page) →
    pages.flatMap (·.rows) = arranged.drop (k * n) ∧
      arranged.length ≤ (k + pages.length) * n ∧ ∀ i page, pages[i]? = some page →
        p.StandsAt order n arranged (k + i) page ∧
          (i + 1 < pages.length → (k + i + 1) * n < arranged.length) := by
  have hn := one_le_of_admitSize hsize
  induction hwalk with
  | @last start page hpage hnext =>
      intro k hstart
      -- the last page has no cursor onwards, so its piece ends the rows
      have hstands := hstart page hpage
      have hend := hstands.le_of_next_eq_none hn hnext
      refine ⟨?_, hend, ?_⟩
      · rw [List.flatMap_singleton, hstands.rows_eq, piece, List.take_of_length_le]
        rw [List.length_drop]
        rw [Nat.succ_mul] at hend
        omega
      · intro i page' hi
        cases i with
        | zero =>
            obtain rfl : page = page' := by simpa using hi
            exact ⟨hstands, fun hlt => absurd hlt (by simp)⟩
        | succ i => exact absurd hi (by simp)
  | @more start page t pages hpage hnext hrest ih =>
      intro k hstart
      -- the page shows its piece, and the walk from the next cursor the pieces behind it
      have hstands := hstart page hpage
      have hk := hstands.lt_of_next hnext
      obtain ⟨hflat, hend, hall⟩ := ih (k := k + 1) fun following hfollowing =>
        (hstands.next hrows hforeign hsize h hnext hfollowing).2
      refine ⟨?_, ?_, ?_⟩
      · rw [List.flatMap_cons, hflat, hstands.rows_eq, piece, Nat.succ_mul, ← List.drop_drop,
          List.take_append_drop]
      · rw [List.length_cons, ← Nat.add_assoc, Nat.add_right_comm]
        exact hend
      · intro i page' hi
        cases i with
        | zero =>
            obtain rfl : page = page' := by simpa using hi
            exact ⟨hstands, fun _ => hk⟩
        | succ i =>
            obtain ⟨hstands', hlt⟩ := hall i page' (by simpa using hi)
            rw [Nat.add_right_comm, Nat.add_assoc] at hstands'
            refine ⟨hstands', ?_⟩
            intro hi'
            have hlt' := hlt (by simpa using hi')
            rwa [Nat.add_right_comm k 1 i] at hlt'

/-- From a page with a cursor onwards that fits, the walk goes on. -/
theorem StandsAt.exists_next (hcriteria : criteria.isWritable = true)
    (hdecides : criteria.normal.Decides rows) (hedges : WritableEdges order n arranged)
    (hstands : p.StandsAt order n arranged k page) (hnext : page.next = some t)
    (hfits : p.sealer.exceeds t = .ok false) :
    ∃ following, p.answer criteria order size rows (.cursor (.text t)) = .ok following := by
  have hn := one_le_of_admitSize hsize
  have hk := hstands.lt_of_next hnext
  have hmarks := KeysetPage.Shows.next hstands
  rw [hnext, if_pos hk] at hmarks
  obtain ⟨r, hr, hmarks⟩ := hmarks.exists_row
  have hmem : r ∈ arranged := mem_of_mem_piece (List.mem_of_getLast? hr)
  apply exists_answer hrows hforeign hsize h (hrows.holdsKeys h hmem) hcriteria hdecides hmarks hfits
  obtain ⟨-, hnextRow, hpreviousRow⟩ := window_after hn hrows.sortable h hk hr
  rw [hnextRow, hpreviousRow]
  intro o ho
  rcases ho with ho | ho
  · split at ho
    · rename_i hk'
      rw [getLast?_piece hn (Nat.le_of_lt hk')] at ho
      exact hedges (k + 1 + 1) (Nat.succ_pos _) hk' o (Or.inl ho)
    · exact absurd ho (by simp)
  · rw [head?_piece hn] at ho
    exact hedges (k + 1) (Nat.succ_pos k) hk o (Or.inr ho)

/-- From a page with a cursor back that fits, the page before is found. -/
theorem StandsAt.exists_previous (hcriteria : criteria.isWritable = true)
    (hdecides : criteria.normal.Decides rows) (hedges : WritableEdges order n arranged)
    (hstands : p.StandsAt order n arranged (k + 1) page) (hk : (k + 1) * n < arranged.length)
    (hprevious : page.previous = some t) (hfits : p.sealer.exceeds t = .ok false) :
    ∃ earlier, p.answer criteria order size rows (.cursor (.text t)) = .ok earlier := by
  have hn := one_le_of_admitSize hsize
  have hmarks := KeysetPage.Shows.previous hstands
  rw [hprevious, if_pos (Nat.succ_pos k)] at hmarks
  obtain ⟨r, hr, hmarks⟩ := hmarks.exists_row
  have hmem : r ∈ arranged := mem_of_mem_piece (List.mem_of_head? hr)
  apply exists_answer hrows hforeign hsize h (hrows.holdsKeys h hmem) hcriteria hdecides hmarks hfits
  obtain ⟨-, hnextRow, hpreviousRow⟩ := window_before hn hrows.sortable h hk hr
  rw [hnextRow, hpreviousRow]
  intro o ho
  rcases ho with ho | ho
  · rw [getLast?_piece hn (Nat.le_of_lt hk)] at ho
    exact hedges (k + 1) (Nat.succ_pos k) hk o (Or.inl ho)
  · split at ho
    · rename_i hpos
      rw [head?_piece hn] at ho
      refine hedges k hpos ?_ o (Or.inr ho)
      rw [Nat.succ_mul] at hk
      omega
    · exact absurd ho (by simp)

/-- The steps left bound the length of the walk, so it ends. -/
theorem exists_walk (hcriteria : criteria.isWritable = true)
    (hdecides : criteria.normal.Decides rows) (hedges : WritableEdges order n arranged)
    (hfits : ∀ t, Reached (p.answer criteria order size rows) (.cursor (.text t)) →
      p.sealer.exceeds t = .ok false) (d : Nat) : ∀ {k : Nat} {start : Start} {page : KeysetPage},
    arranged.length ≤ (k + 1 + d) * n → Reached (p.answer criteria order size rows) start →
    p.answer criteria order size rows start = .ok page → p.StandsAt order n arranged k page →
    ∃ pages, Walk (p.answer criteria order size rows) start pages := by
  induction d with
  | zero =>
      intro k start page hlength _ hpage hstands
      cases hnext : page.next with
      | none => exact ⟨[page], .last hpage hnext⟩
      | some t => exact absurd (hstands.lt_of_next hnext) (Nat.not_lt.2 hlength)
  | succ d ih =>
      intro k start page hlength hstart hpage hstands
      cases hnext : page.next with
      | none => exact ⟨[page], .last hpage hnext⟩
      | some t =>
          have hreached := hstart.next hpage hnext
          obtain ⟨following, hfollowing⟩ := hstands.exists_next hrows hforeign hsize h hcriteria
            hdecides hedges hnext (hfits t hreached)
          obtain ⟨pages, hpages⟩ := ih (by rwa [Nat.add_right_comm (k + 1) 1 d]) hreached hfollowing
            (hstands.next hrows hforeign hsize h hnext hfollowing).2
          exact ⟨page :: pages, .more hpage hnext hpages⟩

end

/-! ## Exhaustive walks -/

/-- From the later of two neighbouring pages the cursor back finds the rows of the earlier one, with
a cursor further back unless that is the first page; and the cursor onwards found there leads to the
rows of the later page again. -/
def LeadsBack (fetch : Start → Result KeysetPage) (k : Nat) (earlier later : KeysetPage) : Prop :=
  ∃ t back, later.previous = some t ∧ fetch (.cursor (.text t)) = .ok back ∧
    back.rows = earlier.rows ∧ (back.previous.isSome ↔ 0 < k) ∧
      ∃ t' again, back.next = some t' ∧ fetch (.cursor (.text t')) = .ok again ∧
        again.rows = later.rows

/-- The pages are a walk from the first page to the end that shows all rows in order, on full pages
up to the last one, and can be walked back. -/
structure Exhausts (fetch : Start → Result KeysetPage) (n : Nat) (arranged : List Value)
    (pages : List KeysetPage) : Prop where
  walk : Walk fetch .first pages
  rows : pages.flatMap (·.rows) = arranged
  full : ∀ page ∈ pages.dropLast, page.rows.length = n
  nonempty : arranged ≠ [] → ∀ page ∈ pages, page.rows ≠ []
  back : ∀ k earlier later, pages[k]? = some earlier → pages[k + 1]? = some later →
    LeadsBack fetch k earlier later

/-- The first page stands at the first piece. -/
theorem standsAt_first (hrows : Listable p.sealer.schema order rows)
    (hdecides : criteria.Decides rows) (hsize : admitSize p.maxPageSize size = .ok n)
    (h : Memory.Arranged order criteria rows arranged)
    (hpage : p.answer criteria order size rows .first = .ok page) :
    p.StandsAt order n arranged 0 page := by
  rw [answer_first hsize] at hpage
  have hshows := shows_of_firstPage hrows hdecides h hpage
  rwa [StandsAt, piece_zero, Nat.zero_add, Nat.one_mul, if_neg (Nat.lt_irrefl 0)]

/-- Rows that fit on one page are exhausted by it. -/
theorem exhausts_of_le (hrows : Listable p.sealer.schema order rows)
    (hcriteria : criteria.isWritable = true) (hdecides : criteria.Decides rows)
    (hsize : admitSize p.maxPageSize size = .ok n)
    (h : Memory.Arranged order criteria rows arranged) (hlength : arranged.length ≤ n) :
    ∃ pages, Exhausts (p.answer criteria order size rows) n arranged pages := by
  obtain ⟨page, hpage⟩ : ∃ page,
      ((p.onRows rows).pageAt criteria order n none).result = .ok page := by
    apply exists_firstPage hrows hcriteria hdecides h
    intro r hr
    rw [if_neg (Nat.not_lt.2 hlength)] at hr
    exact absurd hr (by simp)
  rw [← answer_first hsize] at hpage
  have hstands := standsAt_first hrows hdecides hsize h hpage
  have hrowsEq : page.rows = arranged := by
    rw [hstands.rows_eq, piece_zero, List.take_of_length_le hlength]
  have hnext : page.next = none := by
    cases hnext : page.next with
    | none => rfl
    | some t =>
        have hlt := hstands.lt_of_next hnext
        omega
  refine ⟨[page], .last hpage hnext, ?_, ?_, ?_, ?_⟩
  · rw [List.flatMap_singleton, hrowsEq]
  · intro page' hmem
    exact absurd hmem (by simp)
  · intro hne page' hmem
    obtain rfl := List.mem_singleton.1 hmem
    rwa [hrowsEq]
  · intro k earlier later _ hlater
    exact absurd hlater (by simp)

/-- Neighbouring pages lead back to one another. -/
theorem leadsBack_of_standsAt (hrows : Listable p.sealer.schema order rows)
    (hforeign : criteria.hasForeign = false) (hsize : admitSize p.maxPageSize size = .ok n)
    (h : Memory.Arranged order criteria.normal rows arranged)
    (hcriteria : criteria.isWritable = true) (hdecides : criteria.normal.Decides rows)
    (hedges : WritableEdges order n arranged)
    (hfits : ∀ t, Reached (p.answer criteria order size rows) (.cursor (.text t)) →
      p.sealer.exceeds t = .ok false) {earlier later : KeysetPage}
    (hearlier : p.StandsAt order n arranged k earlier)
    (hlater : p.StandsAt order n arranged (k + 1) later) (hk : (k + 1) * n < arranged.length)
    {start : Start} (hstart : Reached (p.answer criteria order size rows) start)
    (hfetch : p.answer criteria order size rows start = .ok later) :
    LeadsBack (p.answer criteria order size rows) k earlier later := by
  have hn := one_le_of_admitSize hsize
  -- the later page is not the first, so it has a cursor back
  have hmarks := KeysetPage.Shows.previous hlater
  rw [if_pos (Nat.succ_pos k), head?_piece hn, List.getElem?_eq_getElem hk] at hmarks
  obtain ⟨t, ht, -⟩ := hmarks.exists_cursor
  have hreached := hstart.previous hfetch ht
  obtain ⟨back, hback⟩ := hlater.exists_previous hrows hforeign hsize h hcriteria hdecides hedges hk ht
    (hfits t hreached)
  have hreturns := hlater.previous hrows hforeign hsize h hk ht hback
  have hstands := ReturnsTo.standsAt hreturns hk
  have hfurther : back.previous.isSome = true ↔ 0 < k := by
    rw [Sealer.Marks.isSome_eq (KeysetPage.Shows.previous hreturns)]
    split
    · rename_i hpos
      have hlt : k * n < arranged.length := by
        rw [Nat.succ_mul] at hk
        omega
      rw [head?_piece hn, List.getElem?_eq_getElem hlt, Option.isSome_some]
      simpa using hpos
    · rename_i hpos
      simpa using hpos
  -- rows lie behind the earlier piece, so the page found there has a cursor onwards
  have hmarks' := KeysetPage.Shows.next hreturns
  rw [getLast?_piece hn (Nat.le_of_lt hk), List.getElem?_eq_getElem (by omega)] at hmarks'
  obtain ⟨t', ht', -⟩ := hmarks'.exists_cursor
  obtain ⟨again, hagain⟩ := hstands.exists_next hrows hforeign hsize h hcriteria hdecides hedges ht'
    (hfits t' (hreached.next hback ht'))
  refine ⟨t, back, ht, hback, ?_, hfurther, t', again, ht', hagain, ?_⟩
  · rw [hreturns.rows_eq, hearlier.rows_eq]
  · rw [(hstands.next hrows hforeign hsize h ht' hagain).2.rows_eq, hlater.rows_eq]

/-- When nothing is changed by the normal form, the walk exhausts the rows. -/
theorem exhausts_of_arranged_normal (hrows : Listable p.sealer.schema order rows)
    (hforeign : criteria.hasForeign = false) (hcriteria : criteria.isWritable = true)
    (hdecides : criteria.Decides rows) (hsize : admitSize p.maxPageSize size = .ok n)
    (h : Memory.Arranged order criteria rows arranged)
    (hnormalDecides : criteria.normal.Decides rows)
    (hnormal : Memory.Arranged order criteria.normal rows arranged)
    (hedges : WritableEdges order n arranged)
    (hfits : ∀ t, Reached (p.answer criteria order size rows) (.cursor (.text t)) →
      p.sealer.exceeds t = .ok false) :
    ∃ pages, Exhausts (p.answer criteria order size rows) n arranged pages := by
  have hn := one_le_of_admitSize hsize
  obtain ⟨page, hpage⟩ : ∃ page,
      ((p.onRows rows).pageAt criteria order n none).result = .ok page := by
    apply exists_firstPage hrows hcriteria hdecides h
    intro r hr
    split at hr
    · rename_i hlt
      rw [← piece_zero, getLast?_piece hn (by omega)] at hr
      exact hedges 1 Nat.one_pos (by omega) r (Or.inl (by simpa using hr))
    · exact absurd hr (by simp)
  rw [← answer_first hsize] at hpage
  -- there are no more pages than rows
  obtain ⟨pages, hwalk⟩ := exists_walk hrows hforeign hsize hnormal hcriteria hnormalDecides hedges
    hfits arranged.length (k := 0) (by
      calc arranged.length = arranged.length * 1 := (Nat.mul_one _).symm
        _ ≤ (0 + 1 + arranged.length) * n := Nat.mul_le_mul (by omega) hn)
    .first hpage (standsAt_first hrows hdecides hsize h hpage)
  obtain ⟨hflat, hend, hall⟩ := hwalk.standsAt hrows hforeign hsize hnormal (k := 0)
    fun page' hpage' => standsAt_first hrows hdecides hsize h hpage'
  simp only [Nat.zero_add] at hall
  refine ⟨pages, hwalk, by simpa using hflat, ?_, ?_, ?_⟩
  · intro page' hmem
    obtain ⟨i, hi, hget⟩ := List.mem_iff_getElem.1 hmem
    rw [List.getElem_dropLast] at hget
    rw [List.length_dropLast] at hi
    obtain ⟨hstands, hlt⟩ := hall i page' (List.getElem?_eq_some_iff.2 ⟨by omega, hget⟩)
    rw [hstands.rows_eq, length_piece (Nat.le_of_lt (hlt (by omega)))]
  · intro hne page' hmem
    obtain ⟨i, hi, hget⟩ := List.mem_iff_getElem.1 hmem
    obtain ⟨hstands, -⟩ := hall i page' (List.getElem?_eq_some_iff.2 ⟨hi, hget⟩)
    rw [hstands.rows_eq]
    cases i with
    | zero => exact piece_ne_nil hn (by simpa using List.length_pos_iff.2 hne)
    | succ i =>
        obtain ⟨-, hlt⟩ := hall i _ (List.getElem?_eq_some_iff.2 ⟨by omega, rfl⟩)
        exact piece_ne_nil hn (hlt hi)
  · intro k earlier later hearlier hlater
    obtain ⟨hearlierStands, hlt⟩ := hall k earlier hearlier
    obtain ⟨hlaterStands, -⟩ := hall (k + 1) later hlater
    have hk := hlt (List.getElem?_eq_some_iff.1 hlater).1
    obtain ⟨start, hstart, hfetch⟩ := hwalk.reached .first later (List.mem_of_getElem? hlater)
    exact leadsBack_of_standsAt hrows hforeign hsize hnormal hcriteria hnormalDecides hedges
      hfits hearlierStands hlaterStands hk hstart hfetch

/-! ## What an exhaustive walk shows -/

/-- Behind a later row lie those of the rows behind an earlier one that lie behind it. -/
theorem rowsAfter_rowsAfter {q : Predicate} (hrows : Memory.Sortable order.keys rows)
    (h : Memory.Arranged order q rows arranged) {r r' : Value} (hr : r ∈ rows)
    (hr' : r' ∈ rowsAfter order (order.valuesOf r) arranged) :
    rowsAfter order (order.valuesOf r') arranged =
      rowsAfter order (order.valuesOf r') (rowsAfter order (order.valuesOf r) arranged) := by
  obtain ⟨hmem, hput⟩ := List.mem_filter.1 hr'
  rw [rowsAfter, rowsAfter, rowsAfter, List.filter_filter]
  apply List.filter_congr
  intro z hz
  have hz := (h.mem_iff.1 hz).1
  have hmem := (h.mem_iff.1 hmem).1
  rw [Bool.eq_iff_iff, Bool.and_eq_true]
  constructor
  · intro hlater
    exact ⟨hlater, precedes_trans order.keys (hrows.allAlike hr hmem) (hrows.allAlike hmem hz) hput
      hlater⟩
  · exact And.left

/-- Arrangements that have the same rows behind one row, and the same rows ahead of a row there, are
the same. -/
theorem eq_of_rowsAfter_of_rowsBefore {q q' : Predicate} {found : List Value}
    (hrows : Memory.Sortable order.keys rows) (h : Memory.Arranged order q rows arranged)
    (h' : Memory.Arranged order q' rows found) {r f : Value} (hr : r ∈ rows)
    (hf : f ∈ rowsAfter order (order.valuesOf r) arranged)
    (hafter : rowsAfter order (order.valuesOf r) found =
      rowsAfter order (order.valuesOf r) arranged)
    (hbefore : rowsBefore order (order.valuesOf f) found =
      rowsBefore order (order.valuesOf f) arranged) : found = arranged := by
  have hf' := hf
  rw [← hafter] at hf'
  have hfurther : rowsAfter order (order.valuesOf f) found =
      rowsAfter order (order.valuesOf f) arranged := by
    rw [rowsAfter_rowsAfter hrows h' hr hf', hafter]
    exact (rowsAfter_rowsAfter hrows h hr hf).symm
  rw [h'.eq_around hrows (List.mem_of_mem_filter hf'), hbefore, hfurther]
  exact (h.eq_around hrows (List.mem_of_mem_filter hf)).symm

/-- Behind the last row of a full window lie the rows behind it that are not in the window. -/
theorem rowsAfter_last {q : Predicate} (hrows : Memory.Sortable order.keys rows)
    (h : Memory.Arranged order q rows arranged) (hn : 1 ≤ n) {values : List Value} {r : Value}
    (hr : nextRow order n arranged values .after = some r) :
    rowsAfter order (order.valuesOf r) (rowsAfter order values arranged) =
      (rowsAfter order values arranged).drop n := by
  rw [nextRow, windowRows] at hr
  split at hr
  · rename_i hlonger
    have hget : (rowsAfter order values arranged)[n - 1]? = some r := by
      rw [List.getLast?_take, if_neg (by omega)] at hr
      rw [List.getElem?_eq_getElem (by omega)] at hr ⊢
      exact hr
    -- the row is the last of the window, so what lies behind it is what the window left
    have hneighbours := filter_neighbours
      (fun a b => order.puts (order.valuesOf a) (order.valuesOf b))
      (List.Pairwise.filter _ h.sorted) (fun a ha b hb =>
        h.asymm hrows a (List.mem_of_mem_filter ha) b (List.mem_of_mem_filter hb)) hget
    rw [Nat.sub_add_cancel hn] at hneighbours
    exact hneighbours.1
  · exact absurd hr (by simp)

/-- A page after key values that has no cursor onwards shows all rows after them. -/
theorem ShowsWindow.rowsAfter_eq {values : List Value} (hn : 1 ≤ n)
    (h : p.ShowsWindow order n arranged values .after page) (hnext : page.next = none) :
    page.rows = rowsAfter order values arranged := by
  have hmarks := KeysetPage.Shows.next h
  rw [hnext] at hmarks
  exact (KeysetPage.Shows.rows_eq h).trans (Sealer.Marks.take_eq_of_none hn hmarks)

/-- A page before key values that has no cursor further back shows all rows before them. -/
theorem ShowsWindow.rowsBefore_eq {values : List Value} (hn : 1 ≤ n)
    (h : p.ShowsWindow order n arranged values .before page) (hprevious : ¬page.previous.isSome) :
    page.rows = rowsBefore order values arranged := by
  have hshort : ¬n < (rowsBefore order values arranged).length := by
    intro hlonger
    have hsome := Sealer.Marks.isSome_eq (KeysetPage.Shows.previous h)
    rw [previousRow, if_pos hlonger, windowRows, ending, List.head?_drop,
      List.getElem?_eq_getElem (by omega), Option.isSome_some] at hsome
    exact hprevious hsome
  rw [KeysetPage.Shows.rows_eq h, windowRows, ending, Nat.sub_eq_zero_of_le (Nat.not_lt.1 hshort),
    List.drop_zero]

/-- A walk from the cursor of a row shows the rows behind it that satisfy the normal form. -/
theorem Walk.flatMap_rows (hrows : Listable p.sealer.schema order rows)
    (hforeign : criteria.hasForeign = false) (hsize : admitSize p.maxPageSize size = .ok n)
    (h : Memory.Arranged order criteria.normal rows arranged) {start : Start}
    {pages : List KeysetPage} (hwalk : Walk (p.answer criteria order size rows) start pages) :
    ∀ {r : Value} {t : String}, start = .cursor (.text t) → r ∈ rows →
      p.sealer.Marks order .after (some r) (some t) →
      pages.flatMap (·.rows) = rowsAfter order (order.valuesOf r) arranged := by
  have hn := one_le_of_admitSize hsize
  induction hwalk with
  | @last start page hpage hnext =>
      intro r t hstart hr hmarks
      subst hstart
      have hwindow := showsWindow_of_answer hrows hforeign hsize h (hrows.keys r hr) hmarks hpage
      rw [List.flatMap_singleton]
      exact hwindow.rowsAfter_eq hn hnext
  | @more start page t' pages hpage hnext hrest ih =>
      intro r t hstart hr hmarks
      subst hstart
      -- the window ends in the next cursor, and the walk from there shows the rest
      have hwindow := showsWindow_of_answer hrows hforeign hsize h (hrows.keys r hr) hmarks hpage
      have hmarks' := KeysetPage.Shows.next hwindow
      rw [hnext] at hmarks'
      obtain ⟨r', hr', hmarks'⟩ := hmarks'.exists_row
      have hmem := List.mem_of_mem_take (mem_of_nextRow hr')
      have hmemRows := (h.mem_iff.1 (List.mem_of_mem_filter hmem)).1
      rw [List.flatMap_cons, ih rfl hmemRows hmarks', KeysetPage.Shows.rows_eq hwindow,
        rowsAfter_rowsAfter hrows.sortable h hr hmem, rowsAfter_last hrows.sortable h hn hr',
        windowRows, List.take_append_drop]

/-- If a first page and the walk from its cursor show the rows, then the normal form arranges what lies
behind the page like the criteria. -/
theorem Walk.rowsAfter_eq (hrows : Listable p.sealer.schema order rows)
    (hforeign : criteria.hasForeign = false) (hsize : admitSize p.maxPageSize size = .ok n)
    (h : Memory.Arranged order criteria rows arranged) {found : List Value}
    (hfound : Memory.Arranged order criteria.normal rows found) {r : Value} {t : String}
    {pages : List KeysetPage} (hr : arranged[n - 1]? = some r)
    (hmarks : p.sealer.Marks order .after (some r) (some t))
    (hwalk : Walk (p.answer criteria order size rows) (.cursor (.text t)) pages)
    (hall : arranged.take n ++ pages.flatMap (·.rows) = arranged) :
    rowsAfter order (order.valuesOf r) found = rowsAfter order (order.valuesOf r) arranged := by
  have hn := one_le_of_admitSize hsize
  have hmem := (h.mem_iff.1 (List.mem_of_getElem? hr)).1
  rw [hwalk.flatMap_rows hrows hforeign hsize hfound rfl hmem hmarks] at hall
  rw [h.rowsAfter_eq hrows.sortable hr, Nat.sub_add_cancel hn]
  exact List.append_cancel_left (hall.trans (List.take_append_drop n arranged).symm)

/-- If the page back from the second page shows the first one and is itself the first, then both
arrange what lies ahead of the second page alike. -/
theorem ShowsWindow.rowsBefore_eq_of_first (hrows : Listable p.sealer.schema order rows)
    (hn : 1 ≤ n) (h : Memory.Arranged order criteria rows arranged) {found : List Value} {f : Value}
    (hf : arranged[n]? = some f)
    (hback : p.ShowsWindow order n found (order.valuesOf f) .before page)
    (hprevious : ¬page.previous.isSome) (hsame : page.rows = arranged.take n) :
    rowsBefore order (order.valuesOf f) found = rowsBefore order (order.valuesOf f) arranged := by
  rw [h.rowsBefore_eq hrows.sortable hf, ← hsame]
  exact (hback.rowsBefore_eq hn hprevious).symm

/-- An exhaustive walk over more than one page shows that the rows are arranged by the normal form as
well: what lies behind the first page and what the way back to it finds are the same rows. -/
theorem Exhausts.arranged_normal (hrows : Listable p.sealer.schema order rows)
    (hforeign : criteria.hasForeign = false) (hdecides : criteria.Decides rows)
    (hsize : admitSize p.maxPageSize size = .ok n)
    (h : Memory.Arranged order criteria rows arranged) (hlength : n < arranged.length)
    {pages : List KeysetPage}
    (hexhausts : Exhausts (p.answer criteria order size rows) n arranged pages) :
    criteria.normal.Decides rows ∧ Memory.Arranged order criteria.normal rows arranged := by
  have hn := one_le_of_admitSize hsize
  obtain ⟨hwalk, hall, -, -, hback⟩ := hexhausts
  cases hwalk with
  | last hpage hnext =>
      have hle := (standsAt_first hrows hdecides hsize h hpage).le_of_next_eq_none hn hnext
      omega
  | @more _ earlier t pages hpage hnext hrest =>
      have hstands := standsAt_first hrows hdecides hsize h hpage
      have hshown : earlier.rows = arranged.take n := by
        rw [hstands.rows_eq, piece_zero]
      -- the last row of the first page, and the page from its cursor
      have hr : (piece n 0 arranged).getLast? = some (arranged.get ⟨n - 1, by omega⟩) := by
        rw [getLast?_piece hn (by omega), Nat.zero_add, Nat.one_mul]
        exact List.getElem?_eq_getElem (by omega)
      have hmarks := KeysetPage.Shows.next hstands
      rw [hnext, if_pos (by omega), hr] at hmarks
      rw [getLast?_piece hn (by omega), Nat.zero_add, Nat.one_mul] at hr
      generalize arranged.get ⟨n - 1, by omega⟩ = r at hr hmarks
      have hrRows := (h.mem_iff.1 (List.mem_of_getElem? hr)).1
      obtain ⟨later, others, rfl, hlater⟩ := hrest.head
      obtain ⟨here, hopen, hat⟩ := openText_of_answer hsize hlater
      obtain rfl := hmarks.here_eq hopen
      obtain ⟨-, hnormalDecides⟩ := decides_of_pageAt hforeign (order.length_valuesOf r) hat
      obtain ⟨found, hfound, -⟩ :=
        Memory.window_spec hrows.sortable hrows.distinct hnormalDecides
      -- behind the first page both arrangements are the same
      rw [List.flatMap_cons, hshown] at hall
      have hbehind := hrest.rowsAfter_eq hrows hforeign hsize h hfound hr hmarks hall
      -- the first row of the second page, and the page back from its cursor
      have hf : arranged[n]? = some (arranged.get ⟨n, hlength⟩) :=
        List.getElem?_eq_getElem hlength
      have hfirst : (rowsAfter order (order.valuesOf r) found).head? =
          some (arranged.get ⟨n, hlength⟩) := by
        rw [hbehind, h.rowsAfter_eq hrows.sortable hr, Nat.sub_add_cancel hn, List.head?_drop, hf]
      generalize arranged.get ⟨n, hlength⟩ = f at hf hfirst
      have hfArranged : f ∈ arranged := List.mem_of_getElem? hf
      have hfBehind : f ∈ rowsAfter order (order.valuesOf r) found := List.mem_of_head? hfirst
      have hfKeys := hrows.holdsKeys h hfArranged
      have hwindow := showsWindow_of_answer hrows hforeign hsize hfound (hrows.keys r hrRows) hmarks
        hlater
      obtain ⟨t', back, ht', hfetch, hsame, hprevious, -⟩ := hback 0 earlier later rfl rfl
      have hmarks' := KeysetPage.Shows.previous hwindow
      rw [ht', previousRow, windowRows, List.head?_take, if_neg (by omega), hfirst] at hmarks'
      have hreturn := showsWindow_of_answer hrows hforeign hsize hfound hfKeys hmarks' hfetch
      -- ahead of the second page both arrangements are the same
      have hahead := hreturn.rowsBefore_eq_of_first hrows hn h hf
        (fun hsome => absurd (hprevious.1 hsome) (Nat.lt_irrefl 0)) (hsame.trans hshown)
      rw [hbehind] at hfBehind
      have heq : found = arranged :=
        eq_of_rowsAfter_of_rowsBefore hrows.sortable h hfound hrRows hfBehind hbehind hahead
      exact ⟨hnormalDecides, heq ▸ hfound⟩

/-- The pages of a walk were sealed, so the rows at their boundaries can be. -/
theorem writableEdges_of_walk (hrows : Listable p.sealer.schema order rows)
    (hforeign : criteria.hasForeign = false) (hdecides : criteria.Decides rows)
    (hsize : admitSize p.maxPageSize size = .ok n)
    (h : Memory.Arranged order criteria rows arranged)
    (hnormal : Memory.Arranged order criteria.normal rows arranged) {pages : List KeysetPage}
    (hwalk : Walk (p.answer criteria order size rows) .first pages) :
    WritableEdges order n arranged := by
  have hn := one_le_of_admitSize hsize
  obtain ⟨-, hend, hall⟩ := hwalk.standsAt hrows hforeign hsize hnormal (k := 0)
    fun page hpage => standsAt_first hrows hdecides hsize h hpage
  rw [Nat.zero_add] at hend
  intro k hpos hk r hr
  -- the pages cover all rows, so there is one on either side of the boundary
  have hlt : k < pages.length := Nat.lt_of_mul_lt_mul_right (Nat.lt_of_lt_of_le hk hend)
  obtain ⟨k, rfl⟩ : ∃ j, k = j + 1 := ⟨k - 1, by omega⟩
  rcases hr with hr | hr
  · obtain ⟨hstands, -⟩ := hall k _ (List.getElem?_eq_getElem (by omega))
    rw [Nat.zero_add] at hstands
    have hmarks := KeysetPage.Shows.next hstands
    rw [if_pos hk, getLast?_piece hn (Nat.le_of_lt hk), hr] at hmarks
    exact hmarks.isWritable (hrows.holdsKeys h (List.mem_of_getElem? hr))
  · obtain ⟨hstands, -⟩ := hall (k + 1) _ (List.getElem?_eq_getElem hlt)
    rw [Nat.zero_add] at hstands
    have hmarks := KeysetPage.Shows.previous hstands
    rw [if_pos hpos, head?_piece hn, hr] at hmarks
    exact hmarks.isWritable (hrows.holdsKeys h (List.mem_of_getElem? hr))

/-- A walk starts with the first page, so its criteria were written. -/
theorem isWritable_of_walk (hsize : admitSize p.maxPageSize size = .ok n) {pages : List KeysetPage}
    (hwalk : Walk (p.answer criteria order size rows) .first pages) :
    criteria.isWritable = true := by
  obtain ⟨page, -, -, hpage⟩ := hwalk.head
  rw [answer_first hsize] at hpage
  exact isWritable_of_firstPage hpage

/-- **The exhaustive walk.** For rows with keys, criteria that raise no fault, an admitted size and
cursors that fit, there is a walk through the pages that exhausts the matching rows, forwards and
back, exactly when the criteria can be written and either these fit on one page, or the normal form
of the criteria agrees with the criteria on every row and the key values at the boundaries between
pages can be written. -/
theorem exists_exhausts_iff (hrows : Listable p.sealer.schema order rows)
    (hforeign : criteria.hasForeign = false) (hdecides : criteria.Decides rows)
    (hsize : admitSize p.maxPageSize size = .ok n)
    (hfits : ∀ t, Reached (p.answer criteria order size rows) (.cursor (.text t)) →
      p.sealer.exceeds t = .ok false) :
    ∃ arranged, Memory.Arranged order criteria rows arranged ∧
      ((∃ pages, Exhausts (p.answer criteria order size rows) n arranged pages) ↔
        criteria.isWritable = true ∧ (arranged.length ≤ n ∨
          Agree criteria.normal criteria rows ∧ WritableEdges order n arranged)) := by
  obtain ⟨arranged, harranged, -⟩ := Memory.window_spec hrows.sortable hrows.distinct hdecides
  refine ⟨arranged, harranged, ?_⟩
  constructor
  · rintro ⟨pages, hexhausts⟩
    refine ⟨isWritable_of_walk hsize hexhausts.walk, ?_⟩
    rcases Nat.lt_or_ge n arranged.length with hlength | hlength
    · obtain ⟨hnormalDecides, hnormal⟩ :=
        hexhausts.arranged_normal hrows hforeign hdecides hsize harranged hlength
      refine Or.inr ⟨?_, ?_⟩
      · apply agree_of_accepts hnormalDecides hdecides
        intro row hrow
        rw [Bool.eq_iff_iff]
        exact ⟨fun hq => (harranged.mem_iff.1 (hnormal.mem_iff.2 ⟨hrow, hq⟩)).2,
          fun hq => (hnormal.mem_iff.1 (harranged.mem_iff.2 ⟨hrow, hq⟩)).2⟩
      · exact writableEdges_of_walk hrows hforeign hdecides hsize harranged hnormal hexhausts.walk
    · exact Or.inl hlength
  · rintro ⟨hcriteria, hlength | ⟨hagree, hedges⟩⟩
    · exact exhausts_of_le hrows hcriteria hdecides hsize harranged hlength
    · exact exhausts_of_arranged_normal hrows hforeign hcriteria hdecides hsize harranged
        (hagree.decides hdecides) (hagree.arranged harranged) hedges hfits

/-- Three items, all but a fourth one asked for, two on a page. -/
theorem exists_exhausts_grouped :
    Listable Grouped.schema Grouped.order Grouped.three ∧
      (Predicate.differ "id" (.int 4)).hasForeign = false ∧
      (Predicate.differ "id" (.int 4)).Decides Grouped.three ∧
      admitSize Grouped.boundless.maxPageSize (.int 2) = .ok 2 ∧
      (∀ t, Reached (Grouped.boundless.answer (.differ "id" (.int 4)) Grouped.order (.int 2)
        Grouped.three) (.cursor (.text t)) → Grouped.boundless.sealer.exceeds t = .ok false) ∧
      ∃ arranged, Memory.Arranged Grouped.order (.differ "id" (.int 4)) Grouped.three arranged ∧
        ((∃ pages, Exhausts (Grouped.boundless.answer (.differ "id" (.int 4)) Grouped.order (.int 2)
            Grouped.three) 2 arranged pages) ↔
          (Predicate.differ "id" (.int 4)).isWritable = true ∧ (arranged.length ≤ 2 ∨
            Agree (Predicate.differ "id" (.int 4)).normal (.differ "id" (.int 4)) Grouped.three ∧
              WritableEdges Grouped.order 2 arranged)) := by
  have hfits : ∀ t, Reached (Grouped.boundless.answer (.differ "id" (.int 4)) Grouped.order (.int 2)
      Grouped.three) (.cursor (.text t)) → Grouped.boundless.sealer.exceeds t = .ok false :=
    fun t _ => Grouped.exceeds_boundless t
  refine ⟨Grouped.listable_three, rfl, Grouped.decides_three, rfl, hfits, ?_⟩
  exact exists_exhausts_iff Grouped.listable_three rfl Grouped.decides_three rfl hfits

/-- **A walk that does not exhaust.** Both items are matched by everything or the first item; no walk
over pages of one item shows both. -/
theorem exists_exhausts_fails :
    Listable Grouped.schema Grouped.order Grouped.two ∧
      Grouped.allOrFirst.hasForeign = false ∧ Grouped.allOrFirst.Decides Grouped.two ∧
      Writable Grouped.order Grouped.two ∧
      admitSize Grouped.boundless.maxPageSize (.int 1) = .ok 1 ∧
      (∀ t, Grouped.boundless.sealer.exceeds t = .ok false) ∧
      Memory.Arranged Grouped.order Grouped.allOrFirst Grouped.two Grouped.two ∧
      ¬∃ pages, Exhausts (Grouped.boundless.answer Grouped.allOrFirst Grouped.order (.int 1)
        Grouped.two) 1 Grouped.two pages := by
  refine ⟨Grouped.listable_two, rfl, Grouped.decides_two, Grouped.writable_two, rfl,
    Grouped.exceeds_boundless, Grouped.arranged_two, ?_⟩
  rintro ⟨pages, hexhausts⟩
  obtain ⟨-, hnormal⟩ := hexhausts.arranged_normal Grouped.listable_two rfl Grouped.decides_two rfl
    Grouped.arranged_two (by decide)
  have heq := hnormal.unique Grouped.listable_two.sortable Grouped.arranged_normal_two
  exact absurd (congrArg List.length heq) (by decide)

end Pager

end Listing
