import Mathlib.Data.List.Basic
import Mathlib.Data.List.Pairwise
import Listing.Proofs.PageWalk

/-!
# Pages of a changing memory

Rows come and go between the fetches of one page and the next. A cursor carries the key values of the
last row shown and nothing else, so a page goes on behind that row whatever the memory holds by then.
What carries a session from page to page is that the normal form of the criteria, which every page
after the first one asks for, is settled behind that row (`Pager.Settles`).
-/

set_option autoImplicit false

namespace Listing

namespace Pager

/-! ## Sessions -/

/-- A page, with the rows that the memory held when it was fetched. -/
structure Fetched where
  rows : List Value
  page : KeysetPage

/-- Pages fetched one after another, each from the cursor onwards of the one before and over the rows
of its own moment. -/
inductive Session (fetch : List Value → Start → Result KeysetPage) : Start → List Fetched → Prop
  | one {start : Start} {rows : List Value} {page : KeysetPage}
      (hpage : fetch rows start = .ok page) : Session fetch start [⟨rows, page⟩]
  | more {start : Start} {rows : List Value} {page : KeysetPage} {t : String}
      {steps : List Fetched} (hpage : fetch rows start = .ok page) (hnext : page.next = some t)
      (hrest : Session fetch (.cursor (.text t)) steps) :
      Session fetch start (⟨rows, page⟩ :: steps)

/-- The rows on all pages, in the order of the pages. -/
def shown (steps : List Fetched) : List Value :=
  steps.flatMap (·.page.rows)

/-- The rows are among the possible ones, and no two of them agree in the last key. -/
def Drawn (order : SortOrder) (possible : Value → Prop) (rows : List Value) : Prop :=
  (∀ row ∈ rows, possible row) ∧ Memory.Distinct order rows

/-- The pages show rows in increasing order, each held by the memory at the time and matching; and
when the last page is the end, they show each matching row that the memory held all the time. -/
structure Faithful (order : SortOrder) (criteria : Predicate) (steps : List Fetched) : Prop where
  increasing : (shown steps).Pairwise fun a b => order.puts (order.valuesOf a) (order.valuesOf b)
  sound : ∀ step ∈ steps, ∀ row ∈ step.page.rows, row ∈ step.rows ∧ criteria.holds row = .ok true
  complete : ∀ last, steps.getLast? = some last → last.page.next = none → ∀ row,
    (∀ step ∈ steps, row ∈ step.rows) → criteria.holds row = .ok true → row ∈ shown steps

/-- Over any rows among the possible ones there is a first page, there is a page for each cursor
onwards that fits, and every session is faithful. -/
structure Dependable (p : Pager) (criteria : Predicate) (order : SortOrder) (size : Value)
    (possible : Value → Prop) : Prop where
  first : ∀ rows, Drawn order possible rows →
    ∃ page, p.answer criteria order size rows .first = .ok page
  next : ∀ steps, Session (p.answer criteria order size) .first steps →
    (∀ step ∈ steps, Drawn order possible step.rows) → ∀ last t, steps.getLast? = some last →
    last.page.next = some t → p.sealer.exceeds t = .ok false → ∀ rows, Drawn order possible rows →
    ∃ page, p.answer criteria order size rows (.cursor (.text t)) = .ok page
  faithful : ∀ steps, Session (p.answer criteria order size) .first steps →
    (∀ step ∈ steps, Drawn order possible step.rows) → Faithful order criteria steps

/-- Behind a row the normal form of the criteria accepts matching rows only, whose key values can be
written, and it raises no fault anywhere. -/
structure Settles (criteria : Predicate) (order : SortOrder) (possible : Value → Prop)
    (c : Value) : Prop where
  decides : ∀ row, possible row → ∃ b, criteria.normal.holds row = .ok b
  sound : ∀ row, possible row → order.puts (order.valuesOf c) (order.valuesOf row) →
    criteria.normal.holds row = .ok true →
    criteria.holds row = .ok true ∧ ∀ v ∈ order.valuesOf row, v.IsWritable

/-- Where a first page does not show all matching rows, the key values of its last row can be
written; and if its cursor fits, the normal form is settled behind that row and accepts the matching
rows there. -/
def Steady (p : Pager) (criteria : Predicate) (order : SortOrder) (n : Nat)
    (possible : Value → Prop) : Prop :=
  ∀ rows arranged c, Drawn order possible rows → Memory.Arranged order criteria rows arranged →
    n < arranged.length → (arranged.take n).getLast? = some c →
    (∀ v ∈ order.valuesOf c, v.IsWritable) ∧
      ∀ t, p.sealer.sealRow order c .after = .ok t → p.sealer.exceeds t = .ok false →
        Settles criteria order possible c ∧ ∀ row ∈ rows,
          order.puts (order.valuesOf c) (order.valuesOf row) →
          criteria.holds row = .ok true → criteria.normal.holds row = .ok true

theorem shown_cons (step : Fetched) (steps : List Fetched) :
    shown (step :: steps) = step.page.rows ++ shown steps :=
  List.flatMap_cons

theorem shown_singleton (step : Fetched) : shown [step] = step.page.rows :=
  List.flatMap_singleton _ _

variable {p : Pager} {criteria : Predicate} {order : SortOrder} {size : Value} {n : Nat}
  {possible : Value → Prop} {rows : List Value} {page : KeysetPage} {c : Value} {t : String}
  {steps : List Fetched}

theorem Drawn.listable (h : Drawn order possible rows)
    (hkeys : ∀ row, possible row → p.sealer.schema.HoldsKeys order.keys row) :
    Listable p.sealer.schema order rows :=
  ⟨fun row hrow => hkeys row (h.1 row hrow), h.2⟩

theorem drawn_singleton {row : Value} (h : possible row) : Drawn order possible [row] := by
  refine ⟨?_, List.pairwise_singleton _ _⟩
  intro row' hrow'
  obtain rfl := List.mem_singleton.1 hrow'
  exact h

/-- A session goes on from the page it starts with. -/
theorem Session.head (h : Session (p.answer criteria order size) (.cursor (.text t)) steps) :
    ∃ step ∈ steps,
      p.answer criteria order size step.rows (.cursor (.text t)) = .ok step.page := by
  cases h with
  | one hpage => exact ⟨_, List.mem_singleton_self _, hpage⟩
  | more hpage _ _ => exact ⟨_, List.mem_cons_self, hpage⟩

/-- The last step of a longer session is that of the rest. -/
theorem getLast?_cons_of_session {fetch : List Value → Start → Result KeysetPage} {start : Start}
    {step last : Fetched} (hrest : Session fetch start steps)
    (hlast : (step :: steps).getLast? = some last) : steps.getLast? = some last := by
  cases hrest with
  | one _ => exact hlast
  | more _ _ _ => exact hlast

/-! ## The end of a page -/

/-- Either the start of sorted items shows all of them, or there is a cursor after its last item, and
the items not shown lie behind that. -/
theorem end_of_page {s : Sealer} {lt : Value → Value → Prop} {items : List Value}
    {cursor : Option String} (hn : 1 ≤ n) (hsorted : items.Pairwise lt)
    (hmarks : s.Marks order .after
      (if n < items.length then (items.take n).getLast? else none) cursor) :
    (cursor = none → items.take n = items) ∧ ∀ t, cursor = some t → ∃ c,
      (items.take n).getLast? = some c ∧ n < items.length ∧
        s.Marks order .after (some c) (some t) ∧ (∀ z ∈ items.take n, z = c ∨ lt z c) ∧
        ∀ z ∈ items, z ∈ items.take n ∨ lt c z := by
  constructor
  · rintro rfl
    exact hmarks.take_eq_of_none hn
  · rintro t rfl
    obtain ⟨c, hc, hmarks⟩ := hmarks.exists_row
    split at hc
    · rename_i hlonger
      -- sorted items before the last one shown come before it, and items not shown after it
      obtain ⟨init, hinit⟩ := List.getLast?_eq_some_iff.1 hc
      have hsplit := hsorted
      rw [← List.take_append_drop n items] at hsplit
      obtain ⟨hshown, -, hrest⟩ := List.pairwise_append.1 hsplit
      refine ⟨c, hc, hlonger, hmarks, ?_, ?_⟩
      · intro z hz
        rw [hinit] at hz hshown
        rcases List.mem_append.1 hz with hz | hz
        · exact Or.inr ((List.pairwise_append.1 hshown).2.2 z hz c (List.mem_singleton_self c))
        · exact Or.inl (List.mem_singleton.1 hz)
      · intro z hz
        rw [← List.take_append_drop n items] at hz
        rcases List.mem_append.1 hz with hz | hz
        · exact Or.inl hz
        · exact Or.inr (hrest c (List.mem_of_getLast? hc) z hz)
    · exact absurd hc (by simp)

/-! ## From cursor to cursor -/

/-- What is settled behind a row is settled behind a later one. -/
theorem Settles.mono (hkeys : ∀ row, possible row → p.sealer.schema.HoldsKeys order.keys row)
    {c' : Value} (h : Settles criteria order possible c) (hc : possible c) (hc' : possible c')
    (hlater : order.puts (order.valuesOf c) (order.valuesOf c')) :
    Settles criteria order possible c' where
  decides := h.decides
  sound row hrow hput := by
    apply h.sound row hrow
    exact precedes_trans order.keys ((hkeys c hc).allAlike (hkeys c' hc'))
      ((hkeys c' hc').allAlike (hkeys row hrow)) hlater hput

/-- The pages fetched from the cursor of a row show increasing rows behind it, each held at the time
and matching; they show each row there that the normal form accepts and the memory held all the time,
if they come to the end, and otherwise they end in the cursor of a later row. -/
structure Continues (p : Pager) (criteria : Predicate) (order : SortOrder)
    (possible : Value → Prop) (c : Value) (steps : List Fetched) : Prop where
  behind : ∀ row ∈ shown steps, order.puts (order.valuesOf c) (order.valuesOf row)
  increasing : (shown steps).Pairwise fun a b => order.puts (order.valuesOf a) (order.valuesOf b)
  sound : ∀ step ∈ steps, ∀ row ∈ step.page.rows, row ∈ step.rows ∧ criteria.holds row = .ok true
  complete : ∀ last, steps.getLast? = some last → last.page.next = none → ∀ row,
    order.puts (order.valuesOf c) (order.valuesOf row) → criteria.normal.holds row = .ok true →
    (∀ step ∈ steps, row ∈ step.rows) → row ∈ shown steps
  onwards : ∀ last t, steps.getLast? = some last → last.page.next = some t → ∃ c', possible c' ∧
    p.sealer.Marks order .after (some c') (some t) ∧ Settles criteria order possible c'

theorem Continues.of_mem_shown (h : Continues p criteria order possible c steps)
    (hdrawn : ∀ step ∈ steps, Drawn order possible step.rows) :
    ∀ row ∈ shown steps, possible row := by
  intro row hrow
  obtain ⟨step, hstep, hshown⟩ := List.mem_flatMap.1 hrow
  exact (hdrawn step hstep).1 row (h.sound step hstep row hshown).1

/-- A page up to a row and the pages that continue behind it are increasing together. -/
theorem Continues.increasing_append
    (hkeys : ∀ row, possible row → p.sealer.schema.HoldsKeys order.keys row)
    (h : Continues p criteria order possible c steps)
    (hdrawn : ∀ step ∈ steps, Drawn order possible step.rows) (hc : possible c)
    {front : List Value} (hpossible : ∀ z ∈ front, possible z)
    (hfront : front.Pairwise fun a b => order.puts (order.valuesOf a) (order.valuesOf b))
    (hlast : ∀ z ∈ front, z = c ∨ order.puts (order.valuesOf z) (order.valuesOf c)) :
    (front ++ shown steps).Pairwise fun a b =>
      order.puts (order.valuesOf a) (order.valuesOf b) := by
  refine List.pairwise_append.2 ⟨hfront, h.increasing, ?_⟩
  intro a ha b hb
  rcases hlast a ha with rfl | hac
  · exact h.behind b hb
  · have hka := hkeys a (hpossible a ha)
    have hkc := hkeys c hc
    have hkb := hkeys b (h.of_mem_shown hdrawn b hb)
    exact precedes_trans order.keys (hka.allAlike hkc) (hkc.allAlike hkb) hac (h.behind b hb)

/-- A page shows the start of the rows behind a row that the normal form accepts, and has a cursor
onwards if these are more. -/
structure ShowsBehind (p : Pager) (criteria : Predicate) (order : SortOrder) (n : Nat) (c : Value)
    (step : Fetched) (ahead : List Value) : Prop where
  sorted : ahead.Pairwise fun a b => order.puts (order.valuesOf a) (order.valuesOf b)
  mem_iff : ∀ row, row ∈ ahead ↔ row ∈ step.rows ∧
    order.puts (order.valuesOf c) (order.valuesOf row) ∧ criteria.normal.holds row = .ok true
  rows_eq : step.page.rows = ahead.take n
  next : p.sealer.Marks order .after (if n < ahead.length then (ahead.take n).getLast? else none)
    step.page.next

namespace ShowsBehind

variable {step : Fetched} {ahead : List Value} {row : Value}

theorem mem_of_shown (h : ShowsBehind p criteria order n c step ahead)
    (hrow : row ∈ step.page.rows) : row ∈ ahead := by
  rw [h.rows_eq] at hrow
  exact List.mem_of_mem_take hrow

theorem behind (h : ShowsBehind p criteria order n c step ahead) (hrow : row ∈ step.page.rows) :
    order.puts (order.valuesOf c) (order.valuesOf row) :=
  ((h.mem_iff row).1 (h.mem_of_shown hrow)).2.1

theorem increasing (h : ShowsBehind p criteria order n c step ahead) :
    step.page.rows.Pairwise fun a b => order.puts (order.valuesOf a) (order.valuesOf b) := by
  rw [h.rows_eq]
  exact h.sorted.take

section

variable (hdrawn : Drawn order possible step.rows) (hsettles : Settles criteria order possible c)

include hdrawn hsettles

/-- Behind a settled row the rows shown match. -/
theorem sound (h : ShowsBehind p criteria order n c step ahead) (hrow : row ∈ step.page.rows) :
    row ∈ step.rows ∧ criteria.holds row = .ok true := by
  obtain ⟨hmem, hput, hholds⟩ := (h.mem_iff row).1 (h.mem_of_shown hrow)
  exact ⟨hmem, (hsettles.sound row (hdrawn.1 row hmem) hput hholds).1⟩

/-- The cursor onwards stands for the last row shown; the rest of the rows lies behind it, and the
normal form is settled there. -/
theorem exists_last (h : ShowsBehind p criteria order n c step ahead) (hn : 1 ≤ n)
    (hkeys : ∀ row, possible row → p.sealer.schema.HoldsKeys order.keys row) (hc : possible c)
    (ht : step.page.next = some t) :
    ∃ c', possible c' ∧ p.sealer.Marks order .after (some c') (some t) ∧
      Settles criteria order possible c' ∧
      order.puts (order.valuesOf c) (order.valuesOf c') ∧
      (∀ z ∈ step.page.rows, z = c' ∨ order.puts (order.valuesOf z) (order.valuesOf c')) ∧
      ∀ z ∈ ahead, z ∈ step.page.rows ∨ order.puts (order.valuesOf c') (order.valuesOf z) := by
  obtain ⟨c', hc', -, hmarks, hlast, hrest⟩ := (end_of_page hn h.sorted h.next).2 t ht
  rw [← h.rows_eq] at hc' hlast hrest
  have hmem := (h.mem_iff c').1 (h.mem_of_shown (List.mem_of_getLast? hc'))
  have hpossible := hdrawn.1 c' hmem.1
  exact ⟨c', hpossible, hmarks, hsettles.mono hkeys hc hpossible hmem.2.1, hmem.2.1, hlast, hrest⟩

/-- A page alone continues behind the row. -/
theorem continues_single (h : ShowsBehind p criteria order n c step ahead) (hn : 1 ≤ n)
    (hkeys : ∀ row, possible row → p.sealer.schema.HoldsKeys order.keys row) (hc : possible c) :
    Continues p criteria order possible c [step] where
  behind row hrow := by
    rw [shown_singleton] at hrow
    exact h.behind hrow
  increasing := by
    rw [shown_singleton]
    exact h.increasing
  sound step' hstep row hrow := by
    obtain rfl := List.mem_singleton.1 hstep
    exact h.sound hdrawn hsettles hrow
  complete last hlast hend row hput hholds hheld := by
    obtain rfl := Option.some.inj hlast
    rw [shown_singleton, h.rows_eq, (end_of_page hn h.sorted h.next).1 hend]
    exact (h.mem_iff row).2 ⟨hheld _ (List.mem_singleton_self _), hput, hholds⟩
  onwards last t hlast ht := by
    obtain rfl := Option.some.inj hlast
    obtain ⟨c', hpossible, hmarks, hsettles', -⟩ :=
      h.exists_last hdrawn hsettles hn hkeys hc ht
    exact ⟨c', hpossible, hmarks, hsettles'⟩

/-- A page and the pages that continue behind its last row continue together. -/
theorem continues_cons (h : ShowsBehind p criteria order n c step ahead)
    (hkeys : ∀ row, possible row → p.sealer.schema.HoldsKeys order.keys row) (hc : possible c)
    {c' : Value} (hc' : possible c') (hput : order.puts (order.valuesOf c) (order.valuesOf c'))
    (hlast : ∀ z ∈ step.page.rows, z = c' ∨ order.puts (order.valuesOf z) (order.valuesOf c'))
    (hrest : ∀ z ∈ ahead, z ∈ step.page.rows ∨ order.puts (order.valuesOf c') (order.valuesOf z))
    (hlater : ∀ step ∈ steps, Drawn order possible step.rows)
    (hend : ∀ {last}, (step :: steps).getLast? = some last → steps.getLast? = some last)
    (hcontinues : Continues p criteria order possible c' steps) :
    Continues p criteria order possible c (step :: steps) where
  behind row hrow := by
    rw [shown_cons] at hrow
    rcases List.mem_append.1 hrow with hrow | hrow
    · exact h.behind hrow
    · have hkc := hkeys c' hc'
      exact precedes_trans order.keys ((hkeys c hc).allAlike hkc)
        (hkc.allAlike (hkeys row (hcontinues.of_mem_shown hlater row hrow))) hput
        (hcontinues.behind row hrow)
  increasing := by
    rw [shown_cons]
    apply hcontinues.increasing_append hkeys hlater hc' _ h.increasing hlast
    intro z hz
    exact hdrawn.1 z (h.sound hdrawn hsettles hz).1
  sound step' hstep row hrow := by
    rcases List.mem_cons.1 hstep with rfl | hstep
    · exact h.sound hdrawn hsettles hrow
    · exact hcontinues.sound step' hstep row hrow
  complete last hlastStep hnone row hput hholds hheld := by
    rw [shown_cons]
    have hrow := (h.mem_iff row).2 ⟨hheld _ List.mem_cons_self, hput, hholds⟩
    -- the row is on this page or behind its last row, where the rest of the session finds it
    rcases hrest row hrow with hrow | hrow
    · exact List.mem_append_left _ hrow
    · apply List.mem_append_right
      exact hcontinues.complete last (hend hlastStep) hnone row hrow hholds fun step hstep =>
        hheld step (List.mem_cons_of_mem _ hstep)
  onwards last t hlastStep ht := hcontinues.onwards last t (hend hlastStep) ht

end

end ShowsBehind

section

variable (hkeys : ∀ row, possible row → p.sealer.schema.HoldsKeys order.keys row)
  (hforeign : criteria.hasForeign = false) (hsize : admitSize p.maxPageSize size = .ok n)

include hkeys hforeign hsize

/-- **One fetch** from the cursor of a settled row shows the start of the rows behind it that the
normal form accepts. -/
theorem shows_of_fetch (hsettles : Settles criteria order possible c) (hc : possible c)
    (hdrawn : Drawn order possible rows) (hmarks : p.sealer.Marks order .after (some c) (some t))
    (hpage : p.answer criteria order size rows (.cursor (.text t)) = .ok page) :
    ∃ ahead, ShowsBehind p criteria order n c ⟨rows, page⟩ ahead := by
  have hrows := hdrawn.listable hkeys
  have hdecides : criteria.normal.Decides rows := fun row hrow =>
    hsettles.decides row (hdrawn.1 row hrow)
  obtain ⟨found, hfound, -⟩ := Memory.window_spec hrows.sortable hrows.distinct hdecides
  have hshows := showsWindow_of_answer hrows hforeign hsize hfound (hkeys c hc) hmarks hpage
  refine ⟨rowsAfter order (order.valuesOf c) found, List.Pairwise.filter _ hfound.sorted, ?_,
    hshows.rows_eq, hshows.next⟩
  intro row
  rw [rowsAfter, List.mem_filter, hfound.mem_iff]
  constructor
  · rintro ⟨⟨hrow, haccepts⟩, hput⟩
    exact ⟨hrow, hput, (hdecides.holds_eq hrow).trans (congrArg Except.ok haccepts)⟩
  · rintro ⟨hrow, hput, hholds⟩
    exact ⟨⟨hrow, Predicate.accepts_of_holds hholds⟩, hput⟩

/-- **A session from a cursor** of a settled row continues behind that row. -/
theorem Session.continues {start : Start}
    (hsession : Session (p.answer criteria order size) start steps) : ∀ {c : Value} {t : String},
    start = .cursor (.text t) → (∀ step ∈ steps, Drawn order possible step.rows) → possible c →
    Settles criteria order possible c → p.sealer.Marks order .after (some c) (some t) →
    Continues p criteria order possible c steps := by
  have hn := one_le_of_admitSize hsize
  induction hsession with
  | @one start rows page hpage =>
      intro c t hstart hdrawn hc hsettles hmarks
      subst hstart
      have hrows : Drawn order possible rows := hdrawn _ (List.mem_singleton_self _)
      obtain ⟨ahead, hshows⟩ := shows_of_fetch hkeys hforeign hsize hsettles hc hrows hmarks hpage
      exact hshows.continues_single hrows hsettles hn hkeys hc
  | @more start rows page t' steps hpage ht' hrest ih =>
      intro c t hstart hdrawn hc hsettles hmarks
      subst hstart
      have hrows : Drawn order possible rows := hdrawn _ List.mem_cons_self
      have hlater : ∀ step ∈ steps, Drawn order possible step.rows := fun step hstep =>
        hdrawn step (List.mem_cons_of_mem _ hstep)
      obtain ⟨ahead, hshows⟩ := shows_of_fetch hkeys hforeign hsize hsettles hc hrows hmarks hpage
      -- the next cursor stands for the last row shown, and what is settled behind `c` is so there
      obtain ⟨c', hc', hmarks', hsettles', hput, hlast, hbehind⟩ :=
        hshows.exists_last hrows hsettles hn hkeys hc ht'
      exact hshows.continues_cons hrows hsettles hkeys hc hc' hput hlast hbehind hlater
        (getLast?_cons_of_session hrest) (ih rfl hlater hc' hsettles' hmarks')

end

/-! ## From the first page -/

/-- A page shows the start of the matching rows, and has a cursor onwards if these are more. -/
structure ShowsStart (p : Pager) (criteria : Predicate) (order : SortOrder) (n : Nat)
    (step : Fetched) (matched : List Value) : Prop where
  arranged : Memory.Arranged order criteria step.rows matched
  rows_eq : step.page.rows = matched.take n
  next : p.sealer.Marks order .after
    (if n < matched.length then (matched.take n).getLast? else none) step.page.next

namespace ShowsStart

variable {step : Fetched} {matched : List Value}

theorem increasing (h : ShowsStart p criteria order n step matched) :
    step.page.rows.Pairwise fun a b => order.puts (order.valuesOf a) (order.valuesOf b) := by
  rw [h.rows_eq]
  exact h.arranged.sorted.take

theorem sound (h : ShowsStart p criteria order n step matched)
    (hdecides : criteria.Decides step.rows) {row : Value} (hrow : row ∈ step.page.rows) :
    row ∈ step.rows ∧ criteria.holds row = .ok true := by
  rw [h.rows_eq] at hrow
  exact h.arranged.holds_of_mem hdecides (List.mem_of_mem_take hrow)

/-- A first page alone is faithful. -/
theorem faithful_single (h : ShowsStart p criteria order n step matched) (hn : 1 ≤ n)
    (hdecides : criteria.Decides step.rows) : Faithful order criteria [step] where
  increasing := by
    rw [shown_singleton]
    exact h.increasing
  sound step' hstep row hrow := by
    obtain rfl := List.mem_singleton.1 hstep
    exact h.sound hdecides hrow
  complete last hlast hend row hheld hholds := by
    obtain rfl := Option.some.inj hlast
    rw [shown_singleton, h.rows_eq, (end_of_page hn h.arranged.sorted h.next).1 hend]
    exact h.arranged.mem_iff.2
      ⟨hheld _ (List.mem_singleton_self _), Predicate.accepts_of_holds hholds⟩

/-- The cursor of a first page stands for its last row; the rest of the matching rows lies behind it,
where steady criteria are settled and the normal form accepts what matches. -/
theorem exists_last (h : ShowsStart p criteria order n step matched) (hn : 1 ≤ n)
    (hsteady : Steady p criteria order n possible) (hdrawn : Drawn order possible step.rows)
    (ht : step.page.next = some t) (hfits : p.sealer.exceeds t = .ok false) :
    ∃ c, possible c ∧ p.sealer.Marks order .after (some c) (some t) ∧
      Settles criteria order possible c ∧
      (∀ z ∈ step.page.rows, z = c ∨ order.puts (order.valuesOf z) (order.valuesOf c)) ∧
      (∀ z ∈ matched, z ∈ step.page.rows ∨ order.puts (order.valuesOf c) (order.valuesOf z)) ∧
      ∀ row ∈ step.rows, order.puts (order.valuesOf c) (order.valuesOf row) →
        criteria.holds row = .ok true → criteria.normal.holds row = .ok true := by
  obtain ⟨c, hc, hlonger, hmarks, hlast, hrest⟩ :=
    (end_of_page hn h.arranged.sorted h.next).2 t ht
  have hmem := (h.arranged.mem_iff.1 (List.mem_of_mem_take (List.mem_of_getLast? hc))).1
  obtain ⟨-, hsettled⟩ := hsteady step.rows matched c hdrawn h.arranged hlonger hc
  obtain ⟨hsettles, hkept⟩ := hsettled t hmarks.1 hfits
  rw [← h.rows_eq] at hlast hrest
  exact ⟨c, hdrawn.1 c hmem, hmarks, hsettles, hlast, hrest, hkept⟩

/-- A first page and the pages that continue behind its last row are faithful together. -/
theorem faithful_cons (h : ShowsStart p criteria order n step matched)
    (hkeys : ∀ row, possible row → p.sealer.schema.HoldsKeys order.keys row)
    (hdecides : criteria.Decides step.rows) (hdrawn : Drawn order possible step.rows)
    (hc : possible c)
    (hlast : ∀ z ∈ step.page.rows, z = c ∨ order.puts (order.valuesOf z) (order.valuesOf c))
    (hrest : ∀ z ∈ matched, z ∈ step.page.rows ∨ order.puts (order.valuesOf c) (order.valuesOf z))
    (hkept : ∀ row ∈ step.rows, order.puts (order.valuesOf c) (order.valuesOf row) →
      criteria.holds row = .ok true → criteria.normal.holds row = .ok true)
    (hlater : ∀ step ∈ steps, Drawn order possible step.rows)
    (hend : ∀ {last}, (step :: steps).getLast? = some last → steps.getLast? = some last)
    (hcontinues : Continues p criteria order possible c steps) :
    Faithful order criteria (step :: steps) where
  increasing := by
    rw [shown_cons]
    apply hcontinues.increasing_append hkeys hlater hc _ h.increasing hlast
    intro z hz
    exact hdrawn.1 z (h.sound hdecides hz).1
  sound step' hstep row hrow := by
    rcases List.mem_cons.1 hstep with rfl | hstep
    · exact h.sound hdecides hrow
    · exact hcontinues.sound step' hstep row hrow
  complete last hlastStep hnone row hheld hholds := by
    -- behind the first page the normal form still accepts a row that was there from the start
    have hrow := hheld _ List.mem_cons_self
    rw [shown_cons]
    rcases hrest row (h.arranged.mem_iff.2 ⟨hrow, Predicate.accepts_of_holds hholds⟩)
      with hmem | hput
    · exact List.mem_append_left _ hmem
    · apply List.mem_append_right
      exact hcontinues.complete last (hend hlastStep) hnone row hput (hkept row hrow hput hholds)
        fun step hstep => hheld step (List.mem_cons_of_mem _ hstep)

end ShowsStart

/-- The rows of the first page can be arranged. -/
theorem shows_of_first (hkeys : ∀ row, possible row → p.sealer.schema.HoldsKeys order.keys row)
    (hdecides : ∀ row, possible row → ∃ b, criteria.holds row = .ok b)
    (hsize : admitSize p.maxPageSize size = .ok n) (hdrawn : Drawn order possible rows)
    (hpage : p.answer criteria order size rows .first = .ok page) :
    ∃ arranged, ShowsStart p criteria order n ⟨rows, page⟩ arranged := by
  have hrows := hdrawn.listable hkeys
  have hmatching : criteria.Decides rows := fun row hrow => hdecides row (hdrawn.1 row hrow)
  obtain ⟨arranged, harranged, -⟩ := Memory.window_spec hrows.sortable hrows.distinct hmatching
  rw [answer_first hsize] at hpage
  have hshows := shows_of_firstPage hrows hmatching harranged hpage
  exact ⟨arranged, harranged, hshows.rows_eq, hshows.next⟩

section

variable (hkeys : ∀ row, possible row → p.sealer.schema.HoldsKeys order.keys row)
  (hdecides : ∀ row, possible row → ∃ b, criteria.holds row = .ok b)
  (hforeign : criteria.hasForeign = false) (hsize : admitSize p.maxPageSize size = .ok n)

include hkeys hdecides hsize

/-- When the criteria can be written and are steady there is a first page. -/
theorem Steady.first (hsteady : Steady p criteria order n possible)
    (hcriteria : criteria.isWritable = true) (hdrawn : Drawn order possible rows) :
    ∃ page, p.answer criteria order size rows .first = .ok page := by
  have hrows := hdrawn.listable hkeys
  have hmatching : criteria.Decides rows := fun row hrow => hdecides row (hdrawn.1 row hrow)
  obtain ⟨arranged, harranged, -⟩ := Memory.window_spec hrows.sortable hrows.distinct hmatching
  rw [answer_first hsize]
  apply exists_firstPage hrows hcriteria hmatching harranged
  intro c hc
  split at hc
  · rename_i hlonger
    exact (hsteady rows arranged c hdrawn harranged hlonger hc).1
  · exact absurd hc (by simp)

include hforeign

/-- **A session from the first page** is faithful when the criteria are steady, and where it ends in
a cursor that fits, the normal form is settled behind the row of that cursor. -/
theorem Session.faithful (hsteady : Steady p criteria order n possible)
    (hsession : Session (p.answer criteria order size) .first steps)
    (hdrawn : ∀ step ∈ steps, Drawn order possible step.rows) :
    Faithful order criteria steps ∧ ∀ last t, steps.getLast? = some last →
      last.page.next = some t → p.sealer.exceeds t = .ok false → ∃ c, possible c ∧
        p.sealer.Marks order .after (some c) (some t) ∧ Settles criteria order possible c := by
  have hn := one_le_of_admitSize hsize
  cases hsession with
  | @one _ rows page hpage =>
      -- the first page is the only one: it is the start of the matching rows of its moment
      have hrows : Drawn order possible rows := hdrawn _ (List.mem_singleton_self _)
      have hmatching : criteria.Decides rows := fun row hrow => hdecides row (hrows.1 row hrow)
      obtain ⟨arranged, hshows⟩ := shows_of_first hkeys hdecides hsize hrows hpage
      refine ⟨hshows.faithful_single hn hmatching, ?_⟩
      intro last t hlast ht hfits
      obtain rfl := Option.some.inj hlast
      obtain ⟨c, hc, hmarks, hsettles, -⟩ := hshows.exists_last hn hsteady hrows ht hfits
      exact ⟨c, hc, hmarks, hsettles⟩
  | @more _ rows page t steps hpage ht hrest =>
      have hrows : Drawn order possible rows := hdrawn _ List.mem_cons_self
      have hmatching : criteria.Decides rows := fun row hrow => hdecides row (hrows.1 row hrow)
      have hlater : ∀ step ∈ steps, Drawn order possible step.rows := fun step hstep =>
        hdrawn step (List.mem_cons_of_mem _ hstep)
      obtain ⟨arranged, hshows⟩ := shows_of_first hkeys hdecides hsize hrows hpage
      -- the cursor was opened by the next fetch, so it fits
      have hfits : p.sealer.exceeds t = .ok false := by
        obtain ⟨step, -, hfetch⟩ := hrest.head
        obtain ⟨here, hopen, -⟩ := openText_of_answer hsize hfetch
        exact Sealer.exceeds_of_openText hopen
      obtain ⟨c, hc, hmarks, hsettles, hlast, hbehind, hkept⟩ :=
        hshows.exists_last hn hsteady hrows ht hfits
      have hcontinues := hrest.continues hkeys hforeign hsize rfl hlater hc hsettles hmarks
      refine ⟨hshows.faithful_cons hkeys hmatching hrows hc hlast hbehind hkept hlater
        (getLast?_cons_of_session hrest) hcontinues, ?_⟩
      intro last t' hlastStep ht' _
      exact hcontinues.onwards last t' (getLast?_cons_of_session hrest hlastStep) ht'

/-- Steady criteria that can be written make the pages dependable. -/
theorem Steady.dependable (hsteady : Steady p criteria order n possible)
    (hcriteria : criteria.isWritable = true) : Dependable p criteria order size possible where
  first rows hdrawn := hsteady.first hkeys hdecides hsize hcriteria hdrawn
  next steps hsession hdrawn last t hlast ht hfits rows hrows := by
    obtain ⟨c, hc, hmarks, hsettles⟩ :=
      (hsession.faithful hkeys hdecides hforeign hsize hsteady hdrawn).2 last t hlast ht hfits
    have hlistable := hrows.listable hkeys
    have hnormal : criteria.normal.Decides rows := fun row hrow =>
      hsettles.decides row (hrows.1 row hrow)
    obtain ⟨found, hfound, -⟩ :=
      Memory.window_spec hlistable.sortable hlistable.distinct hnormal
    apply exists_answer hlistable hforeign hsize hfound (hkeys c hc) hcriteria hnormal hmarks hfits
    intro o ho
    -- both outer rows of the page lie behind the row of the cursor
    have hmem : o ∈ rowsAfter order (order.valuesOf c) found :=
      List.mem_of_mem_take (ho.elim mem_of_nextRow mem_of_previousRow)
    obtain ⟨hmem, hput⟩ := List.mem_filter.1 hmem
    obtain ⟨hmem, haccepts⟩ := hfound.mem_iff.1 hmem
    exact (hsettles.sound o (hrows.1 o hmem) hput
      ((hnormal.holds_eq hmem).trans (congrArg Except.ok haccepts))).2
  faithful steps hsession hdrawn :=
    (hsession.faithful hkeys hdecides hforeign hsize hsteady hdrawn).1

end

/-! ## What dependable pages show -/

/-- There is a first page of a memory without rows, so the criteria were written. -/
theorem Dependable.isWritable (h : Dependable p criteria order size possible)
    (hsize : admitSize p.maxPageSize size = .ok n) : criteria.isWritable = true := by
  have hnone : Drawn order possible [] :=
    ⟨fun row hrow => absurd hrow List.not_mem_nil, List.Pairwise.nil⟩
  obtain ⟨page, hpage⟩ := h.first [] hnone
  rw [answer_first hsize] at hpage
  exact isWritable_of_firstPage hpage

/-- A predicate arranges one row to itself or to nothing. -/
theorem arranged_singleton {q : Predicate} {row : Value} {b : Bool} (h : q.holds row = .ok b) :
    Memory.Arranged order q [row] (if b then [row] else []) where
  perm := by
    have haccepts := Predicate.accepts_of_holds h
    cases b <;> simp [haccepts]
  sorted := by
    cases b
    · exact List.Pairwise.nil
    · exact List.pairwise_singleton _ _

/-- The page that shows one row behind a position shows it, and has a cursor back that is sealed for
it. -/
theorem ShowsWindow.of_singleton {row : Value} {values : List Value} (hn : 1 ≤ n)
    (h : p.ShowsWindow order n [row] values .after page)
    (hput : order.puts values (order.valuesOf row))
    (hkeys : p.sealer.schema.HoldsKeys order.keys row) :
    page.rows = [row] ∧ ∀ v ∈ order.valuesOf row, v.IsWritable := by
  have hahead : (rowsAfter order values [row]).take n = [row] := by
    rw [rowsAfter, List.filter_eq_self.2 (by simpa using hput)]
    exact List.take_of_length_le hn
  constructor
  · rw [h.rows_eq, windowRows, hahead]
  · have hback := KeysetPage.Shows.previous h
    simp only [previousRow, windowRows, hahead, List.head?_cons] at hback
    exact hback.isWritable hkeys

/-- The page that shows nothing has no cursor onwards. -/
theorem ShowsWindow.of_nil {values : List Value} (h : p.ShowsWindow order n [] values .after page) :
    page.rows = [] ∧ page.next = none := by
  constructor
  · rw [h.rows_eq, windowRows, rowsAfter, List.filter_nil, List.take_nil]
  · have hsome := Sealer.Marks.isSome_eq (KeysetPage.Shows.next h)
    simpa [nextRow, rowsAfter] using hsome

section

variable (hkeys : ∀ row, possible row → p.sealer.schema.HoldsKeys order.keys row)
  (hdecides : ∀ row, possible row → ∃ b, criteria.holds row = .ok b)
  (hforeign : criteria.hasForeign = false) (hsize : admitSize p.maxPageSize size = .ok n)

include hkeys hforeign hsize

/-- A page over a memory of one row shows what the normal form makes of it. -/
theorem showsWindow_single {row : Value} (hc : possible c) (hrow : possible row)
    (hmarks : p.sealer.Marks order .after (some c) (some t))
    (hpage : p.answer criteria order size [row] (.cursor (.text t)) = .ok page) :
    ∃ b, criteria.normal.holds row = .ok b ∧
      p.ShowsWindow order n (if b then [row] else []) (order.valuesOf c) .after page := by
  obtain ⟨here, hopen, hat⟩ := openText_of_answer hsize hpage
  obtain rfl := hmarks.here_eq hopen
  obtain ⟨b, hb⟩ := (decides_of_pageAt hforeign (order.length_valuesOf c) hat).2 row
    (List.mem_singleton_self row)
  have hrows : Listable p.sealer.schema order [row] := (drawn_singleton hrow).listable hkeys
  exact ⟨b, hb, showsWindow_of_answer hrows hforeign hsize (arranged_singleton hb) (hkeys c hc)
    hmarks hpage⟩

/-- When pages are dependable, a memory that comes down to one row after the first page shows what the
normal form makes of that row, faithfully. -/
theorem Dependable.second_page (h : Dependable p criteria order size possible)
    (hdrawn : Drawn order possible rows)
    (hfirst : p.answer criteria order size rows .first = .ok page)
    (hnext : page.next = some t) (hmarks : p.sealer.Marks order .after (some c) (some t))
    (hfits : p.sealer.exceeds t = .ok false) (hc : possible c) {row : Value} (hrow : possible row) :
    ∃ b second, criteria.normal.holds row = .ok b ∧
      p.ShowsWindow order n (if b then [row] else []) (order.valuesOf c) .after second ∧
      Faithful order criteria [⟨rows, page⟩, ⟨[row], second⟩] := by
  -- the cursor fits, so there is a second page to the one row left
  obtain ⟨second, hsecond⟩ : ∃ second,
      p.answer criteria order size [row] (.cursor (.text t)) = .ok second := by
    refine h.next _ (.one hfirst) ?_ _ t rfl hnext hfits [row] (drawn_singleton hrow)
    intro step hstep
    obtain rfl := List.mem_singleton.1 hstep
    exact hdrawn
  obtain ⟨b, hb, hwindow⟩ := showsWindow_single hkeys hforeign hsize hc hrow hmarks hsecond
  refine ⟨b, second, hb, hwindow, h.faithful _ (.more hfirst hnext (.one hsecond)) ?_⟩
  intro step hstep
  rcases List.mem_pair.1 hstep with rfl | rfl
  · exact hdrawn
  · exact drawn_singleton hrow

include hdecides

/-- Dependable pages need steady criteria. -/
theorem Dependable.steady (h : Dependable p criteria order size possible) :
    Steady p criteria order n possible := by
  have hn := one_le_of_admitSize hsize
  intro rows arranged c hdrawn harranged hlonger hc
  have hrows := hdrawn.listable hkeys
  have hmatching : criteria.Decides rows := fun row hrow => hdecides row (hdrawn.1 row hrow)
  have hpossible := hdrawn.1 c
    (harranged.mem_iff.1 (List.mem_of_mem_take (List.mem_of_getLast? hc))).1
  obtain ⟨first, hfirst⟩ := h.first rows hdrawn
  have hshows := shows_of_firstPage hrows hmatching harranged
    ((answer_first hsize).symm.trans hfirst)
  have hmarks := KeysetPage.Shows.next hshows
  rw [if_pos hlonger, hc] at hmarks
  refine ⟨hmarks.isWritable (hkeys c hpossible), ?_⟩
  intro t ht hfits
  -- the cursor of the first page is the one that is sealed for its last row
  obtain ⟨t', hnext, hmarks⟩ := hmarks.exists_cursor
  obtain rfl : t = t' := Except.ok.inj (ht.symm.trans hmarks.1)
  have hsecond := fun row (hrow : possible row) =>
    h.second_page hkeys hforeign hsize hdrawn hfirst hnext hmarks hfits hpossible hrow
  refine ⟨⟨?_, ?_⟩, ?_⟩
  · intro row hrow
    obtain ⟨b, -, hb, -⟩ := hsecond row hrow
    exact ⟨b, hb⟩
  · intro row hrow hput hholds
    obtain ⟨b, second, hb, hwindow, hfaithful⟩ := hsecond row hrow
    obtain rfl : b = true := Except.ok.inj (hb.symm.trans hholds)
    -- the second page shows the row, so it matches, and a cursor back was sealed for it
    obtain ⟨hrows_eq, hwritable⟩ := hwindow.of_singleton hn hput (hkeys row hrow)
    refine ⟨(hfaithful.sound ⟨[row], second⟩ (by simp) row ?_).2, hwritable⟩
    rw [hrows_eq]
    exact List.mem_singleton_self row
  · intro row hmem hput hholds
    obtain ⟨b, second, hb, hwindow, hfaithful⟩ := hsecond row (hdrawn.1 row hmem)
    cases b with
    | true => exact hb
    | false =>
        -- the row is passed over, although it is there all the time
        obtain ⟨hempty, hnone⟩ := ShowsWindow.of_nil hwindow
        have hshown := hfaithful.complete _ rfl hnone row (by
          intro step hstep
          rcases List.mem_pair.1 hstep with rfl | rfl
          · exact hmem
          · exact List.mem_singleton_self row) hholds
        rw [shown_cons, shown_singleton, hempty, hshows.rows_eq, List.append_nil] at hshown
        -- but what is on the first page is not behind its last row
        obtain ⟨c', hc', -, -, hlast, -⟩ := (end_of_page hn harranged.sorted hshows.next).2 t hnext
        obtain rfl : c = c' := Option.some.inj (hc.symm.trans hc')
        rcases hlast row hshown with rfl | hbefore
        · exact absurd hput (precedes_irrefl order.keys _)
        · exact absurd hput (precedes_asymm ((hkeys row (hdrawn.1 row hmem)).allAlike
            (hkeys c hpossible)) hbefore)

/-- **Pages of a changing memory.** Let the rows that the memory may hold have keys, let the criteria
raise no fault on them, and let the size be admitted. Whatever rows come and go between the fetches,
there is a page for every cursor that fits, and the pages are faithful, exactly when the criteria can
be written and are steady. -/
theorem dependable_iff_steady :
    Dependable p criteria order size possible ↔
      criteria.isWritable = true ∧ Steady p criteria order n possible := by
  constructor
  · intro hdependable
    exact ⟨hdependable.isWritable hsize, hdependable.steady hkeys hdecides hforeign hsize⟩
  · rintro ⟨hcriteria, hsteady⟩
    exact hsteady.dependable hkeys hdecides hforeign hsize hcriteria

end

/-- Criteria that agree with their normal form are steady on rows whose key values can be written. -/
theorem steady_of_agree
    (hagree : ∀ row, possible row → criteria.normal.holds row = criteria.holds row)
    (hdecides : ∀ row, possible row → ∃ b, criteria.holds row = .ok b)
    (hwritable : ∀ row, possible row → ∀ v ∈ order.valuesOf row, v.IsWritable) :
    Steady p criteria order n possible := by
  intro rows arranged c hdrawn harranged _ hc
  have hmem := (harranged.mem_iff.1 (List.mem_of_mem_take (List.mem_of_getLast? hc))).1
  refine ⟨hwritable c (hdrawn.1 c hmem), ?_⟩
  intro t _ _
  refine ⟨⟨?_, ?_⟩, ?_⟩
  · intro row hrow
    rw [hagree row hrow]
    exact hdecides row hrow
  · intro row hrow _ hholds
    exact ⟨(hagree row hrow).symm.trans hholds, hwritable row hrow⟩
  · intro row hrow _ hholds
    exact (hagree row (hdrawn.1 row hrow)).trans hholds

/-- A memory of some of three items, one on a page, all but a fourth one asked for. -/
theorem dependable_grouped :
    (∀ row ∈ Grouped.three, Grouped.pager.sealer.schema.HoldsKeys Grouped.order.keys row) ∧
      (∀ row ∈ Grouped.three, ∃ b, (Predicate.differ "id" (.int 4)).holds row = .ok b) ∧
      (Predicate.differ "id" (.int 4)).hasForeign = false ∧
      admitSize Grouped.pager.maxPageSize (.int 1) = .ok 1 ∧
      Dependable Grouped.pager (.differ "id" (.int 4)) Grouped.order (.int 1)
        (fun row => row ∈ Grouped.three) := by
  have hsteady : Steady Grouped.pager (.differ "id" (.int 4)) Grouped.order 1
      (fun row => row ∈ Grouped.three) :=
    steady_of_agree (fun _ _ => rfl) Grouped.decides_three Grouped.writable_three
  refine ⟨Grouped.listable_three.keys, Grouped.decides_three, rfl, rfl, ?_⟩
  exact (dependable_iff_steady (p := Grouped.pager) Grouped.listable_three.keys
    Grouped.decides_three rfl rfl).2 ⟨Value.isShowable_int (by decide), hsteady⟩

/-- **A session that passes a row over.** Both items are in the memory all the time and are matched by
everything or the first item; the second page is the end, and the second item is not shown. -/
theorem dependable_fails :
    Listable Grouped.schema Grouped.order Grouped.two ∧
      Grouped.allOrFirst.hasForeign = false ∧ Grouped.allOrFirst.Decides Grouped.two ∧
      Writable Grouped.order Grouped.two ∧ (∀ t, Grouped.boundless.sealer.exceeds t = .ok false) ∧
      ∃ first second,
        Session (Grouped.boundless.answer Grouped.allOrFirst Grouped.order (.int 1)) .first
          [⟨Grouped.two, first⟩, ⟨Grouped.two, second⟩] ∧ second.next = none ∧
        ¬Faithful Grouped.order Grouped.allOrFirst
          [⟨Grouped.two, first⟩, ⟨Grouped.two, second⟩] := by
  have hsize : admitSize Grouped.boundless.maxPageSize (.int 1) = .ok (1 : Nat) := rfl
  refine ⟨Grouped.listable_two, rfl, Grouped.decides_two, Grouped.writable_two,
    Grouped.exceeds_boundless, ?_⟩
  obtain ⟨first, hfirst⟩ := exists_firstPage (p := Grouped.boundless) (n := 1) Grouped.listable_two
    Grouped.isWritable_allOrFirst Grouped.decides_two Grouped.arranged_two fun r hr => by
      obtain rfl := Option.some.inj hr
      exact Grouped.writable_two _ List.mem_cons_self
  have hshows := shows_of_firstPage (p := Grouped.boundless) Grouped.listable_two
    Grouped.decides_two Grouped.arranged_two hfirst
  have hmarks : Grouped.boundless.sealer.Marks Grouped.order .after (some (Grouped.row "a" 1))
      first.next := hshows.next
  obtain ⟨t, hnext, hmarks⟩ := hmarks.exists_cursor
  have hkeys := Grouped.listable_two.keys _ List.mem_cons_self
  -- nothing that the normal form accepts lies behind the first item
  have hempty : windowRows Grouped.order 1 [Grouped.row "a" 1]
      (Grouped.order.valuesOf (Grouped.row "a" 1)) .after = [] := by cbv
  obtain ⟨second, hsecond⟩ := exists_answer Grouped.listable_two rfl hsize
    Grouped.arranged_normal_two hkeys Grouped.isWritable_allOrFirst Grouped.decides_normal_two hmarks
    (Grouped.exceeds_boundless t) (by
      intro o ho
      have hmem := ho.elim mem_of_nextRow mem_of_previousRow
      rw [hempty] at hmem
      exact absurd hmem List.not_mem_nil)
  have hwindow := showsWindow_of_answer Grouped.listable_two rfl hsize Grouped.arranged_normal_two
    hkeys hmarks hsecond
  have hend : second.next = none := by
    have hnone : second.next.isSome = false := (Sealer.Marks.isSome_eq hwindow.next).trans rfl
    exact Option.isSome_eq_false_iff.1 hnone |> Option.isNone_iff_eq_none.1
  refine ⟨first, second, .more ((answer_first hsize).trans hfirst) hnext (.one hsecond), hend, ?_⟩
  intro hfaithful
  have hshown := hfaithful.complete _ rfl hend (Grouped.row "a" 2) (by
    intro step hstep
    rcases List.mem_pair.1 hstep with rfl | rfl <;> simp [Grouped.two]) (by cbv)
  rw [shown_cons, shown_singleton, hshows.rows_eq, hwindow.rows_eq, hempty,
    List.append_nil] at hshown
  have heq := List.mem_singleton.1 hshown
  have hids := Value.int.inj (congrArg (fun row => row.fieldOrNull "id") heq)
  exact absurd hids (by decide)

end Pager

end Listing
