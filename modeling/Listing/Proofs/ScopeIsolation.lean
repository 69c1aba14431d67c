import Mathlib
import Listing.Proofs.KeysetPages
import Listing.Proofs.QuietValues
import Listing.Service

/-!
# Scopes isolate

A service reads its memory through predicates that ask the scope first and ask nothing else of a row
that is out of scope (`Predicate.GuardedBy`). What is answered is therefore decided by the rows in
scope: rows of other scopes change neither pages, cursors and numbers nor faults
(`Service.list_isolated`).
-/

set_option autoImplicit false

namespace Listing

/-! ## Guards -/

namespace Predicate

/-- Asking the predicate asks a guard first, and where the guard does not hold nothing else. -/
def GuardedBy (g q : Predicate) : Prop :=
  ∃ rest : Value → Result Bool, ∀ row,
    q.holds row = (do if ← g.holds row then rest row else return false)

variable {g p q : Predicate} {rows kept : List Value}

/-- A conjunction is guarded by the normal form of its first part. -/
theorem guardedBy_conjoin (p : Predicate) (parts : List Predicate) :
    p.normal.GuardedBy (conjoin (p :: parts)) := by
  refine ⟨holdsAll (parts.map normal), ?_⟩
  intro row
  rw [holds_conjoin, List.map_cons, holdsAll]

theorem GuardedBy.trans (hgp : g.GuardedBy p) (hpq : p.GuardedBy q) : g.GuardedBy q := by
  obtain ⟨rest, hrest⟩ := hgp
  obtain ⟨rest', hrest'⟩ := hpq
  refine ⟨fun row => (do if ← rest row then rest' row else return false), ?_⟩
  intro row
  rw [hrest', hrest]
  cases g.holds row with
  | error e => rfl
  | ok b => cases b <;> rfl

/-- Rows that satisfy a guarded predicate satisfy the guard. -/
theorem GuardedBy.holds_guard (h : g.GuardedBy q) {row : Value} (hq : q.holds row = .ok true) :
    g.holds row = .ok true := by
  obtain ⟨rest, hrest⟩ := h
  rw [hrest] at hq
  obtain ⟨b, hb, hq⟩ := Result.bind_eq_ok.1 hq
  cases b with
  | true => exact hb
  | false => exact absurd (Except.ok.inj hq) Bool.false_ne_true

/-- **Rows that fail the guard are as good as not there**, when faults are asked for as well. -/
theorem GuardedBy.select_eq (h : g.GuardedBy q) : ∀ {rows kept : List Value},
    select g.holds rows = .ok kept → select q.holds rows = select q.holds kept := by
  obtain ⟨rest, hrest⟩ := h
  intro rows
  induction rows with
  | nil =>
      intro kept hkept
      obtain rfl := Except.ok.inj hkept
      rfl
  | cons row rows ih =>
      intro kept hkept
      rw [select] at hkept
      obtain ⟨b, hb, hkept⟩ := Result.bind_eq_ok.1 hkept
      obtain ⟨others, hothers, hkept⟩ := Result.bind_eq_ok.1 hkept
      obtain rfl := Except.ok.inj hkept
      rw [select, ih hothers]
      cases b with
      -- a row that is kept is asked the same on either side
      | true => rw [if_pos rfl, select]
      | false =>
          -- a row that is not kept is not asked for anything else and is left out
          have hfalse : q.holds row = .ok false := by
            rw [hrest, hb]
            rfl
          rw [hfalse, if_neg Bool.false_ne_true, Result.ok_bind]
          cases select q.holds others <;> rfl

end Predicate

/-! ## Guarded pages -/

theorem Memory.window_eq_of_guarded {g : Predicate} {rows kept : List Value} {w : Window}
    (hw : g.GuardedBy w.predicate) (hkept : Predicate.select g.holds rows = .ok kept) :
    window rows w = window kept w := by
  rw [window, window, matching, matching, hw.select_eq hkept]

namespace Traced

variable {α β : Type}

/-- Computations that go on alike from the same result are the same. -/
theorem bind_congr {x : Traced α} {f f' : α → Traced β}
    (h : ∀ a, x.result = .ok a → f a = f' a) : (x >>= f) = (x >>= f') := by
  change x.andThen f = x.andThen f'
  rw [andThen, andThen]
  cases hx : x.result with
  | error e => rfl
  | ok a => simp only [h a hx]

end Traced

namespace Pager

variable {p : Pager} {g criteria : Predicate} {order : SortOrder} {size : Value}
  {rows kept : List Value}

theorem fetch_onRows_eq {w : Window} (hw : g.GuardedBy w.predicate)
    (hkept : Predicate.select g.holds rows = .ok kept) :
    (p.onRows rows).fetch w = (p.onRows kept).fetch w := by
  have hwindow := Memory.window_eq_of_guarded hw hkept
  rw [fetch, fetch]
  apply Traced.bind_congr
  intro _ _
  simp only [onRows, Memory.store, Memory.inService, Memory.ofRows, hwindow]

theorem count_onRows_eq (hcriteria : g.GuardedBy criteria)
    (hkept : Predicate.select g.holds rows = .ok kept) :
    (p.onRows rows).store.count criteria = (p.onRows kept).store.count criteria := by
  have hmatching : Memory.matching rows criteria = Memory.matching kept criteria :=
    hcriteria.select_eq hkept
  simp only [onRows, Memory.store, Memory.inService, Memory.ofRows, hmatching]

/-- What a page asks for is guarded like its criteria. -/
theorem guardedBy_wanted (hnormal : criteria.normal = criteria) (hcriteria : g.GuardedBy criteria)
    {from? : Option Position} {q : Predicate} (hq : wanted criteria order from? = .ok q) :
    g.GuardedBy q := by
  cases from? with
  | none =>
      obtain rfl := Except.ok.inj hq
      exact hcriteria
  | some here =>
      rw [wanted] at hq
      obtain ⟨after, -, hq⟩ := Result.bind_eq_ok.1 hq
      rw [Predicate.conjoined] at hq
      split at hq
      · exact absurd hq (by simp)
      · obtain rfl := Except.ok.inj hq
        -- the criteria are the first part, and they are their own normal form
        have hfirst := Predicate.guardedBy_conjoin criteria [after]
        rw [hnormal] at hfirst
        exact hcriteria.trans hfirst

section

variable (hnormal : criteria.normal = criteria) (hcriteria : g.GuardedBy criteria)
  (hkept : Predicate.select g.holds rows = .ok kept)

include hnormal hcriteria hkept

theorem forwardPage_onRows_eq (n : Int) (from? : Option Position) :
    (p.onRows rows).forwardPage criteria order n from? =
      (p.onRows kept).forwardPage criteria order n from? := by
  unfold forwardPage
  apply Traced.bind_congr
  intro q hq
  rw [Traced.result_liftM] at hq
  have hw : g.GuardedBy (Window.predicate ⟨q, order, n + 1, 0⟩) :=
    guardedBy_wanted hnormal hcriteria hq
  rw [fetch_onRows_eq hw hkept]
  rfl

theorem backwardPage_onRows_eq (n : Int) (here : Position) :
    (p.onRows rows).backwardPage criteria order n here =
      (p.onRows kept).backwardPage criteria order n here := by
  unfold backwardPage
  apply Traced.bind_congr
  intro q hq
  rw [Traced.result_liftM] at hq
  have hw : g.GuardedBy (Window.predicate ⟨q, order.reversed, n + 1, 0⟩) :=
    guardedBy_wanted hnormal hcriteria hq
  rw [fetch_onRows_eq hw hkept]
  rfl

/-- Keyset pages are decided by the rows that satisfy the guard. -/
theorem keysetPage_onRows_eq (start : Start) :
    (p.onRows rows).keysetPage criteria order size start =
      (p.onRows kept).keysetPage criteria order size start := by
  unfold keysetPage
  apply Traced.bind_congr
  intro n _
  have hstart : (p.onRows rows).startPosition order start =
      (p.onRows kept).startPosition order start := by
    cases start <;> rfl
  rw [hstart]
  apply Traced.bind_congr
  intro from? _
  unfold pageAt
  split
  · exact backwardPage_onRows_eq hnormal hcriteria hkept n _
  · exact forwardPage_onRows_eq hnormal hcriteria hkept n _

omit hnormal in
/-- So are numbered pages. -/
theorem numberedPage_onRows_eq (page : Value) :
    (p.onRows rows).numberedPage criteria order page size =
      (p.onRows kept).numberedPage criteria order page size := by
  unfold numberedPage
  apply Traced.bind_congr
  intro n _
  apply Traced.bind_congr
  intro number _
  rw [count_onRows_eq hcriteria hkept]
  apply Traced.bind_congr
  intro total _
  have hw : g.GuardedBy (Window.predicate ⟨criteria, order, n, (number - 1) * n⟩) := hcriteria
  rw [fetch_onRows_eq hw hkept]

end

/-! ## Rows of pages -/

section

variable {n : Int} {page : KeysetPage}

theorem mem_of_forwardPage {from? : Option Position}
    (h : ((p.onRows rows).forwardPage criteria order n from?).result = .ok page) :
    ∃ q, wanted criteria order from? = .ok q ∧
      ∀ row ∈ page.rows, row ∈ rows ∧ q.holds row = .ok true := by
  unfold forwardPage at h
  simp only [Traced.result_bind, Traced.result_liftM, result_fetch_onRows] at h
  obtain ⟨q, hq, h⟩ := Result.bind_eq_ok.1 h
  obtain ⟨found, hfetch, h⟩ := Result.bind_eq_ok.1 h
  obtain ⟨-, -, hfound⟩ := Result.bind_eq_ok.1 hfetch
  obtain ⟨next, -, h⟩ := Result.bind_eq_ok.1 h
  obtain ⟨previous, -, h⟩ := Result.bind_eq_ok.1 h
  obtain rfl := Except.ok.inj h
  refine ⟨q, hq, ?_⟩
  intro row hrow
  exact Memory.mem_of_window hfound row (List.mem_of_mem_take hrow)

theorem mem_of_backwardPage {here : Position}
    (h : ((p.onRows rows).backwardPage criteria order n here).result = .ok page) :
    ∃ q, wanted criteria order.reversed (some here) = .ok q ∧
      ∀ row ∈ page.rows, row ∈ rows ∧ q.holds row = .ok true := by
  unfold backwardPage at h
  simp only [Traced.result_bind, Traced.result_liftM, result_fetch_onRows] at h
  obtain ⟨q, hq, h⟩ := Result.bind_eq_ok.1 h
  obtain ⟨found, hfetch, h⟩ := Result.bind_eq_ok.1 h
  obtain ⟨-, -, hfound⟩ := Result.bind_eq_ok.1 hfetch
  obtain ⟨previous, -, h⟩ := Result.bind_eq_ok.1 h
  obtain ⟨next, -, h⟩ := Result.bind_eq_ok.1 h
  obtain rfl := Except.ok.inj h
  refine ⟨q, hq, ?_⟩
  intro row hrow
  exact Memory.mem_of_window hfound row (List.mem_of_mem_take (List.mem_reverse.1 hrow))

/-- The rows of a keyset page are rows of the memory that satisfy the guard. -/
theorem mem_of_keysetPage (hnormal : criteria.normal = criteria) (hcriteria : g.GuardedBy criteria)
    {start : Start} (h : ((p.onRows rows).keysetPage criteria order size start).result = .ok page) :
    ∀ row ∈ page.rows, row ∈ rows ∧ g.holds row = .ok true := by
  unfold keysetPage at h
  simp only [Traced.result_bind] at h
  obtain ⟨n, -, h⟩ := Result.bind_eq_ok.1 h
  obtain ⟨from?, -, h⟩ := Result.bind_eq_ok.1 h
  obtain ⟨o, start?, q, hq, hrows⟩ : ∃ o start? q, wanted criteria o start? = .ok q ∧
      ∀ row ∈ page.rows, row ∈ rows ∧ q.holds row = .ok true := by
    unfold pageAt at h
    split at h
    · obtain ⟨q, hq, hrows⟩ := mem_of_backwardPage h
      exact ⟨_, _, q, hq, hrows⟩
    · obtain ⟨q, hq, hrows⟩ := mem_of_forwardPage h
      exact ⟨_, _, q, hq, hrows⟩
  have hguard := guardedBy_wanted hnormal hcriteria hq
  intro row hrow
  obtain ⟨hmem, hholds⟩ := hrows row hrow
  exact ⟨hmem, hguard.holds_guard hholds⟩

/-- So are those of a numbered page. -/
theorem mem_of_numberedPage (hcriteria : g.GuardedBy criteria) {number : Value}
    {numbered : NumberedPage}
    (h : ((p.onRows rows).numberedPage criteria order number size).result = .ok numbered) :
    ∀ row ∈ numbered.rows, row ∈ rows ∧ g.holds row = .ok true := by
  unfold numberedPage at h
  simp only [Traced.result_bind, Traced.result_liftM, result_fetch_onRows] at h
  obtain ⟨n, -, h⟩ := Result.bind_eq_ok.1 h
  obtain ⟨i, -, h⟩ := Result.bind_eq_ok.1 h
  obtain ⟨total, -, h⟩ := Result.bind_eq_ok.1 h
  obtain ⟨found, hfetch, h⟩ := Result.bind_eq_ok.1 h
  obtain ⟨-, -, hfound⟩ := Result.bind_eq_ok.1 hfetch
  obtain rfl := Except.ok.inj h
  intro row hrow
  obtain ⟨hmem, hholds⟩ := Memory.mem_of_window hfound row hrow
  exact ⟨hmem, hcriteria.holds_guard hholds⟩

end

end Pager

/-! ## The service -/

namespace Service

/-- The service over a memory of rows. -/
def onRows (s : Service) (rows : List Value) : Service :=
  s.withStore (Memory.ofRows rows).store

/-- The rows whose value in the scope field equals a value. -/
def inScope (s : Service) (v : Value) (rows : List Value) : Result (List Value) :=
  Predicate.select (fun row => (row.fieldOrNull s.scopeField).equal v) rows

/-- The rows of an answer. -/
def Answer.rows : Answer → List Value
  | .byCursor p => p.rows
  | .byNumber p => p.rows

variable {s : Service} {r : Request} {scope : RequestScope} {p : Predicate} {q : CheckedQuery}
  {rows kept : List Value} {v : Value}

/-- What a prepared query has of its request: a page or a cursor but not both, the joined predicate,
the order, the admitted size, the number of the page as it was given, and the position of the
cursor. -/
structure PreparedFrom (s : Service) (r : Request) (scope : RequestScope) (q : CheckedQuery) :
    Prop where
  either : (!r.page.isNull && r.start.isGiven) = false
  criteria : ∃ p filter search, s.scopePredicate scope = .ok p ∧
    (Filter.compile s.schema r.filters r.junctions).result = .ok filter ∧
    (s.search.compile r.search).result = .ok search ∧
    Scope.compose (some p) filter search = .ok q.criteria
  order : SortOrder.read s.schema r.sort = .ok q.order
  size : Pager.admitSize s.pager.maxPageSize
    (if r.size.isNull then s.settings.defaultPageSize else r.size) = .ok q.size
  page : q.page = r.page
  position : if r.start.isGiven then
      ∃ here, (s.readCursor q.order r.start).result = .ok here ∧ q.position = some here
    else q.position = none

theorem preparedFrom_of_prepare (h : (s.prepare r scope).result = .ok q) :
    PreparedFrom s r scope q := by
  unfold prepare at h
  -- a request for a page by number and by cursor is refused before the scope is read
  by_cases hboth : (!r.page.isNull && r.start.isGiven) = true
  · simp only [hboth, if_true, Traced.result_bind, Traced.result_ofResult, reject,
      Result.error_bind] at h
    exact absurd h (by simp)
  · simp only [hboth, Bool.false_eq_true, if_false, Traced.result_bind, Traced.result_liftM] at h
    obtain ⟨p, hp, h⟩ := Result.bind_eq_ok.1 h
    obtain ⟨filter, hfilter, h⟩ := Result.bind_eq_ok.1 h
    obtain ⟨search, hsearch, h⟩ := Result.bind_eq_ok.1 h
    obtain ⟨criteria, hcriteria, h⟩ := Result.bind_eq_ok.1 h
    obtain ⟨order, horder, h⟩ := Result.bind_eq_ok.1 h
    obtain ⟨size, hsize, h⟩ := Result.bind_eq_ok.1 h
    have heither := (Bool.not_eq_true _).mp hboth
    by_cases hstart : r.start.isGiven = true
    · rw [if_pos hstart, Traced.result_bind] at h
      obtain ⟨position, hposition, h⟩ := Result.bind_eq_ok.1 h
      obtain ⟨here, hhere, hposition⟩ := Result.bind_eq_ok.1
        ((Traced.result_bind _ _).symm.trans hposition)
      obtain rfl := Except.ok.inj hposition
      obtain rfl := Except.ok.inj h
      refine ⟨heither, ⟨p, filter, search, hp, hfilter, hsearch, hcriteria⟩, horder, hsize, rfl, ?_⟩
      rw [if_pos hstart]
      exact ⟨here, hhere, rfl⟩
    · rw [if_neg hstart] at h
      obtain rfl := Except.ok.inj h
      refine ⟨heither, ⟨p, filter, search, hp, hfilter, hsearch, hcriteria⟩, horder, hsize, rfl, ?_⟩
      rw [if_neg hstart]

/-- A composed predicate is normal, and guarded by the normal form of its scope. -/
theorem guardedBy_of_compose {filter search criteria : Predicate}
    (h : Scope.compose (some p) filter search = .ok criteria) :
    criteria.normal = criteria ∧ p.normal.GuardedBy criteria := by
  unfold Scope.compose at h
  split at h
  · exact absurd h (by simp [reject])
  · exact absurd h (by simp [reject])
  · rename_i p' _ hp
    obtain rfl := Option.some.inj hp
    obtain ⟨normalized, -, h⟩ := Result.bind_eq_ok.1 h
    split at h
    · exact absurd h (by simp [reject])
    · rw [Predicate.conjoined] at h
      split at h
      · exact absurd h (by simp)
      · obtain rfl := Except.ok.inj h
        exact ⟨Predicate.normal_conjoin _, Predicate.guardedBy_conjoin p [filter, search]⟩

/-- So is the predicate of a prepared query. -/
theorem guardedBy_of_prepare (h : (s.prepare r scope).result = .ok q) :
    ∃ p, s.scopePredicate scope = .ok p ∧ q.criteria.normal = q.criteria ∧
      p.normal.GuardedBy q.criteria := by
  obtain ⟨p, filter, search, hp, -, -, hcriteria⟩ := (preparedFrom_of_prepare h).criteria
  exact ⟨p, hp, guardedBy_of_compose hcriteria⟩

/-- The answer is decided by the rows that satisfy the scope. -/
theorem list_onRows_eq (hscope : s.scopePredicate scope = .ok p)
    (hkept : Predicate.select p.normal.holds rows = .ok kept) :
    (s.onRows rows).list r scope = (s.onRows kept).list r scope := by
  have hprepare : (s.onRows rows).prepare r scope = (s.onRows kept).prepare r scope := rfl
  unfold list
  rw [hprepare]
  apply Traced.bind_congr
  intro q hq
  obtain ⟨p', hp', hnormal, hguard⟩ := guardedBy_of_prepare hq
  obtain rfl : p = p' := Except.ok.inj (hscope.symm.trans hp')
  apply Traced.bind_congr
  intro _ _
  apply Traced.bind_congr
  intro _ _
  split
  · have hpage : (s.pager.onRows rows).numberedPage q.criteria q.order q.page (.int q.size) =
        (s.pager.onRows kept).numberedPage q.criteria q.order q.page (.int q.size) :=
      Pager.numberedPage_onRows_eq hguard hkept q.page
    change ((s.pager.onRows rows).numberedPage _ _ _ _ >>= _) = _
    rw [hpage]
    rfl
  · have hpage : ∀ start, (s.pager.onRows rows).keysetPage q.criteria q.order (.int q.size) start =
        (s.pager.onRows kept).keysetPage q.criteria q.order (.int q.size) start :=
      fun start => Pager.keysetPage_onRows_eq hnormal hguard hkept start
    change ((s.pager.onRows rows).keysetPage _ _ _ _ >>= _) = _
    rw [hpage]
    rfl

/-- The rows of an answer are rows of the memory that satisfy the scope. -/
theorem mem_of_list {answer : Answer} (hscope : s.scopePredicate scope = .ok p)
    (h : ((s.onRows rows).list r scope).result = .ok answer) :
    ∀ row ∈ answer.rows, row ∈ rows ∧ p.normal.holds row = .ok true := by
  unfold list at h
  rw [Traced.result_bind] at h
  obtain ⟨q, hq, h⟩ := Result.bind_eq_ok.1 h
  obtain ⟨p', hp', hnormal, hguard⟩ := guardedBy_of_prepare hq
  obtain rfl : p = p' := Except.ok.inj (hscope.symm.trans hp')
  rw [Traced.result_bind] at h
  obtain ⟨text, -, h⟩ := Result.bind_eq_ok.1 h
  rw [Traced.result_bind] at h
  obtain ⟨-, -, h⟩ := Result.bind_eq_ok.1 h
  split at h
  · rw [Traced.result_bind] at h
    obtain ⟨page, hpage, h⟩ := Result.bind_eq_ok.1 h
    obtain rfl := Except.ok.inj h
    exact Pager.mem_of_numberedPage (p := s.pager) hguard hpage
  · rw [Traced.result_bind] at h
    obtain ⟨page, hpage, h⟩ := Result.bind_eq_ok.1 h
    obtain rfl := Except.ok.inj h
    exact Pager.mem_of_keysetPage (p := s.pager) hnormal hguard hpage

/-- A scope that is a value is missing, or asks whether the scope field equals the value. -/
theorem scopePredicate_value (s : Service) (v : Value) :
    s.scopePredicate (.value v) = reject (.missingScopeValue s.scopeField) ∨
      s.scopePredicate (.value v) = .ok (.equal s.scopeField v) := by
  change Scope.ofValue s.scopeField v = _ ∨ Scope.ofValue s.scopeField v = _
  rw [Scope.ofValue]
  split
  · exact Or.inl rfl
  · exact Or.inr rfl

/-- A request without a scope comes to nothing. -/
theorem list_of_scopePredicate_error {e : Fault} (h : s.scopePredicate scope = .error e) :
    (s.onRows rows).list r scope = (s.onRows kept).list r scope := by
  have hprepare : (s.onRows rows).prepare r scope = (s.onRows kept).prepare r scope := rfl
  unfold list
  rw [hprepare]
  apply Traced.bind_congr
  intro q hq
  obtain ⟨p, hp, -⟩ := guardedBy_of_prepare hq
  exact absurd (hp.symm.trans h) (by simp)

/-- **Scopes isolate.** For every request within a scope value, the memory may be cut down to the rows
in scope: the notes, the page and the fault are the same. The rows can be told apart whenever the
scope value and those in the scope field are quiet, and every row answered is one in scope. Within a
scope that is a predicate, every row answered satisfies its normal form. -/
theorem list_isolated (s : Service) (r : Request) (rows : List Value) :
    (∀ v, v.IsQuiet → (∀ row ∈ rows, (row.fieldOrNull s.scopeField).IsQuiet) →
      ∃ kept, s.inScope v rows = .ok kept) ∧
    (∀ v kept, s.inScope v rows = .ok kept →
      (s.onRows rows).list r (.value v) = (s.onRows kept).list r (.value v)) ∧
    (∀ v answer, ((s.onRows rows).list r (.value v)).result = .ok answer →
      ∀ row ∈ answer.rows, row ∈ rows ∧ (row.fieldOrNull s.scopeField).equal v = .ok true) ∧
    ∀ p answer, ((s.onRows rows).list r (.predicate p)).result = .ok answer →
      ∀ row ∈ answer.rows, row ∈ rows ∧ p.normal.holds row = .ok true := by
  -- a comparison with the scope value is its own normal form
  have hholds : ∀ v, (Predicate.equal s.scopeField v).normal.holds =
      fun row => (row.fieldOrNull s.scopeField).equal v := by
    intro v
    funext row
    simp only [Predicate.normal, Predicate.holds]
  refine ⟨?_, ?_, ?_, ?_⟩
  · intro v hv hrows
    have hdecided : ∀ row ∈ rows, (row.fieldOrNull s.scopeField).equal v =
        .ok ((Predicate.equal s.scopeField v).accepts row) := by
      intro row hrow
      obtain ⟨b, hb⟩ := Value.equal_of_isQuiet _ v (hrows row hrow) hv
      have hasked : (Predicate.equal s.scopeField v).holds row = .ok b := by
        rw [Predicate.holds, hb]
      rw [Predicate.accepts_of_holds hasked, hb]
    exact ⟨_, Predicate.select_eq_filter _ _ rows hdecided⟩
  · intro v kept hkept
    rcases s.scopePredicate_value v with hscope | hscope
    · exact list_of_scopePredicate_error hscope
    · apply list_onRows_eq hscope
      rw [hholds]
      exact hkept
  · intro v answer hanswer row hrow
    rcases s.scopePredicate_value v with hscope | hscope
    · obtain ⟨q, hq, -⟩ := Result.bind_eq_ok.1 ((Traced.result_bind _ _).symm.trans hanswer)
      obtain ⟨p, hp, -⟩ := guardedBy_of_prepare hq
      exact absurd (hp.symm.trans hscope) (by simp [reject])
    · obtain ⟨hmem, hrow⟩ := mem_of_list hscope hanswer row hrow
      rw [hholds] at hrow
      exact ⟨hmem, hrow⟩
  · intro p answer hanswer
    exact mem_of_list rfl hanswer

end Service

namespace Grouped

/-- A service of items within their group. -/
def service : Service where
  schema := schema
  settings := ⟨.text "a secret of some length", .int 20, .int 100, .int Sealer.lengthLimit⟩
  scopeField := "group"
  search := ⟨"items", []⟩
  pager := pager

/-- The request for the first items. -/
def request : Request :=
  ⟨[], [], .null, .null, .null, .null, .first⟩

end Grouped

namespace Service

/-- Three items in two groups: within the second group the item of the first one is as good as not
there. -/
theorem list_isolated_grouped :
    (∃ kept, Grouped.service.inScope (.text "b") Grouped.three = .ok kept) ∧
      Grouped.service.inScope (.text "b") Grouped.three =
        .ok [Grouped.row "b" 3, Grouped.row "b" 1] ∧
      (Grouped.service.onRows Grouped.three).list Grouped.request (.value (.text "b")) =
        (Grouped.service.onRows [Grouped.row "b" 3, Grouped.row "b" 1]).list Grouped.request
          (.value (.text "b")) ∧
      ∃ answer, ((Grouped.service.onRows Grouped.three).list Grouped.request
          (.value (.text "b"))).result = .ok answer ∧
        answer.rows = [Grouped.row "b" 3, Grouped.row "b" 1] ∧
        (∀ row ∈ answer.rows, row ∈ Grouped.three ∧
          (row.fieldOrNull "group").equal (.text "b") = .ok true) ∧
        ∀ row ∈ answer.rows, row ∈ Grouped.three ∧
          (Predicate.equal "group" (.text "b")).normal.holds row = .ok true := by
  have hkept : Grouped.service.inScope (.text "b") Grouped.three =
      .ok [Grouped.row "b" 3, Grouped.row "b" 1] := by cbv
  have hanswer : ((Grouped.service.onRows Grouped.three).list Grouped.request
      (.value (.text "b"))).result =
        .ok (.byCursor ⟨[Grouped.row "b" 3, Grouped.row "b" 1], none, none⟩) := by cbv
  have hgiven : ((Grouped.service.onRows Grouped.three).list Grouped.request
      (.predicate (.equal "group" (.text "b")))).result =
        .ok (.byCursor ⟨[Grouped.row "b" 3, Grouped.row "b" 1], none, none⟩) := by cbv
  obtain ⟨htold, hsame, hvalue, hpredicate⟩ :=
    list_isolated Grouped.service Grouped.request Grouped.three
  refine ⟨htold (.text "b") (by simp only [Value.IsQuiet]) ?_, hkept,
    hsame _ _ hkept, _, hanswer, rfl, hvalue _ _ hanswer, hpredicate _ _ hgiven⟩
  intro row hrow
  rcases List.mem_cons.1 hrow with rfl | hrow
  · cbv
  · rcases List.mem_pair.1 hrow with rfl | rfl <;> cbv

end Service

end Listing
