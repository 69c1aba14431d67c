import Listing.Proofs.RowFaults
import Listing.Proofs.ScopeIsolation
import Listing.Proofs.TracedCalls

/-!
# Calls to the store

A service checks a whole request before it asks its store for anything. So a request that is refused
has left the store alone, a page has cost exactly the calls that its query stands for
(`Service.Answer.Asked`), and a store that fails stops the request at the first of these calls
(`Service.list_checks_first`).
-/

set_option autoImplicit false

namespace Listing

/-! ## Rows in memory -/

/-- A store that notes each call, once, and makes no reports. -/
structure Store.IsPlain (st : Store) : Prop where
  calls_fetch (w : Window) : (st.fetch w).calls = [.fetch w]
  calls_count (p : Predicate) : (st.count p).calls = [.count p]
  fetch_fails (w : Window) : FailsPlainly (st.fetch w).result
  count_fails (p : Predicate) : FailsPlainly (st.count p).result

namespace Memory

variable {m : Memory} {e : Fault}

theorem calls_fetch (m : Memory) (w : Window) : (m.store.fetch w).calls = [.fetch w] := by
  refine Traced.calls_bind_of_quiet fun _ => ?_
  exact Traced.calls_bind_eq_nil rfl fun _ => rfl

theorem calls_count (m : Memory) (p : Predicate) : (m.store.count p).calls = [.count p] := by
  refine Traced.calls_bind_of_quiet fun _ => ?_
  exact Traced.calls_bind_eq_nil rfl fun _ => Traced.calls_bind_eq_nil rfl fun _ => rfl

theorem failsPlainly_inService (h : ∀ e ∈ m.failure, e.IsPlain) : FailsPlainly m.inService := by
  rw [inService]
  split
  · exact failsOnly_ok _
  · exact failsOnly_error (h _ (by assumption))

/-- Whatever the rows hold, a memory is a plain store if the fault it is set to fail by is
plain. -/
theorem isPlain_store (h : ∀ e ∈ m.failure, e.IsPlain) : m.store.IsPlain where
  calls_fetch := m.calls_fetch
  calls_count := m.calls_count
  fetch_fails w := by
    simp only [store, Traced.result_bind, Traced.result_note, Traced.result_liftM, Result.ok_bind]
    exact (failsPlainly_inService h).bind fun _ _ => failsPlainly_window m.rows w
  count_fails p := by
    simp only [store, Traced.result_bind, Traced.result_note, Traced.result_liftM, Result.ok_bind]
    refine (failsPlainly_inService h).bind fun _ _ => ?_
    exact (failsPlainly_matching m.rows p).bind_pure _

theorem fetch_stopsAtCall (h : m.failure = some e) (w : Window) :
    Traced.StopsAtCall e (m.store.fetch w) ((ofRows m.rows).store.fetch w) := by
  intro rows _
  refine ⟨?_, .fetch w, ?_, m.calls_fetch w⟩
  · simp [store, inService, h, Result.ok_bind, Result.error_bind]
  · rw [calls_fetch, List.head?_cons]

theorem count_stopsAtCall (h : m.failure = some e) (p : Predicate) :
    Traced.StopsAtCall e (m.store.count p) ((ofRows m.rows).store.count p) := by
  intro n _
  refine ⟨?_, .count p, ?_, m.calls_count p⟩
  · simp [store, inService, h, Result.ok_bind, Result.error_bind]
  · rw [calls_count, List.head?_cons]

end Memory

/-! ## Parts of a request -/

theorem Sealer.calls_resume (s : Sealer) (order : SortOrder) (cursor : Value) :
    (s.resume order cursor).calls = [] := by
  rw [Sealer.resume]
  split
  · exact Traced.calls_pure _
  · exact Traced.calls_ofResult _
  · exact Traced.calls_bind_eq_nil rfl fun _ => rfl

theorem Filter.calls_compile (s : Schema) (filters junctions : List (String × Value)) :
    (Filter.compile s filters junctions).calls = [] := by
  apply Traced.calls_bind_eq_nil rfl
  intro clauses
  apply Traced.calls_bind_eq_nil rfl
  intro p
  dsimp only
  split
  · exact Traced.calls_bind_eq_nil rfl fun _ => rfl
  · rfl

theorem Search.calls_compile (s : Search) (term : Value) : (s.compile term).calls = [] := by
  unfold Search.compile
  split
  · rfl
  · split
    · rfl
    · exact Traced.calls_bind_eq_nil rfl fun _ => rfl
  · rfl

/-! ## Pages -/

namespace Pager

variable {p : Pager} {m : Memory} {e : Fault} {criteria : Predicate} {order : SortOrder}
  {size : Value}

/-- The pager over another store. -/
def withStore (p : Pager) (store : Store) : Pager :=
  { p with store }

/-- The window that a page found by cursor is read from: one row more than the page shows, and past
a position only the rows on its side, read away from it. -/
def pageWindow (criteria : Predicate) (order : SortOrder) (size : Int) : Option Position → Window
  | none => ⟨criteria, order, size + 1, 0⟩
  | some ⟨values, .after⟩ =>
    ⟨.conjoin [criteria, Keyset.strictlyAfter order values], order, size + 1, 0⟩
  | some ⟨values, .before⟩ =>
    ⟨.conjoin [criteria, Keyset.strictlyAfter order.reversed values], order.reversed, size + 1, 0⟩

theorem eq_of_wanted {here : Position} {q : Predicate}
    (h : wanted criteria order (some here) = .ok q) :
    q = .conjoin [criteria, Keyset.strictlyAfter order here.values] := by
  obtain ⟨keyset, hkeyset, hq⟩ := Result.bind_eq_ok.1 h
  rw [Keyset.predicate] at hkeyset
  split at hkeyset
  · obtain rfl := Except.ok.inj hkeyset
    rw [Predicate.conjoined] at hq
    split at hq
    · exact absurd hq (by simp)
    · exact (Except.ok.inj hq).symm
  · exact absurd hkeyset (by simp)

theorem eq_of_admitPage {page : Value} {n : Int} (h : admitPage page = .ok n) : page = .int n := by
  cases page with
  | int i =>
      rw [admitPage] at h
      split at h
      · exact absurd h (rejectWith_ne_ok _ _)
      · rw [Except.ok.inj h]
  | _ => exact absurd h (rejectWith_ne_ok _ _)

theorem failsPlainly_sealOptional (p : Pager) (order : SortOrder) (side : Side)
    (row : Option Value) : FailsPlainly (p.sealOptional order side row) := by
  cases row with
  | none => exact failsOnly_ok _
  | some r => exact (p.sealer.failsPlainly_sealRow order r side).bind_pure _

/-! ### Calls of pages -/

theorem calls_startPosition (p : Pager) (order : SortOrder) (start : Start) :
    (p.startPosition order start).calls = [] := by
  unfold startPosition
  split
  · exact Traced.calls_pure _
  · exact Traced.calls_pure _
  · exact Traced.calls_bind_eq_nil (p.sealer.calls_resume order _) fun _ => rfl
  · exact Traced.calls_pure _
  · exact Traced.calls_ofResult _

/-- Rows are fetched by one call, after the predicate has been written. -/
theorem calls_fetch (hp : p.store.IsPlain) {w : Window} {rows : List Value}
    (h : (p.fetch w).result = .ok rows) : (p.fetch w).calls = [.fetch w] := by
  obtain ⟨text, -, h, hcalls⟩ := Traced.exists_of_bind_eq_ok h
  obtain ⟨-, -, -, hcalls'⟩ := Traced.exists_of_bind_eq_ok h
  rw [fetch, hcalls, hcalls', hp.calls_fetch]
  rfl

theorem failsPlainly_fetch (hp : p.store.IsPlain) (w : Window) :
    FailsPlainly (p.fetch w).result := by
  rw [fetch, Traced.result_bind, Traced.result_liftM]
  refine w.predicate.failsPlainly_written.bind fun text _ => ?_
  rw [Traced.result_bind, Traced.result_log, Result.ok_bind]
  exact hp.fetch_fails w

/-- Rows that are fetched and turned into a page fail plainly if the page does. -/
theorem failsPlainly_fetch_bind (hp : p.store.IsPlain) (w : Window)
    {page : List Value → Result KeysetPage} (hpage : ∀ rows, FailsPlainly (page rows)) :
    FailsPlainly (p.fetch w >>= fun rows => (liftM (page rows) : Traced KeysetPage)).result := by
  rw [Traced.result_bind]
  exact (failsPlainly_fetch hp w).bind fun rows _ => hpage rows

/-- So do rows that are counted and then fetched. -/
theorem failsPlainly_count_fetch (hp : p.store.IsPlain) (w : Window)
    (page : Nat → List Value → NumberedPage) :
    FailsPlainly (p.store.count criteria >>= fun total => p.fetch w >>= fun rows =>
      (pure (page total rows) : Traced NumberedPage)).result := by
  simp only [Traced.result_bind]
  refine (hp.count_fails criteria).bind fun total _ => ?_
  exact (failsPlainly_fetch hp w).bind_pure _

theorem fetch_stopsAtCall (p : Pager) (h : m.failure = some e) (w : Window) :
    Traced.StopsAtCall e ((p.withStore m.store).fetch w) ((p.onRows m.rows).fetch w) :=
  Traced.StopsAtCall.after (Traced.calls_liftM _) fun _ _ =>
    Traced.StopsAtCall.after rfl fun _ _ => Memory.fetch_stopsAtCall h w

/-! ### Pages found by cursor -/

/-- A page made of one fetch, between two computations that ask for nothing. -/
def oneFetch (p : Pager) (q : Result Predicate) (order : SortOrder) (limit : Int)
    (page : List Value → Result KeysetPage) : Traced KeysetPage := do
  let rows ← p.fetch ⟨← q, order, limit, 0⟩
  page rows

section

variable {q : Result Predicate} {limit : Int} {page : List Value → Result KeysetPage}

theorem oneFetch_reportsFirst (hp : p.store.IsPlain) (hpage : ∀ rows, FailsPlainly (page rows)) :
    (p.oneFetch q order limit page).ReportsFirst := by
  apply Traced.ReportsFirst.bind (Traced.calls_liftM q)
  intro asked _
  exact Traced.reportsFirst_of_failsPlainly (failsPlainly_fetch_bind hp _ hpage)

theorem calls_oneFetch (hp : p.store.IsPlain) {out : KeysetPage}
    (h : (p.oneFetch q order limit page).result = .ok out) :
    ∃ asked rows, q = .ok asked ∧ page rows = .ok out ∧
      (p.oneFetch q order limit page).calls = [.fetch ⟨asked, order, limit, 0⟩] := by
  obtain ⟨asked, hasked, h, hcalls⟩ := Traced.exists_of_bind_eq_ok h
  obtain ⟨rows, hrows, hout, -⟩ := Traced.exists_of_bind_eq_ok h
  refine ⟨asked, rows, hasked, hout, ?_⟩
  rw [oneFetch, hcalls, Traced.calls_liftM, List.nil_append,
    Traced.calls_bind_of_quiet fun _ => Traced.calls_liftM _, calls_fetch hp hrows]

theorem oneFetch_stopsAtCall (p : Pager) (h : m.failure = some e) :
    Traced.StopsAtCall e ((p.withStore m.store).oneFetch q order limit page)
      ((p.onRows m.rows).oneFetch q order limit page) := by
  apply Traced.StopsAtCall.after (Traced.calls_liftM q)
  intro asked _
  exact (p.fetch_stopsAtCall h _).bind

end

/-- Seals a row on one side and another on the other side, in this order, for a page. -/
def sealBoth (p : Pager) (order : SortOrder) (first second : Side × Option Value)
    (page : Option String → Option String → KeysetPage) : Result KeysetPage := do
  let a ← p.sealOptional order first.1 first.2
  let b ← p.sealOptional order second.1 second.2
  return page a b

theorem failsPlainly_sealBoth (p : Pager) (order : SortOrder) (first second : Side × Option Value)
    (page : Option String → Option String → KeysetPage) :
    FailsPlainly (p.sealBoth order first second page) := by
  apply (failsPlainly_sealOptional p order first.1 first.2).bind_both
  exact failsPlainly_sealOptional p order second.1 second.2

theorem exists_of_sealBoth {first second : Side × Option Value}
    {page : Option String → Option String → KeysetPage} {out : KeysetPage}
    (h : p.sealBoth order first second page = .ok out) : ∃ a b, out = page a b := by
  obtain ⟨a, -, h⟩ := Result.bind_eq_ok.1 h
  obtain ⟨b, -, h⟩ := Result.bind_eq_ok.1 h
  exact ⟨a, b, (Except.ok.inj h).symm⟩

theorem forwardPage_eq (p : Pager) (st : Store) (criteria : Predicate) (order : SortOrder) (n : Nat)
    (from? : Option Position) :
    (p.withStore st).forwardPage criteria order n from? =
      (p.withStore st).oneFetch (wanted criteria order from?) order (n + 1) fun found =>
        p.sealBoth order
          (.after, if (n : Int) < found.length then (found.take n).getLast? else none)
          (.before, if from?.isSome then (found.take n).head? else none)
          fun next previous => ⟨found.take n, next, previous⟩ := by
  unfold forwardPage oneFetch sealBoth
  simp only [Traced.liftM_bind]
  cases wanted criteria order from? <;> rfl

/-- The page before a position is sealed on its far side first. -/
theorem backwardPage_eq (p : Pager) (st : Store) (criteria : Predicate) (order : SortOrder)
    (n : Nat) (here : Position) :
    (p.withStore st).backwardPage criteria order n here =
      (p.withStore st).oneFetch (wanted criteria order.reversed (some here)) order.reversed (n + 1)
        fun found =>
          p.sealBoth order
            (.before, if (n : Int) < found.length then (found.take n).reverse.head? else none)
            (.after, (found.take n).reverse.getLast?)
            fun previous next => ⟨(found.take n).reverse, next, previous⟩ := by
  unfold backwardPage oneFetch sealBoth
  simp only [Traced.liftM_bind]
  cases wanted criteria order.reversed (some here) <;> rfl

/-- Over every store, the page is one fetch of the window, between two computations that ask for
nothing. -/
def ReadsWindow (p : Pager) (w : Window) (n : Nat) (x : Store → Traced KeysetPage) : Prop :=
  ∃ (q : Result Predicate) (order : SortOrder) (page : List Value → Result KeysetPage),
    (∀ asked, q = .ok asked → (⟨asked, order, n + 1, 0⟩ : Window) = w) ∧
    (∀ rows, FailsPlainly (page rows) ∧ ∀ out, page rows = .ok out → out.rows.length ≤ n) ∧
    ∀ st, x st = (p.withStore st).oneFetch q order (n + 1) page

theorem readsWindow_forward {w : Window} {n : Nat} {from? : Option Position}
    (hw : ∀ asked, wanted criteria order from? = .ok asked →
      (⟨asked, order, n + 1, 0⟩ : Window) = w) :
    p.ReadsWindow w n fun st => (p.withStore st).forwardPage criteria order n from? := by
  refine ⟨_, _, _, hw, fun rows => ?_, fun st => forwardPage_eq p st criteria order n from?⟩
  refine ⟨failsPlainly_sealBoth p order _ _ _, fun out hout => ?_⟩
  obtain ⟨next, previous, rfl⟩ := exists_of_sealBoth hout
  exact List.length_take_le n rows

theorem readsWindow_backward {w : Window} {n : Nat} {here : Position}
    (hw : ∀ asked, wanted criteria order.reversed (some here) = .ok asked →
      (⟨asked, order.reversed, n + 1, 0⟩ : Window) = w) :
    p.ReadsWindow w n fun st => (p.withStore st).backwardPage criteria order n here := by
  refine ⟨_, _, _, hw, fun rows => ?_, fun st => backwardPage_eq p st criteria order n here⟩
  refine ⟨failsPlainly_sealBoth p order _ _ _, fun out hout => ?_⟩
  obtain ⟨previous, next, rfl⟩ := exists_of_sealBoth hout
  rw [List.length_reverse]
  exact List.length_take_le n rows

/-- A page at a position reads the window of the position. -/
theorem readsWindow_pageAt (p : Pager) (criteria : Predicate) (order : SortOrder) (n : Nat)
    (from? : Option Position) :
    p.ReadsWindow (pageWindow criteria order n from?) n fun st =>
      (p.withStore st).pageAt criteria order n from? := by
  match from? with
  | none =>
      apply readsWindow_forward
      intro asked h
      rw [← Except.ok.inj h]
      rfl
  | some ⟨values, .after⟩ =>
      apply readsWindow_forward
      intro asked h
      rw [eq_of_wanted h]
      rfl
  | some ⟨values, .before⟩ =>
      apply readsWindow_backward
      intro asked h
      rw [eq_of_wanted h]
      rfl

section

variable {w : Window} {n : Nat} {x : Store → Traced KeysetPage}

theorem ReadsWindow.reportsFirst (h : p.ReadsWindow w n x) {st : Store} (hst : st.IsPlain) :
    (x st).ReportsFirst := by
  obtain ⟨q, order, page, -, hpage, hx⟩ := h
  rw [hx st]
  exact oneFetch_reportsFirst hst fun rows => (hpage rows).1

theorem ReadsWindow.calls_eq (h : p.ReadsWindow w n x) {st : Store} (hst : st.IsPlain)
    {out : KeysetPage} (hout : (x st).result = .ok out) :
    out.rows.length ≤ n ∧ (x st).calls = [.fetch w] := by
  obtain ⟨q, order, page, hw, hpage, hx⟩ := h
  rw [hx st] at hout ⊢
  obtain ⟨asked, rows, hq, hrows, hcalls⟩ := calls_oneFetch hst hout
  refine ⟨(hpage rows).2 out hrows, ?_⟩
  rw [hcalls, hw asked hq]

theorem ReadsWindow.stopsAtCall (h : p.ReadsWindow w n x) (hm : m.failure = some e) :
    Traced.StopsAtCall e (x m.store) (x (Memory.ofRows m.rows).store) := by
  obtain ⟨q, order, page, -, -, hx⟩ := h
  rw [hx, hx]
  exact oneFetch_stopsAtCall p hm

end

/-- An admitted size is the natural number that was given. -/
theorem exists_nat_of_admitSize {most : Value} {k : Int} (h : admitSize most size = .ok k) :
    ∃ n : Nat, k = n ∧ size = .int n := by
  obtain ⟨hsize, hk⟩ := eq_of_admitSize h
  obtain ⟨n, rfl⟩ := Int.eq_ofNat_of_zero_le (show 0 ≤ k by omega)
  exact ⟨n, rfl, hsize⟩

/-- Size and position are checked before the store is asked for a page found by cursor. -/
theorem keysetPage_reportsFirst (p : Pager) {st : Store} (hst : st.IsPlain) (start : Start) :
    ((p.withStore st).keysetPage criteria order size start).ReportsFirst := by
  apply Traced.ReportsFirst.bind (Traced.calls_liftM _)
  intro k hk
  obtain ⟨n, rfl, -⟩ := exists_nat_of_admitSize hk
  apply Traced.ReportsFirst.bind (calls_startPosition _ order start)
  intro from? _
  exact (readsWindow_pageAt p criteria order n from?).reportsFirst hst

theorem calls_keysetPage (p : Pager) {st : Store} (hst : st.IsPlain) {start : Start}
    {from? : Option Position} (hstart : (p.startPosition order start).result = .ok from?)
    {out : KeysetPage}
    (h : ((p.withStore st).keysetPage criteria order size start).result = .ok out) :
    ∃ n : Nat, size = .int n ∧ out.rows.length ≤ n ∧
      ((p.withStore st).keysetPage criteria order size start).calls =
        [.fetch (pageWindow criteria order n from?)] := by
  obtain ⟨k, hk, h, hcalls⟩ := Traced.exists_of_bind_eq_ok h
  obtain ⟨n, rfl, hsize⟩ := exists_nat_of_admitSize hk
  obtain ⟨from', hfrom, h, hcalls'⟩ := Traced.exists_of_bind_eq_ok h
  obtain rfl := Except.ok.inj (hfrom.symm.trans hstart)
  obtain ⟨hlength, hcalls''⟩ := (readsWindow_pageAt p criteria order n from').calls_eq hst h
  refine ⟨n, hsize, hlength, ?_⟩
  rw [keysetPage, hcalls, hcalls', Traced.calls_liftM, calls_startPosition, hcalls'']
  rfl

theorem keysetPage_stopsAtCall (p : Pager) (hm : m.failure = some e) (start : Start) :
    Traced.StopsAtCall e ((p.withStore m.store).keysetPage criteria order size start)
      ((p.onRows m.rows).keysetPage criteria order size start) := by
  apply Traced.StopsAtCall.after (Traced.calls_liftM _)
  intro k hk
  obtain ⟨n, rfl, -⟩ := exists_nat_of_admitSize hk
  apply Traced.StopsAtCall.after (calls_startPosition _ order start)
  intro from? _
  exact (readsWindow_pageAt p criteria order n from?).stopsAtCall hm

/-! ### Pages found by number -/

/-- Size and number are checked before the store is asked for a page found by number. -/
theorem numberedPage_reportsFirst (hp : p.store.IsPlain) (page : Value) :
    (p.numberedPage criteria order page size).ReportsFirst := by
  apply Traced.ReportsFirst.bind (Traced.calls_liftM _)
  intro n _
  apply Traced.ReportsFirst.bind (Traced.calls_liftM _)
  intro number _
  exact Traced.reportsFirst_of_failsPlainly (failsPlainly_count_fetch hp _ _)

theorem calls_numberedPage (hp : p.store.IsPlain) {page : Value} {out : NumberedPage}
    (h : (p.numberedPage criteria order page size).result = .ok out) :
    page = .int out.page ∧ size = .int out.size ∧
      (p.numberedPage criteria order page size).calls =
        [.count criteria, .fetch ⟨criteria, order, out.size, (out.page - 1) * out.size⟩] := by
  obtain ⟨n, hn, h, hcalls⟩ := Traced.exists_of_bind_eq_ok h
  obtain ⟨number, hnumber, h, hcalls'⟩ := Traced.exists_of_bind_eq_ok h
  obtain ⟨total, -, h, hcounted⟩ := Traced.exists_of_bind_eq_ok h
  obtain ⟨rows, hrows, h, hfetched⟩ := Traced.exists_of_bind_eq_ok h
  obtain rfl := Except.ok.inj h
  refine ⟨eq_of_admitPage hnumber, (eq_of_admitSize hn).1, ?_⟩
  rw [numberedPage, hcalls, hcalls', hcounted, hfetched, hp.calls_count, calls_fetch hp hrows]
  rfl

theorem numberedPage_stopsAtCall (p : Pager) (hm : m.failure = some e) (page : Value) :
    Traced.StopsAtCall e ((p.withStore m.store).numberedPage criteria order page size)
      ((p.onRows m.rows).numberedPage criteria order page size) := by
  apply Traced.StopsAtCall.after (Traced.calls_liftM _)
  intro n _
  apply Traced.StopsAtCall.after (Traced.calls_liftM _)
  intro number _
  exact (Memory.count_stopsAtCall hm criteria).bind

end Pager

/-! ## Requests -/

namespace Service

variable {m : Memory} {e : Fault} {r : Request} {scope : RequestScope} {q : CheckedQuery}

/-- The calls of an answer to a query. A page found by cursor costs one fetch of the window at its
position, and shows no more rows than asked for; a page found by number costs a count and the fetch
of its range. -/
def Answer.Asked (q : CheckedQuery) : Answer → List StoreCall → Prop
  | .byCursor page, calls =>
    q.page.isNull ∧ page.rows.length ≤ q.size ∧
      calls = [.fetch (Pager.pageWindow q.criteria q.order q.size q.position)]
  | .byNumber page, calls =>
    q.page = .int page.page ∧ page.size = q.size ∧
      calls = [.count q.criteria,
        .fetch ⟨q.criteria, q.order, q.size, (page.page - 1) * q.size⟩]

/-- Reading starts at the position of a query, if it has one. -/
def startOf : Option Position → Start
  | none => .first
  | some here => .position here

/-- The page of a checked query. -/
def answerQuery (s : Service) (q : CheckedQuery) : Traced Answer := do
  if q.isByNumber then
    return .byNumber (← s.pager.numberedPage q.criteria q.order q.page (.int q.size))
  else
    return .byCursor (← s.pager.keysetPage q.criteria q.order (.int q.size) (startOf q.position))

/-- Whatever the store is, the request is prepared, the prepared query is written into the log, and
then it is answered. -/
theorem list_eq (s : Service) (st : Store) (r : Request) (scope : RequestScope) :
    (s.withStore st).list r scope = (do
      let q ← s.prepare r scope
      Traced.log .debug "list_query"
        [("entity", s.schema.entity), ("criteria", ← q.criteria.written), ("sort", q.order.signature),
          ("size", .int q.size), ("page", q.page), ("resumed", .bool q.position.isSome)]
      (s.withStore st).answerQuery q) := by
  unfold list
  apply Traced.bind_congr
  intro q _
  apply Traced.bind_congr
  intro _ _
  apply Traced.bind_congr
  intro _ _
  rw [answerQuery]
  cases q.position <;> rfl

theorem calls_readCursor (s : Service) (order : SortOrder) (start : Start) :
    (s.readCursor order start).calls = [] := by
  unfold readCursor
  split <;> exact Sealer.calls_resume _ _ _

/-- Preparing a request asks the store for nothing. -/
theorem calls_prepare (s : Service) (r : Request) (scope : RequestScope) :
    (s.prepare r scope).calls = [] := by
  have hread (order : SortOrder) :
      (some <$> s.readCursor order r.start : Traced (Option Position)).calls = [] :=
    Traced.calls_bind_eq_nil (calls_readCursor s order r.start) fun _ => rfl
  unfold prepare
  dsimp only
  split
  · rfl
  · apply Traced.calls_bind_eq_nil rfl
    intro scope
    apply Traced.calls_bind_eq_nil (Filter.calls_compile _ _ _)
    intro filter
    apply Traced.calls_bind_eq_nil (Search.calls_compile _ _)
    intro search
    apply Traced.calls_bind_eq_nil rfl
    intro criteria
    apply Traced.calls_bind_eq_nil rfl
    intro order
    apply Traced.calls_bind_eq_nil rfl
    intro size
    split
    · exact Traced.calls_bind_eq_nil (hread order) fun _ => rfl
    · rfl

theorem pager_withStore (s : Service) (st : Store) :
    (s.withStore st).pager = s.pager.withStore st :=
  rfl

theorem answerQuery_reportsFirst (s : Service) {st : Store} (hst : st.IsPlain)
    (q : CheckedQuery) : ((s.withStore st).answerQuery q).ReportsFirst := by
  rw [answerQuery]
  split
  · exact (Pager.numberedPage_reportsFirst hst q.page).bind_pure _
  · exact (s.pager.keysetPage_reportsFirst hst (startOf q.position)).bind_pure _

theorem asked_of_answerQuery (s : Service) {st : Store} (hst : st.IsPlain) {answer : Answer}
    (h : ((s.withStore st).answerQuery q).result = .ok answer) :
    answer.Asked q ((s.withStore st).answerQuery q).calls := by
  rw [answerQuery, pager_withStore] at h ⊢
  split at h
  · rename_i hnumber
    rw [if_pos hnumber]
    obtain ⟨page, hpage, hanswer, hcalls⟩ := Traced.exists_of_bind_eq_ok h
    obtain rfl := Except.ok.inj hanswer
    obtain ⟨hq, hsize, hasked⟩ := Pager.calls_numberedPage hst hpage
    have hn : q.size = page.size := Value.int.inj hsize
    refine ⟨hq, hn.symm, ?_⟩
    rw [hcalls, hasked, hn]
    rfl
  · rename_i hcursor
    rw [if_neg hcursor]
    obtain ⟨page, hpage, hanswer, hcalls⟩ := Traced.exists_of_bind_eq_ok h
    obtain rfl := Except.ok.inj hanswer
    have hstart : (s.pager.startPosition q.order (startOf q.position)).result = .ok q.position := by
      cases q.position <;> rfl
    obtain ⟨n, hsize, hlength, hasked⟩ := s.pager.calls_keysetPage hst hstart hpage
    have hn : q.size = n := Value.int.inj hsize
    refine ⟨?_, ?_, ?_⟩
    · rw [CheckedQuery.isByNumber] at hcursor
      simpa using hcursor
    · rw [hn]
      exact Int.ofNat_le.2 hlength
    · rw [hcalls, hasked, hn]
      rfl

theorem answerQuery_stopsAtCall (s : Service) (hm : m.failure = some e) (q : CheckedQuery) :
    Traced.StopsAtCall e ((s.withStore m.store).answerQuery q)
      ((s.onRows m.rows).answerQuery q) := by
  rw [answerQuery, answerQuery]
  split
  · exact (s.pager.numberedPage_stopsAtCall hm q.page).bind
  · exact (s.pager.keysetPage_stopsAtCall hm (startOf q.position)).bind

/-- **Everything about a request is checked before the memory is asked.** A request that ends in a
report has made no call; one that is answered has made the calls of the answer to its prepared
query; and where a page would have been answered, a memory set to fail ends the request by its own
fault at the first of these calls. -/
theorem list_checks_first (s : Service) {m : Memory} (hm : ∀ e ∈ m.failure, e.IsPlain)
    (r : Request) (scope : RequestScope) :
    (∀ report, ((s.withStore m.store).list r scope).result = .error (.reported report) →
      ((s.withStore m.store).list r scope).calls = []) ∧
    (∀ answer, ((s.withStore m.store).list r scope).result = .ok answer →
      ∃ q, (s.prepare r scope).result = .ok q ∧
        answer.Asked q ((s.withStore m.store).list r scope).calls) ∧
    ∀ e answer, m.failure = some e → ((s.onRows m.rows).list r scope).result = .ok answer →
      ((s.withStore m.store).list r scope).result = .error e ∧
        ∃ c, ((s.onRows m.rows).list r scope).calls.head? = some c ∧
          ((s.withStore m.store).list r scope).calls = [c] := by
  have hstore := Memory.isPlain_store hm
  refine ⟨?_, ?_, ?_⟩
  · rw [list_eq]
    change Traced.ReportsFirst _
    apply Traced.ReportsFirst.bind (calls_prepare s r scope)
    intro q _
    apply Traced.ReportsFirst.bind (Traced.calls_liftM _)
    intro _ _
    apply Traced.ReportsFirst.bind (Traced.calls_log _ _ _)
    intro _ _
    exact answerQuery_reportsFirst s hstore q
  · intro answer h
    rw [list_eq] at h ⊢
    obtain ⟨q, hq, h, hcalls⟩ := Traced.exists_of_bind_eq_ok h
    obtain ⟨text, -, h, hcalls'⟩ := Traced.exists_of_bind_eq_ok h
    obtain ⟨-, -, h, hcalls''⟩ := Traced.exists_of_bind_eq_ok h
    refine ⟨q, hq, ?_⟩
    rw [hcalls, hcalls', hcalls'', calls_prepare, Traced.calls_liftM, Traced.calls_log,
      List.nil_append, List.nil_append, List.nil_append]
    exact asked_of_answerQuery s hstore h
  · intro e answer he
    have hstops : Traced.StopsAtCall e ((s.withStore m.store).list r scope)
        ((s.onRows m.rows).list r scope) := by
      rw [onRows, list_eq, list_eq]
      apply Traced.StopsAtCall.after (calls_prepare s r scope)
      intro q _
      apply Traced.StopsAtCall.after (Traced.calls_liftM _)
      intro _ _
      apply Traced.StopsAtCall.after (Traced.calls_log _ _ _)
      intro _ _
      exact answerQuery_stopsAtCall s he q
    exact hstops answer

/-- Three items in a memory that does not reply: the request for the items of a group, which would
have been answered, ends at the fetch of their first page. -/
theorem list_checks_first_grouped :
    (∀ e ∈ (some (.outage ⟨.timeout, "no reply"⟩) : Option Fault), e.IsPlain) ∧
      ((Grouped.service.onRows Grouped.three).list Grouped.request (.value (.text "b"))).result =
        .ok (.byCursor ⟨[Grouped.row "b" 3, Grouped.row "b" 1], none, none⟩) ∧
      ((Grouped.service.withStore (Memory.store
          ⟨Grouped.three, some (.outage ⟨.timeout, "no reply"⟩)⟩)).list Grouped.request
        (.value (.text "b"))).result = .error (.outage ⟨.timeout, "no reply"⟩) ∧
      ((Grouped.service.withStore (Memory.store
          ⟨Grouped.three, some (.outage ⟨.timeout, "no reply"⟩)⟩)).list Grouped.request
        (.value (.text "b"))).calls =
          [.fetch ⟨.equal "group" (.text "b"), ⟨[⟨"id", .descending⟩], by decide⟩, 21, 0⟩] := by
  have hplain : ∀ e ∈ (some (.outage ⟨.timeout, "no reply"⟩) : Option Fault), e.IsPlain := by
    rintro e ⟨⟩
    trivial
  have hanswer : ((Grouped.service.onRows Grouped.three).list Grouped.request
      (.value (.text "b"))).result =
        .ok (.byCursor ⟨[Grouped.row "b" 3, Grouped.row "b" 1], none, none⟩) := by cbv
  have hfirst : ((Grouped.service.onRows Grouped.three).list Grouped.request
      (.value (.text "b"))).calls.head? =
        some (.fetch ⟨.equal "group" (.text "b"), ⟨[⟨"id", .descending⟩], by decide⟩, 21, 0⟩) := by
    cbv
  obtain ⟨-, -, hstops⟩ := list_checks_first Grouped.service
    (m := ⟨Grouped.three, some (.outage ⟨.timeout, "no reply"⟩)⟩) hplain Grouped.request
    (.value (.text "b"))
  obtain ⟨hresult, c, hc, hcalls⟩ := hstops _ _ rfl hanswer
  obtain rfl := Option.some.inj (hc.symm.trans hfirst)
  exact ⟨hplain, hanswer, hresult, hcalls⟩

end Service

end Listing
