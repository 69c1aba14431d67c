import Listing.Proofs.StoreCalls

/-!
# Prepared queries

A prepared query has an admitted size, which the pager admits again, and the position of an opened
cursor, which the pager takes as it is; so nothing is left to report of a page found by cursor
(`Pager.failsPlainly_keysetPage`). The number of a page is admitted by the pager alone
(`Pager.numberedPage_reports_iff`). A prepared query may therefore still be refused, for the number of
its page and for nothing else (`Service.isFinal_iff`); only where the criteria or that number cannot
be written does the fault of an integer too long for the log or the report come first.
-/

set_option autoImplicit false

namespace Listing

/-- The value can be the number of a page: an integer, counted from one. -/
def Value.IsPageNumber (v : Value) : Prop :=
  ∃ n : Int, 1 ≤ n ∧ v = .int n

namespace Report

variable {page : Value} {e : Report}

theorem failsPlainly_pageNumber (page : Value) : FailsPlainly (pageNumber page) :=
  page.failsPlainly_quotation.bind_pure _

/-- A page number is reported if it can be quoted, as a flaw of the request. -/
theorem exists_pageNumber_iff :
    (∃ e, pageNumber page = .ok e ∧ e.kind.isA .query = true) ↔ page.isQuotable = true := by
  rw [pageNumber, Value.quotation]
  split
  · next hquotable => exact iff_of_true ⟨_, rfl, rfl⟩ hquotable
  · next hlong =>
      refine iff_of_false ?_ hlong
      rintro ⟨e, h, -⟩
      exact Result.error_ne_ok _ _ h

end Report

/-- A rejection whose words raise no report of their own is that report. -/
theorem rejectWith_reports_iff {α : Type} {r : Result Report} (hr : FailsPlainly r) {e : Report} :
    (rejectWith r : Result α) = .error (.reported e) ↔ r = .ok e := by
  rw [rejectWith_eq_error_iff, or_iff_right (hr.ne_reported e)]
  simp

namespace Pager

variable {p : Pager} {criteria : Predicate} {order : SortOrder} {size : Value} {k : Int}

/-- An admitted size is admitted again. -/
theorem admitSize_of_admitSize {most : Value} (h : admitSize most size = .ok k) :
    admitSize most (.int k) = .ok k := by
  obtain ⟨rfl, -⟩ := eq_of_admitSize h
  exact h

/-- The number of a page is admitted, or reported if it can be quoted. -/
theorem admitPage_cases (page : Value) :
    (page.IsPageNumber ∧ ∃ n, admitPage page = .ok n) ∨
      (¬page.IsPageNumber ∧ admitPage page = rejectWith (Report.pageNumber page)) := by
  cases page with
  | int n =>
      rw [admitPage]
      by_cases hn : n < 1
      · right
        refine ⟨?_, if_pos hn⟩
        rintro ⟨m, hm, heq⟩
        have hnm : n = m := Value.int.inj heq
        omega
      · left
        exact ⟨⟨n, by omega, rfl⟩, n, if_neg hn⟩
  | _ =>
      right
      refine ⟨?_, rfl⟩
      rintro ⟨m, -, heq⟩
      exact absurd heq (by simp)

/-! ## Pages found by number -/

/-- Past its size, a page found by number is reported exactly for its number. -/
theorem numberedPage_reports_iff (hp : p.store.IsPlain)
    (hsize : admitSize p.maxPageSize size = .ok k) (page : Value) (e : Report) :
    (p.numberedPage criteria order page size).result = .error (.reported e) ↔
      ¬page.IsPageNumber ∧ Report.pageNumber page = .ok e := by
  rw [numberedPage, Traced.result_bind, Traced.result_liftM, hsize, Result.ok_bind,
    Traced.result_bind, Traced.result_liftM]
  rcases admitPage_cases page with ⟨hpage, n, hn⟩ | ⟨hpage, hreject⟩
  · -- what is left is to count and to fetch, which nothing is reported of
    rw [hn, Result.ok_bind]
    exact iff_of_false ((failsPlainly_count_fetch hp _ _).ne_reported e) fun h => h.1 hpage
  · rw [hreject, Result.bind_eq_error, rejectWith_reports_iff (Report.failsPlainly_pageNumber page),
      and_iff_right hpage]
    apply or_iff_left
    rintro ⟨n, hn, -⟩
    exact rejectWith_ne_ok _ n hn

/-! ## Pages found by cursor -/

/-- A position that does not match the order, and criteria that are no predicate, are plain faults. -/
theorem failsPlainly_wanted (criteria : Predicate) (order : SortOrder) (from? : Option Position) :
    FailsPlainly (wanted criteria order from?) := by
  cases from? with
  | none => exact failsOnly_ok _
  | some here =>
      have hkeyset : FailsPlainly (Keyset.predicate order here.values) := by
        rw [Keyset.predicate]
        split
        · exact failsOnly_ok _
        · exact failsOnly_error trivial
      apply hkeyset.bind
      intro keyset _
      rw [Predicate.conjoined]
      split
      · exact failsOnly_error trivial
      · exact failsOnly_ok _

theorem failsPlainly_oneFetch (hp : p.store.IsPlain) {q : Result Predicate} (hq : FailsPlainly q)
    {limit : Int} {page : List Value → Result KeysetPage} (hpage : ∀ rows, FailsPlainly (page rows)) :
    FailsPlainly (p.oneFetch q order limit page).result := by
  rw [oneFetch, Traced.result_bind]
  exact FailsOnly.bind hq fun asked _ => failsPlainly_fetch_bind hp _ hpage

theorem failsPlainly_pageAt (p : Pager) {st : Store} (hst : st.IsPlain) (n : Nat)
    (from? : Option Position) :
    FailsPlainly ((p.withStore st).pageAt criteria order n from?).result := by
  have hforward : FailsPlainly ((p.withStore st).forwardPage criteria order n from?).result := by
    rw [forwardPage_eq]
    apply failsPlainly_oneFetch hst (failsPlainly_wanted _ _ _)
    intro rows
    exact failsPlainly_sealBoth _ _ _ _ _
  match from? with
  | none => exact hforward
  | some ⟨values, .after⟩ => exact hforward
  | some ⟨values, .before⟩ =>
      rw [pageAt, backwardPage_eq]
      apply failsPlainly_oneFetch hst (failsPlainly_wanted _ _ _)
      intro rows
      exact failsPlainly_sealBoth _ _ _ _ _

/-- Past its size and its cursor, a page found by cursor is not reported for anything. -/
theorem failsPlainly_keysetPage (p : Pager) {st : Store} (hst : st.IsPlain)
    (hsize : admitSize p.maxPageSize size = .ok k) {start : Start}
    (hstart : FailsPlainly (p.startPosition order start).result) :
    FailsPlainly ((p.withStore st).keysetPage criteria order size start).result := by
  obtain ⟨n, rfl, -⟩ := exists_nat_of_admitSize hsize
  have hmost : admitSize (p.withStore st).maxPageSize size = .ok (n : Int) := hsize
  have hfrom : (p.withStore st).startPosition order start = p.startPosition order start := by
    cases start <;> rfl
  unfold keysetPage
  simp only [Traced.result_bind, Traced.result_liftM, hmost, hfrom, Result.ok_bind]
  apply hstart.bind
  intro from? _
  exact failsPlainly_pageAt p hst n from?

end Pager

namespace Request

/-- The page that a request asks for by number, if it does, can be one. -/
def FitsPage (r : Request) : Prop :=
  r.page.isNull = true ∨ r.page.IsPageNumber

end Request

namespace Service

variable {s : Service} {st : Store} {r : Request} {scope : RequestScope} {q : CheckedQuery}

/-- A query with an admitted size is reported exactly for the number of its page. -/
theorem answerQuery_reports_iff (s : Service) (hst : st.IsPlain)
    (hsize : Pager.admitSize s.pager.maxPageSize (.int q.size) = .ok q.size) (e : Report) :
    ((s.withStore st).answerQuery q).result = .error (.reported e) ↔
      q.isByNumber = true ∧ ¬q.page.IsPageNumber ∧ Report.pageNumber q.page = .ok e := by
  rw [answerQuery, pager_withStore]
  by_cases hnumber : q.isByNumber = true
  · rw [if_pos hnumber, Traced.result_bind]
    refine Result.bind_pure_eq_error.trans ?_
    rw [Pager.numberedPage_reports_iff (p := s.pager.withStore st) hst hsize]
    exact ⟨fun h => ⟨hnumber, h⟩, fun h => h.2⟩
  · have hstart : FailsPlainly (s.pager.startPosition q.order (startOf q.position)).result := by
      cases q.position <;> exact failsOnly_ok _
    have hpage : FailsPlainly ((s.pager.withStore st).keysetPage q.criteria q.order (.int q.size)
        (startOf q.position)).result := s.pager.failsPlainly_keysetPage hst hsize hstart
    rw [if_neg hnumber, Traced.result_bind]
    exact iff_of_false ((hpage.bind_pure _).ne_reported e) fun h => hnumber h.1

/-- Whatever is reported of a request is reported when it is prepared, or it is the number of the
page of the prepared query, once its criteria have been written. -/
theorem list_reports_iff (s : Service) (hst : st.IsPlain) (r : Request) (scope : RequestScope)
    (e : Report) :
    ((s.withStore st).list r scope).result = .error (.reported e) ↔
      (s.prepare r scope).result = .error (.reported e) ∨
        ∃ q, (s.prepare r scope).result = .ok q ∧ q.criteria.isWritable = true ∧ ¬r.FitsPage ∧
          Report.pageNumber r.page = .ok e := by
  rw [list_eq]
  simp only [Traced.result_bind, Traced.result_liftM, Traced.result_log, Result.ok_bind]
  rw [Result.bind_eq_error]
  apply or_congr_right
  apply exists_congr
  intro q
  apply and_congr_right
  intro hq
  have hprepared := preparedFrom_of_prepare hq
  rw [Result.bind_eq_error, or_iff_right (q.criteria.failsPlainly_written.ne_reported e)]
  simp only [Predicate.written_eq_ok_iff, and_assoc, exists_and_left, exists_eq_left']
  apply and_congr_right
  intro _
  rw [answerQuery_reports_iff s hst (Pager.admitSize_of_admitSize hprepared.size),
    CheckedQuery.isByNumber, hprepared.page, Request.FitsPage, not_or, Bool.not_eq_true',
    Bool.not_eq_true, and_assoc]

/-- A request that has been prepared is not rejected any more. -/
def IsFinal (s : Service) (r : Request) (scope : RequestScope) : Prop :=
  ∀ q, (s.prepare r scope).result = .ok q → ∀ e : Report, e.kind.isA .query = true →
    (s.list r scope).result ≠ .error (.reported e)

/-- A request is rejected only as it was when it was prepared. -/
def RejectsAsPrepared (s : Service) (r : Request) (scope : RequestScope) : Prop :=
  ∀ e : Report, e.kind.isA .query = true → (s.list r scope).result = .error (.reported e) →
    (s.prepare r scope).result = .error (.reported e)

/-- A request that is not prepared is not answered either, and both have the same fault. -/
theorem isFinal_iff_rejectsAsPrepared (s : Service) (r : Request) (scope : RequestScope) :
    s.IsFinal r scope ↔ s.RejectsAsPrepared r scope := by
  constructor
  · intro hfinal e he hlist
    have hcases := hlist
    rw [list, Traced.result_bind] at hcases
    rcases Result.bind_eq_error.1 hcases with hprepare | ⟨q, hq, -⟩
    · exact hprepare
    · exact absurd hlist (hfinal q hq e he)
  · intro hrejects q hq e he hlist
    exact Result.error_ne_ok _ _ ((hrejects e he hlist).symm.trans hq)

/-- The page number of a prepared query can be reported: the criteria, which are written first, and
the number itself can be written. -/
def ReportsPage (s : Service) (r : Request) (scope : RequestScope) : Prop :=
  (∃ q, (s.prepare r scope).result = .ok q ∧ q.criteria.isWritable = true) ∧
    r.page.isQuotable = true

/-- **A prepared query is refused for the number of its page only.** Over rows in memory, what is
reported of a request is what is reported when it is prepared, or else that its page number is no
positive integer, which preparing lets through. So a prepared request is beyond rejection, or
rejected only as it was when it was prepared, exactly if it asks for no page by number, or for one
that can be, or the number cannot be reported. -/
theorem isFinal_iff (s : Service) (rows : List Value) (r : Request) (scope : RequestScope) :
    (∀ e : Report, ((s.onRows rows).list r scope).result = .error (.reported e) ↔
      ((s.onRows rows).prepare r scope).result = .error (.reported e) ∨
        ∃ q, ((s.onRows rows).prepare r scope).result = .ok q ∧ q.criteria.isWritable = true ∧
          ¬r.FitsPage ∧ Report.pageNumber r.page = .ok e) ∧
    ((s.onRows rows).IsFinal r scope ↔ (s.onRows rows).RejectsAsPrepared r scope) ∧
    ((s.onRows rows).IsFinal r scope ↔ ((s.onRows rows).ReportsPage r scope → r.FitsPage)) := by
  have hst : (Memory.ofRows rows).store.IsPlain := Memory.isPlain_store (by rintro e ⟨⟩)
  have hreports := s.list_reports_iff hst r scope
  refine ⟨hreports, isFinal_iff_rejectsAsPrepared _ r scope, ?_, ?_⟩
  · rintro hfinal ⟨⟨q, hq, hwritable⟩, hquotable⟩
    by_contra hpage
    obtain ⟨e, he, hkind⟩ := Report.exists_pageNumber_iff.2 hquotable
    exact hfinal q hq e hkind ((hreports e).2 (Or.inr ⟨q, hq, hwritable, hpage, he⟩))
  · intro hfits q hq e hkind hlist
    rcases (hreports e).1 hlist with hprepare | ⟨q', hq', hwritable, hpage, he⟩
    · exact Result.error_ne_ok _ _ (hprepare.symm.trans hq)
    · exact hpage (hfits ⟨⟨q', hq', hwritable⟩, Report.exists_pageNumber_iff.1 ⟨e, he, hkind⟩⟩)

end Service

namespace Grouped

/-- The request for a page of items by its number. -/
def numbered (n : Int) : Request :=
  { request with page := .int n }

end Grouped

namespace Service

/-- The first page of the items of a group is prepared, and nothing is rejected after that. -/
theorem isFinal_first_page :
    (∃ q, ((Grouped.service.onRows Grouped.three).prepare (Grouped.numbered 1)
      (.value (.text "b"))).result = .ok q) ∧
    (Grouped.service.onRows Grouped.three).IsFinal (Grouped.numbered 1) (.value (.text "b")) := by
  refine ⟨⟨⟨.equal "group" (.text "b"), ⟨[⟨"id", .descending⟩], by decide⟩, 20, .int 1, none⟩,
    by cbv⟩, ?_⟩
  obtain ⟨-, -, hfinal⟩ := isFinal_iff Grouped.service Grouped.three (Grouped.numbered 1)
    (.value (.text "b"))
  exact hfinal.2 fun _ => Or.inr ⟨1, by omega, rfl⟩

/-- **A page that is numbered from zero is prepared and then rejected.** -/
theorem isFinal_fails :
    ((Grouped.service.onRows Grouped.three).prepare (Grouped.numbered 0)
        (.value (.text "b"))).result =
      .ok ⟨.equal "group" (.text "b"), ⟨[⟨"id", .descending⟩], by decide⟩, 20, .int 0, none⟩ ∧
    ((Grouped.service.onRows Grouped.three).list (Grouped.numbered 0)
        (.value (.text "b"))).result = rejectWith (Report.pageNumber (.int 0)) ∧
    ¬(Grouped.service.onRows Grouped.three).IsFinal (Grouped.numbered 0) (.value (.text "b")) := by
  have hprepare : ((Grouped.service.onRows Grouped.three).prepare (Grouped.numbered 0)
      (.value (.text "b"))).result =
        .ok ⟨.equal "group" (.text "b"), ⟨[⟨"id", .descending⟩], by decide⟩, 20, .int 0, none⟩ := by
    cbv
  have hlist : ((Grouped.service.onRows Grouped.three).list (Grouped.numbered 0)
      (.value (.text "b"))).result = rejectWith (Report.pageNumber (.int 0)) := by cbv
  refine ⟨hprepare, hlist, fun hfinal => ?_⟩
  obtain ⟨e, he, hkind⟩ := Report.exists_pageNumber_iff.2
    (show (Value.int 0).isQuotable = true from Value.isShowable_int (by decide))
  refine hfinal _ hprepare e hkind (hlist.trans ?_)
  exact (rejectWith_reports_iff (Report.failsPlainly_pageNumber _)).2 he

end Service

end Listing
