import Listing.Proofs.MemoryWindow
import Listing.Proofs.ReadOrders

/-!
# Orders cut at the tie-breaker

Sorting by distinct keys leaves nothing of the order that the items had before
(`Sorting.Orderable.sortAscending_congr`). So the keys behind the tie-breaker have no effect where
its values tell the rows apart, and a memory answers alike under all the keys that a request asks for
and under the order that is read, which ends at the tie-breaker (`Memory.fetch_cut`).
-/

set_option autoImplicit false

namespace Listing

/-! ## Distinct keys -/

namespace Sorting

/-- The values of a set are totally ordered: they can be compared, and of two that are not equal one
is less. -/
structure TotallyOrdered (S : Value → Prop) : Prop extends Orderable S where
  connected : ∀ {v w}, S v → S w → v.equal w = .ok false →
    v.compares .lt w = .ok true ∨ w.compares .lt v = .ok true

/-- One of two keys is less. -/
def Apart {α : Type} (a b : Keyed α) : Prop :=
  Less a b ∨ Less b a

section

variable {α : Type} {S : Value → Prop} (hS : Orderable S) {items items' : List (Keyed α)}
  (hitems : ∀ z ∈ items, S z.1) (hapart : items.Pairwise Apart) (hperm : items'.Perm items)

include hS hitems hapart

/-- Items with distinct keys are sorted strictly. -/
theorem Orderable.sortAscending_strict :
    ∃ out, sortAscending items = .ok out ∧ out.Perm items ∧ out.Pairwise Less := by
  obtain ⟨out, hout, hperm, hsettled⟩ := hS.sortAscending_spec hitems hapart
  refine ⟨out, hout, hperm, hsettled.imp ?_⟩
  rintro a b (hless | ⟨hnot, hless | hless⟩)
  · exact hless
  · exact hless
  · exact absurd hless hnot

include hperm

/-- **Items with distinct keys are sorted into one list**, whatever their order was. -/
theorem Orderable.sortAscending_congr : sortAscending items' = sortAscending items := by
  have hsymm : ∀ {a b : Keyed α}, Apart a b → Apart b a := Or.symm
  obtain ⟨out, hout, hperm₁, hless⟩ := hS.sortAscending_strict hitems hapart
  obtain ⟨out', hout', hperm₂, hless'⟩ := hS.sortAscending_strict
    (fun z hz => hitems z (hperm.mem_iff.1 hz)) ((hperm.pairwise_iff hsymm).2 hapart)
  have heq : out' = out := by
    refine (hperm₂.trans (hperm.trans hperm₁.symm)).eq_of_pairwise ?_ hless' hless
    intro a b ha hb hab hba
    have ha := hitems a (hperm.mem_iff.1 (hperm₂.mem_iff.1 ha))
    have hb := hitems b (hperm₁.mem_iff.1 hb)
    exact absurd hba (hS.asymm ha hb hab)
  rw [hout, hout', heq]

theorem Orderable.sortDescending_congr : sortDescending items' = sortDescending items := by
  have hreverse : items'.reverse.Perm items := (List.reverse_perm items').trans hperm
  have hreverse' : items.reverse.Perm items := List.reverse_perm items
  rw [sortDescending, hS.sortAscending_congr hitems hapart hreverse, sortDescending,
    hS.sortAscending_congr hitems hapart hreverse']

end

end Sorting

/-! ## Columns -/

namespace Memory

/-- All rows have the field, and the values in it are totally ordered. -/
def OrdersBy (field : String) (rows : List Value) : Prop :=
  ∃ S, Sorting.TotallyOrdered S ∧ ∀ row ∈ rows, ∃ v, row.field? field = some v ∧ S v

/-- The values in the field are pairwise different. -/
def TellsApart (field : String) (rows : List Value) : Prop :=
  rows.Pairwise fun a b => ∀ v w, a.field? field = some v → b.field? field = some w →
    v.equal w = .ok false

variable {field : String} {k : SortKey} {keys front after : List SortKey} {rows rows' : List Value}

theorem OrdersBy.of_subset (h : OrdersBy field rows) (hsub : rows' ⊆ rows) :
    OrdersBy field rows' := by
  obtain ⟨S, hS, hvalues⟩ := h
  exact ⟨S, hS, fun row hrow => hvalues row (hsub hrow)⟩

theorem OrdersBy.keyed_eq (h : OrdersBy field rows) :
    keyed field rows = .ok (keyedRows field rows) := by
  obtain ⟨S, -, hvalues⟩ := h
  apply Memory.keyed_eq
  intro row hrow
  obtain ⟨v, hv, -⟩ := hvalues row hrow
  rw [hv]
  rfl

theorem tellsApart_of_equal (h : rows.Pairwise fun a b =>
    (a.fieldOrNull field).equal (b.fieldOrNull field) = .ok false) : TellsApart field rows := by
  refine h.imp ?_
  intro a b hab v w hv hw
  rwa [fieldOrNull_eq hv, fieldOrNull_eq hw] at hab

/-- Rows with totally ordered values in a field are sorted by it. -/
theorem OrdersBy.exists_sortBy (h : OrdersBy k.field rows) : ∃ out, sortBy k rows = .ok out := by
  obtain ⟨S, hS, hvalues⟩ := h
  obtain ⟨out, hout, -⟩ := sortBy_of_orderable hS.toOrderable hvalues
    (List.pairwise_of_forall (R := fun _ _ => True) fun _ _ => trivial)
  exact ⟨out, hout⟩

theorem exists_sortByAll (h : ∀ k ∈ keys, OrdersBy k.field rows) :
    ∃ out, sortByAll keys rows = .ok out := by
  induction keys with
  | nil => exact ⟨rows, rfl⟩
  | cons k keys ih =>
      rw [List.forall_mem_cons] at h
      obtain ⟨mid, hmid⟩ := ih h.2
      rw [sortByAll, hmid]
      exact (h.1.of_subset (sortByAll_perm hmid).subset).exists_sortBy

/-- **Rows that a field tells apart are sorted into one list by it**, whatever their order was. -/
theorem sortBy_congr (h : OrdersBy k.field rows) (hapart : TellsApart k.field rows)
    (hperm : rows'.Perm rows) : sortBy k rows' = sortBy k rows := by
  rw [sortBy, (h.of_subset hperm.subset).keyed_eq, sortBy, h.keyed_eq, Result.ok_bind,
    Result.ok_bind]
  obtain ⟨S, hS, hvalues⟩ := h
  have hitems := forall_keyedRows hvalues
  have hapart' : (keyedRows k.field rows).Pairwise Sorting.Apart := by
    refine List.pairwise_map.2 (hapart.imp_of_mem ?_)
    intro a b ha hb hab
    obtain ⟨v, hv, hSv⟩ := hvalues a ha
    obtain ⟨w, hw, hSw⟩ := hvalues b hb
    rw [fieldOrNull_eq hv, fieldOrNull_eq hw]
    exact hS.connected hSv hSw (hab v w hv hw)
  have hpermKeyed : (keyedRows k.field rows').Perm (keyedRows k.field rows) := hperm.map _
  cases k.direction with
  | ascending =>
      simp only [hS.toOrderable.sortAscending_congr hitems hapart' hpermKeyed]
  | descending =>
      simp only [hS.toOrderable.sortDescending_congr hitems hapart' hpermKeyed]

/-! ## Cutting -/

theorem sortByAll_append (front back : List SortKey) (rows : List Value) :
    sortByAll (front ++ back) rows = sortByAll back rows >>= sortByAll front := by
  induction front with
  | nil =>
      rw [List.nil_append]
      cases sortByAll back rows <;> rfl
  | cons k front ih =>
      rw [List.cons_append, sortByAll, ih]
      cases sortByAll back rows <;> rfl

/-- **The keys behind one that tells the rows apart have no effect.** -/
theorem sortByAll_cut (hk : OrdersBy k.field rows) (hapart : TellsApart k.field rows)
    (hafter : ∀ k' ∈ after, OrdersBy k'.field rows) :
    sortByAll (front ++ k :: after) rows = sortByAll (front ++ [k]) rows := by
  obtain ⟨mid, hmid⟩ := exists_sortByAll hafter
  rw [sortByAll_append, sortByAll, hmid, Result.ok_bind,
    sortBy_congr hk hapart (sortByAll_perm hmid), sortByAll_append]
  rfl

end Memory

/-- The keys that a request asks for, followed by the tie-breaker if it is not among them. -/
def SortOrder.completed (tie : String) (keys : List SortKey) : SortOrder :=
  if h : tie ∈ keys.map (·.field) then
    ⟨keys, fun hnil => List.not_mem_nil (List.map_eq_nil_iff.2 hnil ▸ h)⟩
  else
    ⟨keys ++ [⟨tie, (keys.getLast?.map (·.direction)).getD .descending⟩], by simp⟩

namespace Memory

variable {s : Schema} {raw : Value} {order : SortOrder} {keys : List SortKey} {rows : List Value}

/-- Rows are sorted alike by all the keys that are asked for and by the order that is read. -/
theorem sortByAll_completed (h : SortOrder.read s raw = .ok order)
    (hkeys : SortOrder.Requests s raw keys) (hcolumns : ∀ k ∈ keys, OrdersBy k.field rows)
    (hapart : TellsApart s.tieBreaker rows) :
    sortByAll (SortOrder.completed s.tieBreaker keys).keys rows = sortByAll order.keys rows := by
  obtain ⟨keys', hkeys', hnodup, -, rfl⟩ := SortOrder.exists_requests h
  obtain rfl := hkeys.unique hkeys'
  change _ = sortByAll (SortOrder.settle s.tieBreaker .descending keys) rows
  by_cases htie : s.tieBreaker ∈ keys.map (·.field)
  · obtain ⟨front, k, after, rfl, hk, hfront⟩ := SortOrder.exists_append_of_mem hnodup htie
    rw [SortOrder.completed, dif_pos htie, SortOrder.settle_of_mem hk hfront]
    rw [← hk] at hapart
    rw [List.forall_mem_append, List.forall_mem_cons] at hcolumns
    exact sortByAll_cut hcolumns.2.1 hapart hcolumns.2.2
  · rw [SortOrder.completed, dif_neg htie, SortOrder.settle_of_not_mem htie]

/-- The order that is read sorts rows with totally ordered values in every field it may have. -/
theorem exists_sortByAll_read (h : SortOrder.read s raw = .ok order)
    (hkeys : SortOrder.Requests s raw keys) (hcolumns : ∀ k ∈ keys, OrdersBy k.field rows)
    (htie : OrdersBy s.tieBreaker rows) : ∃ out, sortByAll order.keys rows = .ok out := by
  obtain ⟨keys', hkeys', hnodup, -, rfl⟩ := SortOrder.exists_requests h
  obtain rfl := hkeys.unique hkeys'
  apply exists_sortByAll
  intro k hk
  rcases (SortOrder.endsAt_settle hnodup).mem hk with hmem | hfield
  · exact hcolumns k hmem
  · rwa [hfield]

theorem result_store_fetch (m : Memory) (w : Window) :
    (m.store.fetch w).result = m.inService >>= fun _ => window m.rows w := by
  simp [store, Result.ok_bind]

end Memory

/-! ## A ledger sorted by amount -/

/-- Values alike one value are totally ordered. -/
theorem Value.totallyOrdered_alike (pivot : Value) : Sorting.TotallyOrdered (Alike pivot) where
  toOrderable := orderable_alike pivot
  connected := by
    intro v w hv hw hequal
    have halike := hv.symm.trans hw
    rw [halike.compares_lt, halike.symm.compares_lt, Except.ok.injEq, Except.ok.injEq]
    obtain ⟨b, hb, hiff⟩ := halike.equal_eq
    obtain rfl := Except.ok.inj (hequal.symm.trans hb)
    have hne : v ≠ w := fun heq => Bool.false_ne_true (hiff.2 heq)
    rcases halike.trichotomy with hbelow | heq | habove
    · exact .inl hbelow
    · exact absurd heq hne
    · exact .inr habove

namespace Ledger

/-- Three entries, two of them in one state. -/
def entries : List Value :=
  [.record [("state", "paid"), ("amount", .int 10)], .record [("state", "open"), ("amount", .int 30)],
    .record [("state", "open"), ("amount", .int 20)]]

/-- The state is asked for behind the amount, which tells the entries apart. -/
def keys : List SortKey :=
  [⟨"amount", .descending⟩, ⟨"state", .ascending⟩]

theorem read_keys : SortOrder.read schema (.text "desc:amount, asc:state") =
    .ok (SortOrder.settled "amount" keys) := by
  cbv

theorem requests_keys : SortOrder.Requests schema (.text "desc:amount, asc:state") keys := by
  refine ⟨["desc:amount", "asc:state"], by cbv, .cons ?_ (.cons ?_ .nil)⟩
  · exact ⟨"desc", "amount", by decide, by decide, by decide +kernel, by decide⟩
  · exact ⟨"asc", "state", by decide, by decide, by decide +kernel, by decide⟩

theorem ordersBy_amount : Memory.OrdersBy "amount" entries := by
  refine ⟨Value.Alike (.int 0), Value.totallyOrdered_alike (.int 0), ?_⟩
  simp only [entries, List.forall_mem_cons]
  exact ⟨⟨.int 10, rfl, .int 0 10⟩, ⟨.int 30, rfl, .int 0 30⟩, ⟨.int 20, rfl, .int 0 20⟩,
    fun row hrow => absurd hrow List.not_mem_nil⟩

theorem ordersBy_state : Memory.OrdersBy "state" entries := by
  refine ⟨Value.Alike (.text ""), Value.totallyOrdered_alike (.text ""), ?_⟩
  simp only [entries, List.forall_mem_cons]
  exact ⟨⟨.text "paid", rfl, .text _ _⟩, ⟨.text "open", rfl, .text _ _⟩,
    ⟨.text "open", rfl, .text _ _⟩, fun row hrow => absurd hrow List.not_mem_nil⟩

theorem tellsApart_amount : Memory.TellsApart "amount" entries := by
  apply Memory.tellsApart_of_equal
  simp only [entries, List.pairwise_cons, List.forall_mem_cons]
  exact ⟨⟨by cbv, by cbv, nofun⟩, ⟨by cbv, nofun⟩, nofun, .nil⟩

end Ledger

namespace Memory

variable {s : Schema} {raw : Value} {order : SortOrder} {keys : List SortKey} {rows : List Value}

/-- **Cutting an order at the tie-breaker changes no answer.** Where the rows of a memory have totally
ordered values in every field that a request asks for, and the tie-breaker tells them apart, the
memory answers for all the keys of the request, followed by the tie-breaker if need be, as it does for
the order that is read. It does answer, if it is in service and the predicate decides, where the
tie-breaker has totally ordered values too. -/
theorem fetch_cut {m : Memory} (h : SortOrder.read s raw = .ok order)
    (hkeys : SortOrder.Requests s raw keys) (hcolumns : ∀ k ∈ keys, OrdersBy k.field m.rows)
    (hapart : TellsApart s.tieBreaker m.rows) (p : Predicate) (limit offset : Int) :
    (m.store.fetch ⟨p, SortOrder.completed s.tieBreaker keys, limit, offset⟩).result =
        (m.store.fetch ⟨p, order, limit, offset⟩).result ∧
      (m.failure = none → p.Decides m.rows → OrdersBy s.tieBreaker m.rows →
        ∃ out, (m.store.fetch ⟨p, order, limit, offset⟩).result = .ok out) := by
  rw [result_store_fetch, result_store_fetch]
  constructor
  · suffices hwindow : window m.rows ⟨p, SortOrder.completed s.tieBreaker keys, limit, offset⟩ =
        window m.rows ⟨p, order, limit, offset⟩ by
      rw [hwindow]
    rw [window, window]
    cases hfound : matching m.rows p with
    | error e => rfl
    | ok found =>
        -- the rows to be sorted are some of those in the memory
        obtain rfl := Except.ok.inj
          (hfound.symm.trans (matching_eq_filter (decides_of_matching hfound)))
        have hsorted := sortByAll_completed h hkeys
          (fun k hk => (hcolumns k hk).of_subset List.filter_sublist.subset)
          (List.Pairwise.filter p.accepts hapart)
        rw [Result.ok_bind, Result.ok_bind, hsorted]
  · intro hservice hdecides htie
    obtain ⟨sorted, hsorted⟩ := exists_sortByAll_read h hkeys
      (fun k hk => (hcolumns k hk).of_subset List.filter_sublist.subset)
      (htie.of_subset List.filter_sublist.subset)
    refine ⟨slice sorted offset (offset + limit), ?_⟩
    rw [inService, hservice, Result.ok_bind, window, matching_eq_filter hdecides, Result.ok_bind,
      hsorted]
    rfl

/-- A ledger answers for amount and state as it does for the amount. -/
theorem fetch_cut_ledger :
    SortOrder.read Ledger.schema (.text "desc:amount, asc:state") =
      .ok (SortOrder.settled "amount" Ledger.keys) ∧
    SortOrder.Requests Ledger.schema (.text "desc:amount, asc:state") Ledger.keys ∧
    (∀ k ∈ Ledger.keys, OrdersBy k.field Ledger.entries) ∧
    TellsApart "amount" Ledger.entries ∧
    ((ofRows Ledger.entries).store.fetch
        ⟨.always, SortOrder.completed "amount" Ledger.keys, 2, 0⟩).result =
      ((ofRows Ledger.entries).store.fetch
        ⟨.always, SortOrder.settled "amount" Ledger.keys, 2, 0⟩).result := by
  have hcolumns : ∀ k ∈ Ledger.keys, OrdersBy k.field Ledger.entries := by
    rw [Ledger.keys, List.forall_mem_cons, List.forall_mem_singleton]
    exact ⟨Ledger.ordersBy_amount, Ledger.ordersBy_state⟩
  obtain ⟨hfetch, -⟩ := fetch_cut (m := ofRows Ledger.entries) Ledger.read_keys
    Ledger.requests_keys hcolumns Ledger.tellsApart_amount .always 2 0
  exact ⟨Ledger.read_keys, Ledger.requests_keys, hcolumns, Ledger.tellsApart_amount, hfetch⟩

end Memory

end Listing
