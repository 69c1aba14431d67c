import Listing.Proofs.CutOrders
import Listing.Proofs.LesserValues

/-!
# Windows of lexicographic arrangements

Under several keys rows are arranged lexicographically: of the keys the first whose values differ
decides, and rows with equal values under all keys stay in the places that they had among each other
(`Memory.StablySorted`). Where the values in the fields are totally ordered there is exactly one such
arrangement, sorting by one key after another from the last one up arrives at it
(`Memory.exists_stablySorted`), and a memory answers with windows of it
(`Memory.fetch_lexicographic`).
-/

set_option autoImplicit false

namespace Listing

/-! ## Ties -/

/-- Totally ordered values are equal where neither is less. -/
theorem Sorting.TotallyOrdered.exists_equal {S : Value → Prop} (hS : TotallyOrdered S) {v w : Value}
    (hv : S v) (hw : S w) : ∃ c, v.equal w = .ok c ∧
      (c = true ↔ v.compares .lt w ≠ .ok true ∧ w.compares .lt v ≠ .ok true) := by
  obtain ⟨x, hx⟩ := hS.decided hv hw
  obtain ⟨y, hy⟩ := hS.decided hw hv
  obtain ⟨c, hc, hlt⟩ := Value.equal_of_compares _ _ hx
  obtain ⟨c', hc', hlt'⟩ := Value.equal_of_compares _ _ hy
  refine ⟨c, hc, ?_⟩
  constructor
  · rintro rfl
    constructor
    · intro hless
      obtain rfl := Except.ok.inj (hx.symm.trans hless)
      exact absurd (hlt rfl).1.symm Bool.false_ne_true
    · intro hless
      obtain rfl := Except.ok.inj (hy.symm.trans hless)
      exact (hlt' rfl).2 hc
  · rintro ⟨hnot, hnot'⟩
    cases c with
    | true => rfl
    | false => exact absurd (hS.connected hv hw hc) (not_or_intro hnot hnot')

namespace SortKey

/-- The rows have equal values in the field of the key. -/
def ties (k : SortKey) (a b : Value) : Bool :=
  match (a.fieldOrNull k.field).equal (b.fieldOrNull k.field) with
  | .ok b => b
  | .error _ => false

theorem ties_of_equal {k : SortKey} {a b : Value} {c : Bool}
    (h : (a.fieldOrNull k.field).equal (b.fieldOrNull k.field) = .ok c) : k.ties a b = c := by
  rw [ties, h]

theorem leads_reversed {k : SortKey} {a b : Value} : k.reversed.Leads a b ↔ k.Leads b a := by
  rw [Leads, Leads, reversed]
  cases k.direction <;> exact Iff.rfl

end SortKey

namespace Memory

/-- The rows have equal values in the fields of all keys. -/
def tied (keys : List SortKey) (a b : Value) : Bool :=
  keys.all fun k => k.ties a b

theorem tied_cons (k : SortKey) (keys : List SortKey) (a b : Value) :
    tied (k :: keys) a b = (k.ties a b && tied keys a b) :=
  List.all_cons

/-- The first row comes first under the keys: of the keys the first whose values in the two rows
differ puts it ahead. -/
def Leads : List SortKey → Value → Value → Prop
  | [], _, _ => False
  | k :: keys, a, b => k.Leads a b ∨ k.ties a b = true ∧ Leads keys a b

variable {k : SortKey} {keys : List SortKey} {rows rows' sorted : List Value}

/-! ## Rankings -/

/-- On the rows a relation of being ahead is a strict weak order, and rows tie of which neither is
ahead. -/
structure Ranks (rows : List Value) (leads : Value → Value → Prop) (ties : Value → Value → Bool) :
    Prop where
  asymm : ∀ a ∈ rows, ∀ b ∈ rows, leads a b → ¬leads b a
  trans : ∀ a ∈ rows, ∀ b ∈ rows, ∀ c ∈ rows, ¬leads b a → ¬leads c b → ¬leads c a
  ties_iff : ∀ a ∈ rows, ∀ b ∈ rows, (ties a b = true ↔ ¬leads a b ∧ ¬leads b a)

/-- A key whose field has totally ordered values ranks the rows. -/
theorem OrdersBy.ranks (h : OrdersBy k.field rows) : Ranks rows k.Leads k.ties := by
  obtain ⟨S, hS, hvalues⟩ := h
  have hfield : ∀ row ∈ rows, S (row.fieldOrNull k.field) := by
    intro row hrow
    obtain ⟨v, hv, hSv⟩ := hvalues row hrow
    rwa [fieldOrNull_eq hv]
  refine ⟨?_, ?_, ?_⟩
  · intro a ha b hb
    unfold SortKey.Leads
    cases k.direction with
    | ascending => exact hS.asymm (hfield a ha) (hfield b hb)
    | descending => exact hS.asymm (hfield b hb) (hfield a ha)
  · intro a ha b hb c hc
    unfold SortKey.Leads
    cases k.direction with
    | ascending => exact hS.trans (hfield a ha) (hfield b hb) (hfield c hc)
    | descending => exact fun hba hcb => hS.trans (hfield c hc) (hfield b hb) (hfield a ha) hcb hba
  · intro a ha b hb
    obtain ⟨c, hc, hiff⟩ := hS.exists_equal (hfield a ha) (hfield b hb)
    rw [SortKey.ties_of_equal hc, hiff]
    unfold SortKey.Leads
    cases k.direction with
    | ascending => exact Iff.rfl
    | descending => exact and_comm

/-- Where one relation decides first and another on its ties, they rank the rows together. -/
theorem Ranks.followed {leads leads' : Value → Value → Prop} {ties ties' : Value → Value → Bool}
    (h : Ranks rows leads ties) (h' : Ranks rows leads' ties') :
    Ranks rows (fun a b => leads a b ∨ ties a b = true ∧ leads' a b)
      (fun a b => ties a b && ties' a b) where
  asymm := by
    intro a ha b hb hab hba
    have hties := h.ties_iff a ha b hb
    have hties' := h.ties_iff b hb a ha
    rcases hab with hab | ⟨htie, hab⟩
    · rcases hba with hba | ⟨htie, -⟩
      · exact h.asymm a ha b hb hab hba
      · exact (hties'.1 htie).2 hab
    · rcases hba with hba | ⟨-, hba⟩
      · exact (hties.1 htie).2 hba
      · exact h'.asymm a ha b hb hab hba
  trans := by
    intro a ha b hb c hc hba hcb
    rw [not_or] at hba hcb
    have hca := h.trans a ha b hb c hc hba.1 hcb.1
    rintro (hlead | ⟨htie, hlead⟩)
    · exact hca hlead
    · -- where the outer rows tie, the middle one ties with both
      have hac := ((h.ties_iff c hc a ha).1 htie).2
      have hab := h.trans b hb c hc a ha hcb.1 hac
      have hbc := h.trans c hc a ha b hb hac hba.1
      have htieba := (h.ties_iff b hb a ha).2 ⟨hba.1, hab⟩
      have htiecb := (h.ties_iff c hc b hb).2 ⟨hcb.1, hbc⟩
      exact h'.trans a ha b hb c hc (fun hl => hba.2 ⟨htieba, hl⟩) (fun hl => hcb.2 ⟨htiecb, hl⟩)
        hlead
  ties_iff := by
    intro a ha b hb
    have hties := h.ties_iff a ha b hb
    have hties' := h.ties_iff b hb a ha
    rw [Bool.and_eq_true, h'.ties_iff a ha b hb, not_or, not_or]
    constructor
    · rintro ⟨htie, hab, hba⟩
      obtain ⟨hnab, hnba⟩ := hties.1 htie
      exact ⟨⟨hnab, fun hl => hab hl.2⟩, ⟨hnba, fun hl => hba hl.2⟩⟩
    · rintro ⟨⟨hnab, hab⟩, ⟨hnba, hba⟩⟩
      have htie := hties.2 ⟨hnab, hnba⟩
      have htie' := hties'.2 ⟨hnba, hnab⟩
      exact ⟨htie, fun hl => hab ⟨htie, hl⟩, fun hl => hba ⟨htie', hl⟩⟩

theorem ranks_tied (h : ∀ k ∈ keys, OrdersBy k.field rows) : Ranks rows (Leads keys) (tied keys) := by
  induction keys with
  | nil =>
      refine ⟨fun a _ b _ hab => absurd hab id, fun a _ b _ c _ _ _ => id, fun a _ b _ => ?_⟩
      simp [tied, Leads]
  | cons k keys ih =>
      rw [List.forall_mem_cons] at h
      exact h.1.ranks.followed (ih h.2)

namespace Ranks

variable {leads : Value → Value → Prop} {ties : Value → Value → Bool} {a b c : Value}

theorem ties_self (h : Ranks rows leads ties) (ha : a ∈ rows) : ties a a = true := by
  have hnot : ¬leads a a := fun hl => h.asymm a ha a ha hl hl
  exact (h.ties_iff a ha a ha).2 ⟨hnot, hnot⟩

theorem ties_comm (h : Ranks rows leads ties) (ha : a ∈ rows) (hb : b ∈ rows) :
    ties a b = ties b a := by
  rw [Bool.eq_iff_iff, h.ties_iff a ha b hb, h.ties_iff b hb a ha, and_comm]

/-- Two rows that tie with one row tie. -/
theorem ties_of_ties (h : Ranks rows leads ties) (ha : a ∈ rows) (hb : b ∈ rows) (hc : c ∈ rows)
    (hab : ties a b = true) (hac : ties a c = true) : ties b c = true := by
  obtain ⟨hab, hba⟩ := (h.ties_iff a ha b hb).1 hab
  obtain ⟨hac, hca⟩ := (h.ties_iff a ha c hc).1 hac
  exact (h.ties_iff b hb c hc).2 ⟨h.trans c hc a ha b hb hac hba, h.trans b hb a ha c hc hab hca⟩

/-- **Rows in the order of a ranking, ties in given places, are in one order.** -/
theorem eq_of_ordered (h : Ranks rows leads ties) : ∀ {l l' : List Value}, l ⊆ rows → l.Perm l' →
    (l.Pairwise fun a b => leads a b ∨ ties a b = true) →
    (l'.Pairwise fun a b => leads a b ∨ ties a b = true) →
    (∀ a ∈ l, l.filter (ties a) = l'.filter (ties a)) → l = l' := by
  intro l
  induction l with
  | nil =>
      intro l' _ hperm _ _ _
      exact hperm.nil_eq
  | cons a l ih =>
      intro l' hsub hperm hpair hpair' hstable
      match l', hperm, hpair', hstable with
      | [], hperm, _, _ => exact absurd hperm.eq_nil (List.cons_ne_nil a l)
      | b :: l', hperm, hpair', hstable =>
          have ha : a ∈ rows := hsub List.mem_cons_self
          have hb : b ∈ rows := hsub (hperm.mem_iff.2 List.mem_cons_self)
          rw [List.pairwise_cons] at hpair hpair'
          -- each of the first rows is also in the other list, so neither leads the other
          have htie : ties a b = true := by
            rcases List.mem_cons.1 (hperm.mem_iff.2 (List.mem_cons_self (a := b) (l := l'))) with
              heq | hmem
            · rw [heq, h.ties_self ha]
            rcases List.mem_cons.1 (hperm.mem_iff.1 (List.mem_cons_self (a := a) (l := l))) with
              heq | hmem'
            · rw [heq, h.ties_self hb]
            rcases hpair.1 b hmem with hlead | htie
            · rcases hpair'.1 a hmem' with hlead' | htie
              · exact absurd hlead' (h.asymm a ha b hb hlead)
              · rwa [h.ties_comm ha hb]
            · exact htie
          have hfirst := hstable a List.mem_cons_self
          rw [List.filter_cons_of_pos (h.ties_self ha), List.filter_cons_of_pos htie] at hfirst
          obtain ⟨rfl, -⟩ := List.cons.inj hfirst
          refine congrArg (a :: ·) (ih (fun x hx => hsub (List.mem_cons_of_mem a hx))
            hperm.cons_inv hpair.2 hpair'.2 fun row hrow => ?_)
          have hall := hstable row (List.mem_cons_of_mem a hrow)
          rw [List.filter_cons, List.filter_cons] at hall
          split at hall
          · exact (List.cons.inj hall).2
          · exact hall

end Ranks

/-! ## Stable arrangements -/

/-- The rows arranged by the keys, the first unequal values deciding, and tied rows in the places that
they had among each other. -/
structure StablySorted (keys : List SortKey) (rows sorted : List Value) : Prop where
  perm : sorted.Perm rows
  ordered : sorted.Pairwise fun a b => Leads keys a b ∨ tied keys a b = true
  stable : ∀ row ∈ rows, sorted.filter (tied keys row) = rows.filter (tied keys row)

/-- There is at most one such arrangement. -/
theorem StablySorted.unique (h : ∀ k ∈ keys, OrdersBy k.field rows)
    (hsorted : StablySorted keys rows sorted) (hsorted' : StablySorted keys rows rows') :
    sorted = rows' := by
  apply (ranks_tied h).eq_of_ordered hsorted.perm.subset (hsorted.perm.trans hsorted'.perm.symm)
    hsorted.ordered hsorted'.ordered
  intro row hrow
  have hrow := hsorted.perm.mem_iff.1 hrow
  rw [hsorted.stable row hrow, hsorted'.stable row hrow]

/-- Sorting a stable arrangement by one more key arranges the rows by that key first. -/
theorem StablySorted.exists_sortBy (h : OrdersBy k.field rows)
    (hsorted : StablySorted keys rows sorted) :
    ∃ out, sortBy k sorted = .ok out ∧ StablySorted (k :: keys) rows out := by
  have hcolumn := h.of_subset hsorted.perm.subset
  have hranks := hcolumn.ranks
  obtain ⟨S, hS, hvalues⟩ := hcolumn
  obtain ⟨out, hout, hperm, hpair, hstable⟩ :=
    sortBy_of_orderable hS.toOrderable hvalues hsorted.ordered
  refine ⟨out, hout, hperm.trans hsorted.perm, hpair.imp_of_mem ?_, ?_⟩
  · intro a b ha hb hab
    have ha := hperm.mem_iff.1 ha
    have hb := hperm.mem_iff.1 hb
    by_cases hlead : k.Leads a b
    · exact .inl (.inl hlead)
    obtain ⟨hnot, hrest⟩ := hab.resolve_left hlead
    have htie := (hranks.ties_iff a ha b hb).2 ⟨hlead, hnot⟩
    rcases hrest with hlead | htied
    · exact .inl (.inr ⟨htie, hlead⟩)
    · exact .inr (by rw [tied_cons, htie, htied]; rfl)
  · intro row hrow
    have hrow' := hsorted.perm.mem_iff.2 hrow
    have hsplit : ∀ l : List Value, l.filter (tied (k :: keys) row) =
        (l.filter (tied keys row)).filter (k.ties row) := fun l => List.filter_filter.symm
    have hties : ∀ a ∈ sorted, ∀ b ∈ sorted, tied (k :: keys) row a = true →
        tied (k :: keys) row b = true → ¬k.Leads a b := by
      intro a ha b hb hra hrb
      rw [tied_cons, Bool.and_eq_true] at hra hrb
      exact ((hranks.ties_iff a ha b hb).1 (hranks.ties_of_ties hrow' ha hb hra.1 hrb.1)).1
    -- the key leaves the rows that tie under all keys where the others put them
    rw [hstable _ hties, hsplit, hsorted.stable row hrow, ← hsplit]

/-- **Sorting by one key after another sorts by all keys at once**, ties in place. -/
theorem exists_stablySorted (h : ∀ k ∈ keys, OrdersBy k.field rows) :
    ∃ sorted, sortByAll keys rows = .ok sorted ∧ StablySorted keys rows sorted := by
  induction keys with
  | nil => exact ⟨rows, rfl, .refl _, List.pairwise_of_forall fun _ _ => .inr rfl, fun _ _ => rfl⟩
  | cons k keys ih =>
      rw [List.forall_mem_cons] at h
      obtain ⟨mid, hmid, hsorted⟩ := ih h.2
      obtain ⟨out, hout, hsorted⟩ := hsorted.exists_sortBy h.1
      exact ⟨out, by rw [sortByAll, hmid]; exact hout, hsorted⟩

/-- Sorting arrives at the only stable arrangement. -/
theorem exists_sortByAll_iff (h : ∀ k ∈ keys, OrdersBy k.field rows) :
    ∃ sorted, sortByAll keys rows = .ok sorted ∧ ∀ l, StablySorted keys rows l ↔ l = sorted := by
  obtain ⟨sorted, hsort, hsorted⟩ := exists_stablySorted h
  refine ⟨sorted, hsort, fun l => ⟨fun hl => hl.unique h hsorted, ?_⟩⟩
  rintro rfl
  exact hsorted

/-! ## Reversed orders -/

theorem tied_map_reversed (keys : List SortKey) : tied (keys.map (·.reversed)) = tied keys := by
  funext a b
  rw [tied, tied, List.all_map]
  rfl

theorem leads_map_reversed (h : ∀ k ∈ keys, OrdersBy k.field rows) {a b : Value} (ha : a ∈ rows)
    (hb : b ∈ rows) : Leads (keys.map (·.reversed)) a b ↔ Leads keys b a := by
  induction keys with
  | nil => exact Iff.rfl
  | cons k keys ih =>
      rw [List.forall_mem_cons] at h
      have hties : k.reversed.ties a b = k.ties b a := h.1.ranks.ties_comm ha hb
      rw [List.map_cons, Leads, Leads, SortKey.leads_reversed, hties, ih h.2]

/-- Where no two rows tie, the reversed order arranges them the other way round. -/
theorem StablySorted.reverse (h : ∀ k ∈ keys, OrdersBy k.field rows)
    (hsorted : StablySorted keys rows sorted)
    (hdistinct : rows.Pairwise fun a b => tied keys a b = false) :
    StablySorted (keys.map (·.reversed)) rows sorted.reverse where
  perm := (List.reverse_perm sorted).trans hsorted.perm
  ordered := by
    rw [List.pairwise_reverse]
    refine hsorted.ordered.imp_of_mem fun {a b} ha hb hab => ?_
    have ha := hsorted.perm.mem_iff.1 ha
    have hb := hsorted.perm.mem_iff.1 hb
    rwa [leads_map_reversed h hb ha, tied_map_reversed, (ranks_tied h).ties_comm hb ha]
  stable := by
    intro row hrow
    rw [tied_map_reversed, List.filter_reverse, hsorted.stable row hrow, ← List.filter_reverse]
    refine Sorting.filter_reverse_of_pairwise (hdistinct.imp_of_mem fun {a b} ha hb hab => ?_)
    rintro ⟨hra, hrb⟩
    have htie := (ranks_tied h).ties_of_ties hrow ha hb hra hrb
    exact absurd (hab.symm.trans htie) Bool.false_ne_true

end Memory

/-! ## Windows -/

/-- Entries by state and, within a state, by falling amount; the last key names the state again. -/
def Ledger.byState : SortOrder :=
  ⟨[⟨"state", .ascending⟩, ⟨"amount", .descending⟩, ⟨"state", .descending⟩], List.cons_ne_nil _ _⟩

namespace Memory

variable {rows sorted : List Value}

theorem window_of_sorted {p : Predicate} {order : SortOrder} (hdecides : p.Decides rows)
    (h : sortByAll order.keys (rows.filter p.accepts) = .ok sorted) (limit offset : Nat) :
    window rows ⟨p, order, limit, offset⟩ = .ok ((sorted.drop offset).take limit) := by
  rw [window, matching_eq_filter hdecides, Result.ok_bind, h, Result.ok_bind, slice_of_nonneg]
  rfl

/-- **A memory answers with a window of the lexicographic arrangement.** The rows it answers from are
all that satisfy the predicate, in the only order in which the keys arrange them and ties keep their
places, whatever the directions of the keys are and whether or not they name a field again. If no two
of these rows tie, the reversed order arranges them the other way round. -/
theorem fetch_lexicographic {p : Predicate} {order : SortOrder} (hdecides : p.Decides rows)
    (horders : ∀ k ∈ order.keys, OrdersBy k.field (rows.filter p.accepts)) :
    ∃ sorted, (∀ l, StablySorted order.keys (rows.filter p.accepts) l ↔ l = sorted) ∧
      (∀ limit offset : Nat, ((ofRows rows).store.fetch ⟨p, order, limit, offset⟩).result =
        .ok ((sorted.drop offset).take limit)) ∧
      (((rows.filter p.accepts).Pairwise fun a b => tied order.keys a b = false) →
        ∀ limit offset : Nat,
          ((ofRows rows).store.fetch ⟨p, order.reversed, limit, offset⟩).result =
            .ok ((sorted.reverse.drop offset).take limit)) := by
  obtain ⟨sorted, hsort, hiff⟩ := exists_sortByAll_iff horders
  simp only [result_fetch]
  refine ⟨sorted, hiff, window_of_sorted hdecides hsort, ?_⟩
  intro hdistinct
  have hreversed : ∀ k ∈ order.reversed.keys, OrdersBy k.field (rows.filter p.accepts) := by
    intro k hk
    obtain ⟨k', hk', rfl⟩ := List.mem_map.1 hk
    exact horders k' hk'
  obtain ⟨sorted', hsort', hiff'⟩ := exists_sortByAll_iff hreversed
  obtain rfl := (hiff' _).1 (((hiff sorted).2 rfl).reverse horders hdistinct)
  exact window_of_sorted hdecides hsort'

/-- The entries of a ledger by state, the open ones before the one that is paid. -/
theorem fetch_lexicographic_ledger :
    Predicate.always.Decides Ledger.entries ∧
    (∀ k ∈ Ledger.byState.keys, OrdersBy k.field (Ledger.entries.filter Predicate.always.accepts)) ∧
    ((Ledger.entries.filter Predicate.always.accepts).Pairwise fun a b =>
      tied Ledger.byState.keys a b = false) ∧
    ∃ paid open₁ open₂, Ledger.entries = [paid, open₁, open₂] ∧
      StablySorted Ledger.byState.keys Ledger.entries [open₁, open₂, paid] ∧
      ((ofRows Ledger.entries).store.fetch ⟨.always, Ledger.byState, 1, 1⟩).result = .ok [open₂] ∧
      ((ofRows Ledger.entries).store.fetch ⟨.always, Ledger.byState.reversed, 3, 0⟩).result =
        .ok [paid, open₂, open₁] := by
  have hdecides : Predicate.always.Decides Ledger.entries := fun _ _ => ⟨true, rfl⟩
  have hall : Ledger.entries.filter Predicate.always.accepts = Ledger.entries := rfl
  have horders : ∀ k ∈ Ledger.byState.keys,
      OrdersBy k.field (Ledger.entries.filter Predicate.always.accepts) := by
    rw [hall, Ledger.byState]
    simp only [List.forall_mem_cons]
    exact ⟨Ledger.ordersBy_state, Ledger.ordersBy_amount, Ledger.ordersBy_state,
      List.forall_mem_nil _⟩
  have hdistinct : (Ledger.entries.filter Predicate.always.accepts).Pairwise fun a b =>
      tied Ledger.byState.keys a b = false := by
    rw [hall, Ledger.entries]
    simp only [List.pairwise_cons, List.forall_mem_cons]
    exact ⟨⟨by cbv, by cbv, List.forall_mem_nil _⟩, ⟨by cbv, List.forall_mem_nil _⟩,
      List.forall_mem_nil _, .nil⟩
  obtain ⟨sorted, hiff, hfetch, hreversed⟩ := fetch_lexicographic hdecides horders
  have hsorted := (hiff sorted).2 rfl
  have hthree : sorted.length ≤ 3 := (hall ▸ hsorted).perm.length_eq.le
  have heval : ((ofRows Ledger.entries).store.fetch ⟨.always, Ledger.byState, 3, 0⟩).result =
      .ok [.record [("state", "open"), ("amount", .int 30)],
        .record [("state", "open"), ("amount", .int 20)],
        .record [("state", "paid"), ("amount", .int 10)]] := by
    cbv
  have hlist := Except.ok.inj ((hfetch 3 0).symm.trans heval)
  rw [List.drop_zero, List.take_of_length_le hthree] at hlist
  subst hlist
  exact ⟨hdecides, horders, hdistinct, _, _, _, rfl, hsorted, hfetch 1 1, hreversed hdistinct 3 0⟩

end Memory

end Listing
