import Mathlib.Data.List.Basic
import Mathlib.Data.List.Perm.Basic
import Mathlib.Data.List.Pairwise
import Listing.Proofs.KeyOrder
import Listing.Proofs.StableSorting
import Listing.Proofs.TracedResult
import Listing.Store.Memory

/-!
# Windows of a memory

What a memory answers when nothing in it raises a fault: the rows that a predicate accepts, in the
order of all keys at once, cut to the window. Sorting by one key after another amounts to sorting by
rows of key values, rows with equal key values staying in their places (`sortByAll_spec`). When no
two rows agree in the last key the answer is the only arrangement of its rows (`Arranged.unique`).
-/

set_option autoImplicit false

namespace Listing

/-! ## Matching rows -/

namespace Predicate

/-- The row satisfies the predicate, and asking raises no fault. -/
def accepts (p : Predicate) (row : Value) : Bool :=
  match p.holds row with
  | .ok b => b
  | .error _ => false

/-- Asking the rows raises no fault. -/
def Decides (p : Predicate) (rows : List Value) : Prop :=
  ∀ row ∈ rows, ∃ b, p.holds row = .ok b

variable {p : Predicate} {rows : List Value}

theorem accepts_of_holds {row : Value} {b : Bool} (h : p.holds row = .ok b) : p.accepts row = b := by
  rw [accepts, h]

theorem Decides.holds_eq (h : p.Decides rows) {row : Value} (hrow : row ∈ rows) :
    p.holds row = .ok (p.accepts row) := by
  obtain ⟨b, hb⟩ := h row hrow
  rw [hb, accepts_of_holds hb]

theorem select_eq_filter (condition : Value → Result Bool) (b : Value → Bool) :
    ∀ rows : List Value, (∀ row ∈ rows, condition row = .ok (b row)) →
      select condition rows = .ok (rows.filter b) := by
  intro rows
  induction rows with
  | nil =>
      intro _
      rfl
  | cons row rows ih =>
      intro h
      rw [select, h row (by simp), ih (fun r hr => h r (by simp [hr])), List.filter_cons]
      cases b row <;> rfl

/-- Selection succeeds only where the condition is decided on all values. -/
theorem select_ok {condition : Value → Result Bool} : ∀ {rows out : List Value},
    select condition rows = .ok out → ∀ row ∈ rows, ∃ b, condition row = .ok b := by
  intro rows
  induction rows with
  | nil =>
      intro out _ row hrow
      exact absurd hrow List.not_mem_nil
  | cons first rows ih =>
      intro out h row hrow
      rw [select] at h
      obtain ⟨b, hfirst, h⟩ := Result.bind_eq_ok.1 h
      obtain ⟨others, hrest, -⟩ := Result.bind_eq_ok.1 h
      rcases List.mem_cons.1 hrow with rfl | hrow
      · exact ⟨b, hfirst⟩
      · exact ih hrest row hrow

/-- What is selected is there and meets the condition. -/
theorem mem_of_select {condition : Value → Result Bool} : ∀ {rows out : List Value},
    select condition rows = .ok out → ∀ row ∈ out, row ∈ rows ∧ condition row = .ok true := by
  intro rows
  induction rows with
  | nil =>
      intro out h row hrow
      obtain rfl := Except.ok.inj h
      exact absurd hrow List.not_mem_nil
  | cons first rows ih =>
      intro out h row hrow
      rw [select] at h
      obtain ⟨keep, hkeep, h⟩ := Result.bind_eq_ok.1 h
      obtain ⟨others, hothers, h⟩ := Result.bind_eq_ok.1 h
      obtain rfl := Except.ok.inj h
      -- what is selected from the rest is selected either way
      have hrest : row ∈ others → row ∈ first :: rows ∧ condition row = .ok true := by
        intro hmem
        obtain ⟨hmem, hholds⟩ := ih hothers row hmem
        exact ⟨List.mem_cons_of_mem _ hmem, hholds⟩
      cases keep with
      | false => exact hrest hrow
      | true =>
          rcases List.mem_cons.1 hrow with rfl | hrow
          · exact ⟨List.mem_cons_self, hkeep⟩
          · exact hrest hrow

end Predicate

/-- The key puts the first row ahead of the second: the one with the lesser value in its field, or if
it descends the one with the greater value. -/
def SortKey.Leads (k : SortKey) (a b : Value) : Prop :=
  match k.direction with
  | .ascending => (a.fieldOrNull k.field).compares .lt (b.fieldOrNull k.field) = .ok true
  | .descending => (b.fieldOrNull k.field).compares .lt (a.fieldOrNull k.field) = .ok true

namespace Memory

theorem matching_eq_filter {p : Predicate} {rows : List Value} (h : p.Decides rows) :
    matching rows p = .ok (rows.filter p.accepts) :=
  Predicate.select_eq_filter p.holds p.accepts rows fun _ hrow => h.holds_eq hrow

theorem decides_of_matching {p : Predicate} {rows out : List Value}
    (h : matching rows p = .ok out) : p.Decides rows :=
  Predicate.select_ok h

theorem result_fetch (rows : List Value) (w : Window) :
    ((ofRows rows).store.fetch w).result = window rows w := by
  simp [store, inService, ofRows, Result.ok_bind]

theorem result_count (rows : List Value) (p : Predicate) :
    ((ofRows rows).store.count p).result = matching rows p >>= fun matched => .ok matched.length := by
  simp [store, inService, ofRows, Result.ok_bind]

/-! ## Sorting rows -/

/-- The rows can be sorted by the keys: all have the fields, and the values in a field are alike. -/
structure Sortable (keys : List SortKey) (rows : List Value) : Prop where
  present : ∀ k ∈ keys, ∀ row ∈ rows, (row.field? k.field).isSome
  alike : ∀ k ∈ keys, ∀ a ∈ rows, ∀ b ∈ rows,
    (a.fieldOrNull k.field).Alike (b.fieldOrNull k.field)

theorem Sortable.of_perm {keys : List SortKey} {rows rows' : List Value} (h : Sortable keys rows)
    (hperm : rows'.Perm rows) : Sortable keys rows' where
  present k hk row hrow := h.present k hk row (hperm.mem_iff.1 hrow)
  alike k hk a ha b hb := h.alike k hk a (hperm.mem_iff.1 ha) b (hperm.mem_iff.1 hb)

theorem Sortable.tail {k : SortKey} {keys : List SortKey} {rows : List Value}
    (h : Sortable (k :: keys) rows) : Sortable keys rows where
  present k' hk := h.present k' (by simp [hk])
  alike k' hk := h.alike k' (by simp [hk])

theorem Sortable.filter {keys : List SortKey} {rows : List Value} (h : Sortable keys rows)
    (keep : Value → Bool) : Sortable keys (rows.filter keep) where
  present k hk row hrow := h.present k hk row (List.mem_of_mem_filter hrow)
  alike k hk a ha b hb :=
    h.alike k hk a (List.mem_of_mem_filter ha) b (List.mem_of_mem_filter hb)

/-- The rows with their values in a field. -/
def keyedRows (field : String) (rows : List Value) : List (Sorting.Keyed Value) :=
  rows.map fun row => (row.fieldOrNull field, row)

theorem keyed_eq (field : String) : ∀ rows : List Value,
    (∀ row ∈ rows, (row.field? field).isSome) → keyed field rows = .ok (keyedRows field rows) := by
  intro rows
  induction rows with
  | nil =>
      intro _
      rfl
  | cons row rows ih =>
      intro h
      obtain ⟨v, hv⟩ := Option.isSome_iff_exists.1 (h row (by simp))
      have hfield : row.field field = .ok v := by
        rw [Value.field, hv]
      have hnull : row.fieldOrNull field = v := by
        rw [Value.fieldOrNull, hv]
        rfl
      rw [keyed, hfield, ih (fun r hr => h r (by simp [hr])), keyedRows, keyedRows, List.map_cons,
        hnull]
      rfl

/-- A row rightly stands before another under some keys: its values precede, or the values of the
other do not and it stood before. -/
def Settled (keys : List SortKey) (R : Value → Value → Prop) (a b : Value) : Prop :=
  precedes keys (valuesIn keys a) (valuesIn keys b) ∨
    ¬precedes keys (valuesIn keys b) (valuesIn keys a) ∧ R a b

theorem fieldOrNull_eq {field : String} {row v : Value} (h : row.field? field = some v) :
    row.fieldOrNull field = v := by
  rw [Value.fieldOrNull, h]
  rfl

theorem forall_keyedRows {field : String} {rows : List Value} {S : Value → Prop}
    (h : ∀ row ∈ rows, ∃ v, row.field? field = some v ∧ S v) :
    ∀ z ∈ keyedRows field rows, S z.1 := by
  intro z hz
  obtain ⟨row, hrow, rfl⟩ := List.mem_map.1 hz
  obtain ⟨v, hv, hSv⟩ := h row hrow
  rwa [fieldOrNull_eq hv]

/-- On alike values a key leads as it puts the values. -/
theorem leads_iff_puts {k : SortKey} {a b : Value}
    (h : (a.fieldOrNull k.field).Alike (b.fieldOrNull k.field)) :
    k.Leads a b ↔ k.puts (a.fieldOrNull k.field) (b.fieldOrNull k.field) = true := by
  rw [SortKey.Leads, SortKey.puts]
  cases k.direction with
  | ascending => rw [h.compares_lt, Except.ok.injEq]
  | descending => rw [h.symm.compares_lt, Except.ok.injEq]

theorem map_snd_of_keyed {field : String} : ∀ {rows : List Value}
    {items : List (Sorting.Keyed Value)}, keyed field rows = .ok items → items.map (·.2) = rows := by
  intro rows
  induction rows with
  | nil =>
      intro items h
      obtain rfl := Except.ok.inj h
      rfl
  | cons row rows ih =>
      intro items h
      rw [keyed] at h
      obtain ⟨v, -, h⟩ := Result.bind_eq_ok.1 h
      obtain ⟨rest, hrest, h⟩ := Result.bind_eq_ok.1 h
      obtain rfl := Except.ok.inj h
      rw [List.map_cons, ih hrest]

/-- Whatever the rows, sorting them by a key keeps them. -/
theorem sortBy_perm {k : SortKey} {rows out : List Value} (h : sortBy k rows = .ok out) :
    out.Perm rows := by
  rw [sortBy] at h
  obtain ⟨items, hitems, h⟩ := Result.bind_eq_ok.1 h
  rw [← map_snd_of_keyed hitems]
  cases hd : k.direction with
  | ascending =>
      rw [hd] at h
      obtain ⟨sorted, hsorted, h⟩ := Result.bind_eq_ok.1 h
      obtain rfl := Except.ok.inj h
      exact (Sorting.sortAscending_perm hsorted).map (·.2)
  | descending =>
      rw [hd] at h
      obtain ⟨sorted, hsorted, h⟩ := Result.bind_eq_ok.1 h
      obtain rfl := Except.ok.inj h
      exact (Sorting.sortDescending_perm hsorted).map (·.2)

theorem sortByAll_perm : ∀ {keys : List SortKey} {rows out : List Value},
    sortByAll keys rows = .ok out → out.Perm rows := by
  intro keys
  induction keys with
  | nil =>
      intro rows out h
      obtain rfl := Except.ok.inj h
      exact .refl _
  | cons k keys ih =>
      intro rows out h
      rw [sortByAll] at h
      obtain ⟨mid, hmid, h⟩ := Result.bind_eq_ok.1 h
      exact (sortBy_perm h).trans (ih hmid)

/-- The rows of a window are rows of the memory that satisfy its predicate. -/
theorem mem_of_window {rows out : List Value} {w : Window} (h : window rows w = .ok out) :
    ∀ row ∈ out, row ∈ rows ∧ w.predicate.holds row = .ok true := by
  rw [window] at h
  obtain ⟨matched, hmatched, h⟩ := Result.bind_eq_ok.1 h
  obtain ⟨sorted, hsorted, h⟩ := Result.bind_eq_ok.1 h
  obtain rfl := Except.ok.inj h
  intro row hrow
  -- cutting and sorting add no rows to those that were selected
  apply Predicate.mem_of_select hmatched
  apply (sortByAll_perm hsorted).mem_iff.1
  exact List.mem_of_mem_take (List.mem_of_mem_drop hrow)

theorem map_snd_keyedRows (field : String) (rows : List Value) :
    (keyedRows field rows).map (·.2) = rows := by
  simp [keyedRows, Function.comp_def]

theorem mem_keyedRows {field : String} {rows : List Value} {z : Sorting.Keyed Value}
    (hz : z ∈ keyedRows field rows) : z.1 = z.2.fieldOrNull field ∧ z.2 ∈ rows := by
  obtain ⟨row, hrow, rfl⟩ := List.mem_map.1 hz
  exact ⟨rfl, hrow⟩

/-- Picking from the rows of keyed items is picking items by their rows. -/
theorem filter_map_snd {field : String} {rows : List Value} {out : List (Sorting.Keyed Value)}
    {pick : Value → Bool}
    (h : out.filter (pick ∘ (·.2)) = (keyedRows field rows).filter (pick ∘ (·.2))) :
    (out.map (·.2)).filter pick = rows.filter pick := by
  rw [List.filter_map, h, ← List.filter_map, map_snd_keyedRows]

/-- Items arranged by a relation that is the lead of the key on their rows have their rows arranged
by the key. -/
theorem arranged_map_snd {k : SortKey} {rows : List Value} {R : Value → Value → Prop}
    {out : List (Sorting.Keyed Value)} {L : Sorting.Keyed Value → Sorting.Keyed Value → Prop}
    (hleads : ∀ z ∈ keyedRows k.field rows, ∀ z' ∈ keyedRows k.field rows,
      (L z z' ↔ k.Leads z.2 z'.2))
    (hperm : out.Perm (keyedRows k.field rows))
    (hpair : out.Pairwise fun z z' => L z z' ∨ ¬L z' z ∧ R z.2 z'.2) :
    (out.map (·.2)).Perm rows ∧
      (out.map (·.2)).Pairwise fun a b => k.Leads a b ∨ ¬k.Leads b a ∧ R a b := by
  refine ⟨map_snd_keyedRows k.field rows ▸ hperm.map (·.2), List.pairwise_map.2 ?_⟩
  refine hpair.imp_of_mem fun {z z'} hz hz' h => ?_
  have hz := hperm.mem_iff.1 hz
  have hz' := hperm.mem_iff.1 hz'
  rwa [hleads z hz z' hz', hleads z' hz' z hz] at h

/-- **Sorting by one key** puts that key first and keeps the order there was. Rows of which neither
leads stay in place, picked from what is sorted or from what was given. -/
theorem sortBy_of_orderable {S : Value → Prop} (hS : Sorting.Orderable S) {k : SortKey}
    {rows : List Value} {R : Value → Value → Prop}
    (hvalues : ∀ row ∈ rows, ∃ v, row.field? k.field = some v ∧ S v) (hR : rows.Pairwise R) :
    ∃ out, sortBy k rows = .ok out ∧ out.Perm rows ∧
      (out.Pairwise fun a b => k.Leads a b ∨ ¬k.Leads b a ∧ R a b) ∧
      ∀ pick : Value → Bool,
        (∀ a ∈ rows, ∀ b ∈ rows, pick a = true → pick b = true → ¬k.Leads a b) →
        out.filter pick = rows.filter pick := by
  have hkeyed := keyed_eq k.field rows fun row hrow => by
    obtain ⟨v, hv, -⟩ := hvalues row hrow
    rw [hv]
    rfl
  have hitems := forall_keyedRows hvalues
  have hRitems : (keyedRows k.field rows).Pairwise fun a b => R a.2 b.2 := List.pairwise_map.2 hR
  rw [sortBy, hkeyed, Result.ok_bind]
  cases hd : k.direction with
  | ascending =>
      have hleads : ∀ z ∈ keyedRows k.field rows, ∀ z' ∈ keyedRows k.field rows,
          (Sorting.Less z z' ↔ k.Leads z.2 z'.2) := by
        intro z hz z' hz'
        rw [Sorting.Less, Sorting.less, SortKey.Leads, hd, (mem_keyedRows hz).1,
          (mem_keyedRows hz').1]
      obtain ⟨out, hout, hperm, hpair⟩ := hS.sortAscending_spec hitems hRitems
      obtain ⟨hperm', hpair'⟩ := arranged_map_snd hleads hperm hpair
      refine ⟨out.map (·.2), by simp only [hout, Result.ok_bind]; rfl, hperm', hpair', ?_⟩
      intro pick hties
      refine filter_map_snd (hS.filter_sortAscending hitems ?_ hout)
      intro z hz z' hz' hp hp'
      rw [hleads z hz z' hz']
      exact hties z.2 (mem_keyedRows hz).2 z'.2 (mem_keyedRows hz').2 hp hp'
  | descending =>
      have hleads : ∀ z ∈ keyedRows k.field rows, ∀ z' ∈ keyedRows k.field rows,
          (Sorting.Less z' z ↔ k.Leads z.2 z'.2) := by
        intro z hz z' hz'
        rw [Sorting.Less, Sorting.less, SortKey.Leads, hd, (mem_keyedRows hz).1,
          (mem_keyedRows hz').1]
      obtain ⟨out, hout, hperm, hpair⟩ := hS.sortDescending_spec hitems hRitems
      obtain ⟨hperm', hpair'⟩ := arranged_map_snd hleads hperm hpair
      refine ⟨out.map (·.2), by simp only [hout, Result.ok_bind]; rfl, hperm', hpair', ?_⟩
      intro pick hties
      refine filter_map_snd (hS.filter_sortDescending hitems ?_ hout)
      intro z hz z' hz' hp hp'
      rw [hleads z' hz' z hz]
      exact hties z'.2 (mem_keyedRows hz').2 z.2 (mem_keyedRows hz).2 hp' hp

/-- Sorting by one key puts that key first and keeps the order there was. -/
theorem sortBy_spec {k : SortKey} {keys : List SortKey} {rows : List Value}
    {R : Value → Value → Prop} (h : Sortable (k :: keys) rows) (hR : rows.Pairwise R) :
    ∃ out, sortBy k rows = .ok out ∧ out.Perm rows ∧ out.Pairwise fun a b =>
      k.puts (a.fieldOrNull k.field) (b.fieldOrNull k.field) ∨
        ¬k.puts (b.fieldOrNull k.field) (a.fieldOrNull k.field) ∧ R a b := by
  -- the values in the field are all alike the first of them
  have hvalues : ∀ row ∈ rows, ∃ v, row.field? k.field = some v ∧
      ((rows.headD .null).fieldOrNull k.field).Alike v := by
    intro row hrow
    obtain ⟨v, hv⟩ := Option.isSome_iff_exists.1 (h.present k List.mem_cons_self row hrow)
    have hfirst : rows.headD .null ∈ rows := by
      cases rows with
      | nil => exact absurd hrow List.not_mem_nil
      | cons first rows => exact List.mem_cons_self
    refine ⟨v, hv, ?_⟩
    rw [← fieldOrNull_eq hv]
    exact h.alike k List.mem_cons_self _ hfirst row hrow
  obtain ⟨out, hout, hperm, hpair, -⟩ := sortBy_of_orderable (Value.orderable_alike _) hvalues hR
  refine ⟨out, hout, hperm, hpair.imp_of_mem ?_⟩
  intro a b ha hb hab
  have halike := h.alike k List.mem_cons_self a (hperm.mem_iff.1 ha) b (hperm.mem_iff.1 hb)
  rwa [leads_iff_puts halike, leads_iff_puts halike.symm] at hab

/-- **Sorting by one key after another sorts by all at once.** -/
theorem sortByAll_spec {rows : List Value} {R : Value → Value → Prop} (hR : rows.Pairwise R) :
    ∀ keys : List SortKey, Sortable keys rows →
      ∃ out, sortByAll keys rows = .ok out ∧ out.Perm rows ∧ out.Pairwise (Settled keys R) := by
  intro keys
  induction keys with
  | nil =>
      intro _
      refine ⟨rows, rfl, .refl _, hR.imp ?_⟩
      intro a b hab
      exact Or.inr ⟨by simp [precedes], hab⟩
  | cons k keys ih =>
      intro h
      -- the other keys were sorted by before, and this key leaves its ties in place
      obtain ⟨mid, hmid, hperm, hpair⟩ := ih h.tail
      obtain ⟨out, hout, hperm', hpair'⟩ := sortBy_spec (h.of_perm hperm) hpair
      refine ⟨out, ?_, hperm'.trans hperm, hpair'.imp ?_⟩
      · rw [sortByAll, hmid]
        exact hout
      · intro a b hab
        simp only [Settled, valuesIn_cons, precedes, Bool.or_eq_true, Bool.and_eq_true,
          Bool.not_eq_true']
        rcases hab with hab | ⟨hnot, hab | ⟨hrest, hab⟩⟩
        · exact Or.inl (Or.inl hab)
        · exact Or.inl (Or.inr ⟨Bool.eq_false_iff.2 hnot, hab⟩)
        · by_cases hk : k.puts (a.fieldOrNull k.field) (b.fieldOrNull k.field)
          · exact Or.inl (Or.inl hk)
          · refine Or.inr ⟨?_, hab⟩
            rintro (h' | ⟨-, h'⟩)
            · exact hnot h'
            · exact hrest h'

/-! ## Windows -/

theorem slice_of_nonneg {α : Type} (items : List α) (offset limit : Nat) :
    slice items offset (offset + limit) = (items.drop offset).take limit := by
  have hlow : place items.length (offset : Int) = min offset items.length := by
    rw [place, if_neg (by omega), Int.toNat_natCast]
  have hhigh : place items.length ((offset : Int) + limit) =
      min (offset + limit) items.length := by
    rw [place, if_neg (by omega), show ((offset : Int) + limit).toNat = offset + limit by omega]
  rw [slice, hlow, hhigh]
  -- a window from behind the end is empty, and any other is cut off at the end
  rcases Nat.le_total offset items.length with h | h
  · rw [Nat.min_eq_left h, List.drop_take]
    rcases Nat.le_total (offset + limit) items.length with h' | h'
    · rw [Nat.min_eq_left h', Nat.add_sub_cancel_left]
    · rw [Nat.min_eq_right h', List.take_of_length_le (by simp),
        List.take_of_length_le (by simp; omega)]
  · rw [Nat.min_eq_right h, List.drop_of_length_le (by simp), List.drop_of_length_le h,
      List.take_nil]

/-- The rows that a predicate accepts, arranged in order with no two alike in all keys. -/
structure Arranged (order : SortOrder) (p : Predicate) (rows arranged : List Value) : Prop where
  perm : arranged.Perm (rows.filter p.accepts)
  sorted : arranged.Pairwise fun a b => order.puts (order.valuesOf a) (order.valuesOf b)

/-- No two rows agree in the last key. -/
def Distinct (order : SortOrder) (rows : List Value) : Prop :=
  rows.Pairwise fun a b =>
    a.fieldOrNull order.tieBreaker.field ≠ b.fieldOrNull order.tieBreaker.field

section

variable {order : SortOrder} {p : Predicate} {rows : List Value}

theorem Sortable.allAlike (h : Sortable order.keys rows) {a b : Value} (ha : a ∈ rows)
    (hb : b ∈ rows) : AllAlike (order.valuesOf a) (order.valuesOf b) :=
  allAlike_valuesIn fun k hk => h.alike k hk a ha b hb

theorem Arranged.mem_iff {arranged : List Value} (h : Arranged order p rows arranged)
    {row : Value} : row ∈ arranged ↔ row ∈ rows ∧ p.accepts row := by
  rw [h.perm.mem_iff, List.mem_filter]

/-- Arranged rows are rows that satisfy the predicate. -/
theorem Arranged.holds_of_mem {arranged : List Value} (h : Arranged order p rows arranged)
    (hp : p.Decides rows) {row : Value} (hrow : row ∈ arranged) :
    row ∈ rows ∧ p.holds row = .ok true := by
  obtain ⟨hmem, haccepts⟩ := h.mem_iff.1 hrow
  exact ⟨hmem, (hp.holds_eq hmem).trans (congrArg Except.ok haccepts)⟩

/-- There is at most one arrangement. -/
theorem Arranged.unique_of_matching (hrows : Sortable order.keys (rows.filter p.accepts))
    {l l' : List Value} (h : Arranged order p rows l) (h' : Arranged order p rows l') : l = l' := by
  -- two sorted lists of the same rows are one list, for no two rows stand both ways
  refine (h.perm.trans h'.perm.symm).eq_of_pairwise ?_ h.sorted h'.sorted
  intro a b ha hb hab hba
  have ha := h.perm.mem_iff.1 ha
  have hb := h'.perm.mem_iff.1 hb
  exact absurd hba (precedes_asymm (hrows.allAlike ha hb) hab)

theorem Arranged.unique (hrows : Sortable order.keys rows) {l l' : List Value}
    (h : Arranged order p rows l) (h' : Arranged order p rows l') : l = l' :=
  h.unique_of_matching (hrows.filter p.accepts) h'

/-- Keeping some rows of an arrangement arranges the rows that are accepted and kept. -/
theorem Arranged.filter {arranged : List Value} (h : Arranged order p rows arranged)
    {q : Predicate} {keep : Value → Bool}
    (hq : ∀ row ∈ rows, q.accepts row = (p.accepts row && keep row)) :
    Arranged order q rows (arranged.filter keep) where
  perm := by
    have hfilter : rows.filter q.accepts = (rows.filter p.accepts).filter keep := by
      rw [List.filter_filter]
      apply List.filter_congr
      intro row hrow
      rw [hq row hrow, Bool.and_comm]
    rw [hfilter]
    exact h.perm.filter keep
  sorted := List.Pairwise.filter keep h.sorted

/-- The other way round, an arrangement is one under the reversed order. -/
theorem Arranged.reverse {arranged : List Value} (h : Arranged order p rows arranged) :
    Arranged order.reversed p rows arranged.reverse where
  perm := (List.reverse_perm arranged).trans h.perm
  sorted := by
    refine List.pairwise_reverse.2 (h.sorted.imp ?_)
    intro a b hab
    rwa [SortOrder.reversed_puts, SortOrder.valuesOf_reversed, SortOrder.valuesOf_reversed]

theorem Sortable.reversed (h : Sortable order.keys rows) : Sortable order.reversed.keys rows where
  present k hk row hrow := by
    obtain ⟨k', hk', rfl⟩ := List.mem_map.1 hk
    exact h.present k' hk' row hrow
  alike k hk a ha b hb := by
    obtain ⟨k', hk', rfl⟩ := List.mem_map.1 hk
    exact h.alike k' hk' a ha b hb

theorem Distinct.reversed (h : Distinct order rows) : Distinct order.reversed rows := by
  have hlast : order.reversed.tieBreaker.field = order.tieBreaker.field := by
    simp [SortOrder.tieBreaker, SortOrder.reversed, SortKey.reversed, List.getLast_map]
  rwa [Distinct, hlast]

theorem Distinct.ne (hdistinct : Distinct order rows) {arranged : List Value}
    (hperm : arranged.Perm (rows.filter p.accepts)) :
    arranged.Pairwise fun a b => order.valuesOf a ≠ order.valuesOf b := by
  have hfilter := List.Pairwise.filter p.accepts hdistinct
  apply ((hperm.pairwise_iff fun h => Ne.symm h).2 hfilter).imp
  intro a b hne heq
  -- rows with equal key values would agree in the last key
  exact hne (List.map_inj_left.1 heq order.tieBreaker order.tieBreaker_mem)

/-- **A window** is a piece of the arrangement of the rows that its predicate accepts, when these can
be sorted and no two of them agree in all keys. -/
theorem window_of_matching (hrows : Sortable order.keys (rows.filter p.accepts))
    (hne : (rows.filter p.accepts).Pairwise fun a b => order.valuesOf a ≠ order.valuesOf b)
    (hp : p.Decides rows) : ∃ arranged, Arranged order p rows arranged ∧
      ∀ offset limit : Nat, window rows ⟨p, order, limit, offset⟩ =
        .ok ((arranged.drop offset).take limit) := by
  have hmatching := matching_eq_filter hp
  obtain ⟨out, hout, hperm, hpair⟩ := sortByAll_spec (R := fun _ _ => True)
    (List.pairwise_of_forall fun _ _ => trivial) order.keys hrows
  have hout_ne := (hperm.pairwise_iff fun h => Ne.symm h).2 hne
  refine ⟨out, ⟨hperm, ?_⟩, ?_⟩
  · apply (hpair.and hout_ne).imp_of_mem
    intro a b ha hb hab
    have ha := hperm.mem_iff.1 ha
    have hb := hperm.mem_iff.1 hb
    -- no two rows tie in all keys, so what is not put the other way round is put this way
    rcases precedes_trichotomy order.keys (hrows.allAlike ha hb)
      (by rw [SortOrder.length_valuesOf, SortOrder.size]) with h | h | h
    · exact h
    · exact absurd h hab.2
    · rcases hab.1 with h' | ⟨h', -⟩
      · exact h'
      · exact absurd h h'
  · intro offset limit
    rw [window, hmatching]
    simp only [bind, Except.bind, hout]
    rw [slice_of_nonneg]
    rfl

/-- The window of rows that can be sorted and differ in the last key. -/
theorem window_spec (hrows : Sortable order.keys rows) (hdistinct : Distinct order rows)
    (hp : p.Decides rows) : ∃ arranged, Arranged order p rows arranged ∧
      ∀ offset limit : Nat, window rows ⟨p, order, limit, offset⟩ =
        .ok ((arranged.drop offset).take limit) :=
  window_of_matching (hrows.filter p.accepts) (hdistinct.ne (.refl _)) hp

/-- A window is a piece of any arrangement, there being only one. -/
theorem Arranged.window_eq (hrows : Sortable order.keys rows) (hdistinct : Distinct order rows)
    (hp : p.Decides rows) {arranged : List Value} (h : Arranged order p rows arranged)
    (offset limit : Nat) :
    window rows ⟨p, order, limit, offset⟩ = .ok ((arranged.drop offset).take limit) := by
  obtain ⟨arranged', h', hwindow⟩ := window_spec hrows hdistinct hp
  rw [h.unique hrows h']
  exact hwindow offset limit

end

end Memory

end Listing
