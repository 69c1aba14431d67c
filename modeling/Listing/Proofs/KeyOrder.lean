import Mathlib.Data.List.Basic
import Mathlib.Data.List.Forall2
import Mathlib.Data.String.Basic
import Listing.Proofs.StableSorting
import Listing.Schema.Basic
import Listing.SortOrder.Basic

/-!
# The order of key values

The meaning of a sort order, said without any comparison that may fail. Integers are ordered by size
and texts by code points (`Value.isBelow`); a key puts values in that order or in the opposite one
(`SortKey.puts`); of two rows of key values the first that differ decide (`precedes`). On alike
values the comparisons of values agree with it, it is a strict linear order, and the reversed order
is its converse.
-/

set_option autoImplicit false

namespace Listing

/-! ## Values -/

/-- The first list comes first when it is smaller by code points at the first difference, or ends
there. -/
theorem compareChars_eq_lt (as : List Char) : ∀ bs : List Char,
    compareChars as bs = .lt ↔ as < bs := by
  induction as with
  | nil =>
      intro bs
      cases bs <;> simp [compareChars]
  | cons a as ih =>
      intro bs
      cases bs with
      | nil => simp [compareChars]
      | cons b bs =>
          -- characters are ordered by their numbers
          have hlt : a.toNat < b.toNat ↔ a < b := Iff.rfl
          have heq : a.toNat = b.toNat ↔ a = b := Char.toNat_inj
          rw [compareChars, Ordering.then_eq_lt, Nat.compare_eq_lt, Nat.compare_eq_eq, ih, hlt, heq,
            List.cons_lt_cons_iff]

theorem compareChars_swap (as : List Char) : ∀ bs : List Char,
    (compareChars as bs).swap = compareChars bs as := by
  induction as with
  | nil =>
      intro bs
      cases bs <;> rfl
  | cons a as ih =>
      intro bs
      cases bs with
      | nil => rfl
      | cons b bs =>
          rw [compareChars, compareChars, Ordering.swap_then, ih, Nat.compare_swap]

theorem compareChars_eq_eq (as : List Char) : ∀ bs : List Char,
    compareChars as bs = .eq ↔ as = bs := by
  induction as with
  | nil =>
      intro bs
      cases bs <;> simp [compareChars]
  | cons a as ih =>
      intro bs
      cases bs with
      | nil => simp [compareChars]
      | cons b bs =>
          rw [compareChars, Ordering.then_eq_eq, Nat.compare_eq_eq, ih, Char.toNat_inj,
            List.cons.injEq]

theorem compareTexts_swap (s t : String) : (compareTexts s t).swap = compareTexts t s :=
  compareChars_swap s.toList t.toList

theorem compareTexts_eq_eq {s t : String} : compareTexts s t = .eq ↔ s = t := by
  rw [compareTexts, compareChars_eq_eq, String.toList_inj]

theorem compareTexts_eq_gt {s t : String} : compareTexts s t = .gt ↔ compareTexts t s = .lt := by
  rw [← compareTexts_swap t s, Ordering.swap_eq_gt]

theorem compareTexts_trans {r s t : String} (h : compareTexts r s = .lt)
    (h' : compareTexts s t = .lt) : compareTexts r t = .lt := by
  rw [compareTexts, compareChars_eq_lt] at *
  exact List.lt_trans h h'

namespace Value

/-- Both values are integers, or both are texts. -/
inductive Alike : Value → Value → Prop
  | int (i j : Int) : Alike (int i) (int j)
  | text (s t : String) : Alike (text s) (text t)

/-- The first integer is smaller, or the first text comes first by code points. -/
def isBelow : Value → Value → Bool
  | int i, int j => decide (i < j)
  | text s, text t => compareTexts s t == .lt
  | _, _ => false

variable {u v w : Value}

theorem Alike.symm (h : Alike v w) : Alike w v := by
  cases h with
  | int i j => exact .int j i
  | text s t => exact .text t s

theorem Alike.trans (h : Alike u v) (h' : Alike v w) : Alike u w := by
  cases h with
  | int i j => cases h' with
    | int _ k => exact .int i k
  | text s t => cases h' with
    | text _ t' => exact .text s t'

theorem Alike.refl (h : Alike v w) : Alike v v :=
  h.trans h.symm

theorem Alike.of_isBelow (h : v.isBelow w = true) : Alike v w := by
  cases v with
  | int i => cases w with
    | int j => exact .int i j
    | _ => simp [isBelow] at h
  | text s => cases w with
    | text t => exact .text s t
    | _ => simp [isBelow] at h
  | _ => simp [isBelow] at h

theorem isBelow_irrefl (v : Value) : ¬v.isBelow v := by
  cases v with
  | text s =>
      have h : compareTexts s s = .eq := compareTexts_eq_eq.2 rfl
      simp [isBelow, h]
  | _ => simp [isBelow]

theorem isBelow_trans (h : u.isBelow v) (h' : v.isBelow w) : u.isBelow w := by
  cases Alike.of_isBelow h with
  | int i j => cases Alike.of_isBelow h' with
    | int _ k =>
        simp only [isBelow, decide_eq_true_eq] at h h' ⊢
        omega
  | text s t => cases Alike.of_isBelow h' with
    | text _ t' =>
        simp only [isBelow, beq_iff_eq] at h h' ⊢
        exact compareTexts_trans h h'

theorem isBelow_asymm (h : v.isBelow w) : ¬w.isBelow v := by
  intro h'
  exact isBelow_irrefl v (isBelow_trans h h')

/-- Alike values are in one order or the other, or are one value. -/
theorem Alike.trichotomy (h : Alike v w) : v.isBelow w ∨ v = w ∨ w.isBelow v := by
  cases h with
  | int i j =>
      simp only [isBelow, decide_eq_true_eq, int.injEq]
      omega
  | text s t =>
      simp only [isBelow, beq_iff_eq, text.injEq]
      cases ho : compareTexts s t with
      | lt => exact Or.inl rfl
      | eq => exact Or.inr (Or.inl (compareTexts_eq_eq.1 ho))
      | gt => exact Or.inr (Or.inr (compareTexts_eq_gt.1 ho))

theorem Alike.compares_lt (h : Alike v w) : v.compares .lt w = .ok (v.isBelow w) := by
  cases h with
  | int i j =>
      simp [compares, compareScalars, number?, Number.orderSignals, Number.isDecimal,
        Number.compare?, Comparison.admits, isBelow, compare_lt_iff_lt, Bool.beq_eq_decide_eq]
  | text s t => simp [compares, compareScalars, number?, Comparison.admits, isBelow]

theorem Alike.compares_gt (h : Alike v w) : v.compares .gt w = .ok (w.isBelow v) := by
  cases h with
  | int i j =>
      have ho : (compare i j == .gt) = decide (j < i) := by
        rw [Bool.eq_iff_iff, beq_iff_eq, compare_gt_iff_gt, decide_eq_true_eq]
      simp [compares, compareScalars, number?, Number.orderSignals, Number.isDecimal,
        Number.compare?, Comparison.admits, isBelow, ho]
  | text s t =>
      simp [compares, compareScalars, number?, Comparison.admits, isBelow, compareTexts_eq_gt]

theorem Alike.equal_eq (h : Alike v w) : ∃ b, v.equal w = .ok b ∧ (b = true ↔ v = w) := by
  cases h with
  | int i j =>
      simp [equal, equalScalars, number?, Number.equalitySignals, Number.isSignaling,
        Number.compare?]
  | text s t => simp [equal, equalScalars, number?]

/-- Values alike one value can be sorted. -/
theorem orderable_alike (pivot : Value) : Sorting.Orderable (Alike pivot) where
  decided hv hw := ⟨_, (hv.symm.trans hw).compares_lt⟩
  asymm := by
    intro v w hv hw h h'
    rw [(hv.symm.trans hw).compares_lt] at h
    rw [(hw.symm.trans hv).compares_lt] at h'
    exact isBelow_asymm (Except.ok.inj h) (Except.ok.inj h')
  trans := by
    intro u v w hu hv hw huv hvw huw
    rw [(hv.symm.trans hu).compares_lt, ne_eq, Except.ok.injEq] at huv
    rw [(hw.symm.trans hv).compares_lt, ne_eq, Except.ok.injEq] at hvw
    rw [(hw.symm.trans hu).compares_lt, Except.ok.injEq] at huw
    -- `w` below `u` would be below `v`, or `v` below `u`
    rcases (hu.symm.trans hv).trichotomy with h | rfl | h
    · exact hvw (isBelow_trans huw h)
    · exact hvw huw
    · exact huv h

end Value

/-! ## Keys -/

namespace SortKey

/-- The key puts the first value before the second. -/
def puts (k : SortKey) (v w : Value) : Bool :=
  match k.direction with
  | .ascending => v.isBelow w
  | .descending => w.isBelow v

variable {k : SortKey} {u v w : Value}

theorem puts_irrefl (k : SortKey) (v : Value) : ¬k.puts v v := by
  unfold puts
  split <;> exact v.isBelow_irrefl

theorem puts_trans (h : k.puts u v) (h' : k.puts v w) : k.puts u w := by
  unfold puts at *
  cases hd : k.direction with
  | ascending =>
      rw [hd] at h h'
      exact Value.isBelow_trans h h'
  | descending =>
      rw [hd] at h h'
      exact Value.isBelow_trans h' h

theorem puts_trichotomy (k : SortKey) (h : v.Alike w) : k.puts v w ∨ v = w ∨ k.puts w v := by
  unfold puts
  split
  · exact h.trichotomy
  · rcases h.trichotomy with h | h | h
    · exact Or.inr (Or.inr h)
    · exact Or.inr (Or.inl h)
    · exact Or.inl h

@[simp]
theorem reversed_puts (k : SortKey) (v w : Value) : k.reversed.puts v w = k.puts w v := by
  unfold puts reversed
  cases k.direction <;> rfl

end SortKey

/-! ## Rows of key values -/

/-- The first values that differ are put in the order of their key. -/
def precedes : List SortKey → List Value → List Value → Bool
  | k :: keys, v :: vs, w :: ws =>
    k.puts v w || !k.puts w v && precedes keys vs ws
  | _, _, _ => false

/-- The values are alike one by one. -/
abbrev AllAlike (vs ws : List Value) : Prop :=
  List.Forall₂ Value.Alike vs ws

theorem AllAlike.symm {vs ws : List Value} (h : AllAlike vs ws) : AllAlike ws vs :=
  List.Forall₂.flip (h.imp fun _ _ h => h.symm)

theorem AllAlike.trans {us vs ws : List Value} (h : AllAlike us vs) (h' : AllAlike vs ws) :
    AllAlike us ws := by
  induction h generalizing ws with
  | nil => exact h'
  | cons h _ ih => cases h' with
    | cons h₁ h₂ => exact .cons (h.trans h₁) (ih h₂)

theorem precedes_cons_iff {k : SortKey} {keys : List SortKey} {v w : Value} {vs ws : List Value}
    (h : v.Alike w) : precedes (k :: keys) (v :: vs) (w :: ws) ↔
      k.puts v w ∨ v = w ∧ precedes keys vs ws := by
  rw [precedes, Bool.or_eq_true, Bool.and_eq_true, Bool.not_eq_true']
  rcases k.puts_trichotomy h with hp | rfl | hp
  · simp [hp]
  · simp [k.puts_irrefl v]
  -- the key puts the second value first, so the values differ
  · have hvw : v ≠ w := by
      rintro rfl
      exact k.puts_irrefl v hp
    simp [hp, hvw]

/-- One row of values precedes another when the first key in which they differ puts its value
before. -/
theorem precedes_iff_exists (keys : List SortKey) : ∀ {vs ws : List Value}, AllAlike vs ws →
    (precedes keys vs ws ↔ ∃ i k v w, keys[i]? = some k ∧ vs[i]? = some v ∧ ws[i]? = some w ∧
      vs.take i = ws.take i ∧ k.puts v w) := by
  induction keys with
  | nil => simp [precedes]
  | cons k keys ih =>
      intro vs ws h
      cases h with
      | nil => simp [precedes]
      | cons hfirst hrest =>
          rw [precedes_cons_iff hfirst, ih hrest]
          constructor
          · rintro (hput | ⟨rfl, i, k', v, w, hk, hv, hw, htake, hput⟩)
            · exact ⟨0, k, _, _, rfl, rfl, rfl, rfl, hput⟩
            · refine ⟨i + 1, k', v, w, hk, hv, hw, ?_, hput⟩
              rw [List.take_succ_cons, List.take_succ_cons, htake]
          · rintro ⟨i, k', v, w, hk, hv, hw, htake, hput⟩
            cases i with
            | zero =>
                obtain rfl := Option.some.inj hk
                obtain rfl := Option.some.inj hv
                obtain rfl := Option.some.inj hw
                exact Or.inl hput
            | succ i =>
                rw [List.take_succ_cons, List.take_succ_cons, List.cons.injEq] at htake
                exact Or.inr ⟨htake.1, i, k', v, w, hk, hv, hw, htake.2, hput⟩

theorem precedes_irrefl (keys : List SortKey) : ∀ vs : List Value, ¬precedes keys vs vs := by
  induction keys with
  | nil => simp [precedes]
  | cons k keys ih =>
      intro vs
      cases vs with
      | nil => simp [precedes]
      | cons v vs =>
          -- the first values tie, so the rest decides
          have hk : k.puts v v = false := Bool.eq_false_iff.2 (k.puts_irrefl v)
          rw [precedes, hk]
          exact ih vs

theorem precedes_trans (keys : List SortKey) : ∀ {us vs ws : List Value}, AllAlike us vs →
    AllAlike vs ws → precedes keys us vs → precedes keys vs ws → precedes keys us ws := by
  induction keys with
  | nil =>
      intro us vs ws _ _ h _
      exact absurd h (by simp [precedes])
  | cons k keys ih =>
      intro us vs ws huv hvw h h'
      cases huv with
      | nil => exact absurd h (by simp [precedes])
      | cons huv₁ huv₂ => cases hvw with
        | cons hvw₁ hvw₂ =>
            rw [precedes_cons_iff huv₁] at h
            rw [precedes_cons_iff hvw₁] at h'
            rw [precedes_cons_iff (huv₁.trans hvw₁)]
            -- the first difference of the two steps decides: ties leave it to the other step
            rcases h with h | ⟨rfl, h⟩
            · rcases h' with h' | ⟨rfl, h'⟩
              · exact Or.inl (SortKey.puts_trans h h')
              · exact Or.inl h
            · rcases h' with h' | ⟨rfl, h'⟩
              · exact Or.inl h'
              · exact Or.inr ⟨rfl, ih huv₂ hvw₂ h h'⟩

theorem precedes_asymm {keys : List SortKey} {vs ws : List Value} (hvw : AllAlike vs ws)
    (h : precedes keys vs ws) : ¬precedes keys ws vs := by
  intro h'
  exact precedes_irrefl keys vs (precedes_trans keys hvw hvw.symm h h')

/-- Of two rows of values for all keys one precedes the other, unless they are one row. -/
theorem precedes_trichotomy (keys : List SortKey) : ∀ {vs ws : List Value}, AllAlike vs ws →
    vs.length = keys.length → precedes keys vs ws ∨ vs = ws ∨ precedes keys ws vs := by
  induction keys with
  | nil =>
      intro vs ws hvw hlength
      obtain rfl := List.length_eq_zero_iff.1 hlength
      cases hvw
      exact Or.inr (Or.inl rfl)
  | cons k keys ih =>
      intro vs ws hvw hlength
      cases hvw with
      | nil => exact absurd hlength (by simp)
      | cons hvw₁ hvw₂ =>
          rw [precedes_cons_iff hvw₁, precedes_cons_iff hvw₁.symm]
          rcases k.puts_trichotomy hvw₁ with h | rfl | h
          -- the first values decide
          · exact Or.inl (Or.inl h)
          -- the first values tie, so the rest decides
          · rcases ih hvw₂ (by simpa using hlength) with h | rfl | h
            · exact Or.inl (Or.inr ⟨rfl, h⟩)
            · exact Or.inr (Or.inl rfl)
            · exact Or.inr (Or.inr (Or.inr ⟨rfl, h⟩))
          · exact Or.inr (Or.inr (Or.inl h))

/-- Opposite directions put rows of values in the opposite order. -/
theorem precedes_map_reversed (keys : List SortKey) : ∀ vs ws : List Value,
    precedes (keys.map (·.reversed)) vs ws = precedes keys ws vs := by
  induction keys with
  | nil =>
      intro vs ws
      simp [precedes]
  | cons k keys ih =>
      intro vs ws
      cases vs with
      | nil => cases ws <;> simp [precedes]
      | cons v vs => cases ws with
        | nil => simp [precedes]
        | cons w ws => simp [precedes, ih]

/-! ## Rows -/

/-- The values of a row in the fields of keys. -/
def valuesIn (keys : List SortKey) (row : Value) : List Value :=
  keys.map fun k => row.fieldOrNull k.field

theorem valuesIn_cons (k : SortKey) (keys : List SortKey) (row : Value) :
    valuesIn (k :: keys) row = row.fieldOrNull k.field :: valuesIn keys row :=
  rfl

namespace SortOrder

/-- The values of a row in the fields of the keys of an order. -/
def valuesOf (order : SortOrder) (row : Value) : List Value :=
  valuesIn order.keys row

/-- The first row of key values comes before the second. -/
def puts (order : SortOrder) (vs ws : List Value) : Bool :=
  precedes order.keys vs ws

@[simp]
theorem length_valuesOf (order : SortOrder) (row : Value) :
    (order.valuesOf row).length = order.size := by
  simp [valuesOf, valuesIn, size]

@[simp]
theorem valuesOf_reversed (order : SortOrder) (row : Value) :
    order.reversed.valuesOf row = order.valuesOf row := by
  simp [valuesOf, valuesIn, reversed, SortKey.reversed, Function.comp_def]

@[simp]
theorem reversed_puts (order : SortOrder) (vs ws : List Value) :
    order.reversed.puts vs ws = order.puts ws vs :=
  precedes_map_reversed order.keys vs ws

@[simp]
theorem size_reversed (order : SortOrder) : order.reversed.size = order.size := by
  simp [size, reversed]

theorem tieBreaker_mem (order : SortOrder) : order.tieBreaker ∈ order.keys :=
  List.getLast_mem order.nonempty

end SortOrder

/-- Rows of alike values in every key have alike key values. -/
theorem allAlike_valuesIn {a b : Value} : ∀ {keys : List SortKey},
    (∀ k ∈ keys, (a.fieldOrNull k.field).Alike (b.fieldOrNull k.field)) →
      AllAlike (valuesIn keys a) (valuesIn keys b) := by
  intro keys
  induction keys with
  | nil =>
      intro _
      exact .nil
  | cons k keys ih =>
      intro h
      exact .cons (h k (by simp)) (ih fun k' hk' => h k' (by simp [hk']))

/-! ## Declared fields -/

namespace Schema

/-- The value can be a key of a field: an integer or a text of the kind of the declared field. -/
structure HoldsKey (s : Schema) (field : String) (v : Value) : Prop where
  scalar : v.Alike v
  accepted : ∃ f, s.get? field = some f ∧ f.accepts v = true

/-- The row has a value that can be a key in the field of every key. -/
def HoldsKeys (s : Schema) (keys : List SortKey) (row : Value) : Prop :=
  ∀ k ∈ keys, ∃ v, row.field? k.field = some v ∧ s.HoldsKey k.field v

theorem accepts_text_of_int {f : Field} {i : Int} {t : String} (h : f.accepts (.int i) = true) :
    f.accepts (.text t) = false := by
  rw [Field.accepts] at *
  cases hk : f.kind <;> rw [hk] at h <;> first | rfl | exact absurd h (by simp [Kind.accepts,
    Value.unwrapped])

/-- A declared field takes integers or texts, not both. -/
theorem HoldsKey.alike {s : Schema} {field : String} {v w : Value} (hv : s.HoldsKey field v)
    (hw : s.HoldsKey field w) : v.Alike w := by
  obtain ⟨f, hf, hfv⟩ := hv.accepted
  obtain ⟨g, hg, hgw⟩ := hw.accepted
  obtain rfl : f = g := Option.some.inj (hf.symm.trans hg)
  have hvscalar := hv.scalar
  have hwscalar := hw.scalar
  -- a field of one kind would have to take an integer and a text
  cases hvscalar with
  | int i _ => cases hwscalar with
    | int j _ => exact .int i j
    | text t _ =>
        rw [accepts_text_of_int hfv] at hgw
        exact absurd hgw Bool.false_ne_true
  | text t _ => cases hwscalar with
    | int j _ =>
        rw [accepts_text_of_int hgw] at hfv
        exact absurd hfv Bool.false_ne_true
    | text t' _ => exact .text t t'

theorem HoldsKeys.fieldOrNull {s : Schema} {keys : List SortKey} {row : Value}
    (h : s.HoldsKeys keys row) {k : SortKey} (hk : k ∈ keys) :
    row.field? k.field = some (row.fieldOrNull k.field) ∧
      s.HoldsKey k.field (row.fieldOrNull k.field) := by
  obtain ⟨v, hv, hkey⟩ := h k hk
  have hnull : row.fieldOrNull k.field = v := by
    rw [Value.fieldOrNull, hv]
    rfl
  rw [hnull]
  exact ⟨hv, hkey⟩

/-- The key values of any two rows with keys can be compared. -/
theorem HoldsKeys.allAlike {s : Schema} {keys : List SortKey} {a b : Value}
    (ha : s.HoldsKeys keys a) (hb : s.HoldsKeys keys b) :
    AllAlike (valuesIn keys a) (valuesIn keys b) :=
  allAlike_valuesIn fun _ hk => (ha.fieldOrNull hk).2.alike (hb.fieldOrNull hk).2

end Schema

end Listing
