import Mathlib.Data.List.Basic
import Listing.Keyset
import Listing.Proofs.KeyOrder
import Listing.Proofs.NormalForm
import Listing.Proofs.WritableTexts

/-!
# What a keyset selects

On a row whose key values are alike the given ones, the predicate of a keyset holds exactly when the
given values come before the values of the row (`Keyset.holds_strictlyAfter`). The branches are
followed key by key, with the equalities so far as the invariant. The keyset of the reversed order
selects the other side, so a row is selected by one of the two or stands at the values
(`Keyset.selects_one_side`).
-/

set_option autoImplicit false

namespace Listing

namespace SortKey

theorem holds_beyond {k : SortKey} {v row : Value} (h : v.Alike (row.fieldOrNull k.field)) :
    (Predicate.order k.field k.beyond v).holds row = .ok (k.puts v (row.fieldOrNull k.field)) := by
  -- no value that is like another is null, so the values are compared
  have hnull : ((row.fieldOrNull k.field).isNull || v.isNull) = false := by
    generalize row.fieldOrNull k.field = w at h
    cases h <;> rfl
  rw [Predicate.holds, Predicate.comparesKnown, hnull, if_neg Bool.false_ne_true]
  unfold beyond puts
  cases k.direction with
  | ascending => exact h.symm.compares_gt
  | descending => exact h.symm.compares_lt

end SortKey

namespace Keyset

open Predicate

theorem normal_branch (equalities : List Predicate) (k : SortKey) (keys : List SortKey) (v : Value)
    (values : List Value) :
    (branches equalities (k :: keys) (v :: values)).map normal =
      .conjoin (equalities ++ [.order k.field k.beyond v]) ::
        (branches (equalities ++ [.equal k.field v]) keys values).map normal := by
  rw [branches, List.map_cons, normal_conjoin]

/-- The branches after some equalities hold together when the equalities do and the values precede
those of the row. -/
theorem holdsAny_branches (row : Value) (keys : List SortKey) : ∀ {values : List Value}
    {equalities : List Predicate} {b : Bool},
    AllAlike values (valuesIn keys row) →
    holdsAll (equalities.map normal) row = .ok b →
    holdsAny ((branches equalities keys values).map normal) row =
      .ok (b && precedes keys values (valuesIn keys row)) := by
  induction keys with
  | nil =>
      intro values equalities b _ _
      simp [branches, holdsAny, precedes]
  | cons k keys ih =>
      intro values equalities b halike hb
      cases halike with
      | @cons v _ values _ hv hvalues =>
          change v.Alike (row.fieldOrNull k.field) at hv
          obtain ⟨e, he, heq⟩ := hv.symm.equal_eq
          -- the equalities of the next branches gain the one in this key
          have hequal : holdsAll ((equalities ++ [Predicate.equal k.field v]).map normal) row =
              .ok (b && e) := by
            have hleaf : (Predicate.equal k.field v).normal.holds row = .ok e := by
              rw [normal_of_isNormal _ (by simp [IsNormal]), holds, he]
            rw [List.map_append, holdsAll_append, hb, List.map_singleton, holdsAll_singleton, hleaf]
            cases b <;> rfl
          -- this branch asks for the equalities so far and a greater value in this key
          have hhead : (conjoin (equalities ++ [.order k.field k.beyond v])).holds row =
              .ok (b && k.puts v (row.fieldOrNull k.field)) := by
            rw [holds_conjoin, List.map_append, holdsAll_append, hb, List.map_singleton,
              holdsAll_singleton, normal_of_isNormal _ (by simp [IsNormal]),
              SortKey.holds_beyond hv]
            cases b <;> rfl
          -- so does the order: beyond in this key, or equal and beyond in the rest
          have hprecedes : precedes (k :: keys) (v :: values)
              (valuesIn (k :: keys) row) =
                (k.puts v (row.fieldOrNull k.field) ||
                  e && precedes keys values (valuesIn keys row)) := by
            rw [Bool.eq_iff_iff, valuesIn_cons, precedes_cons_iff hv, Bool.or_eq_true,
              Bool.and_eq_true, heq, @eq_comm _ v]
          rw [normal_branch, holdsAny, hhead, ih hvalues hequal, hprecedes]
          -- a fault is raised by none of them, and the truth values agree
          cases b <;> cases k.puts v (row.fieldOrNull k.field) <;> cases e <;> rfl

/-- No branch is neutral, for it keeps the comparison in its own key. -/
theorem isAlways_of_mem_branches (keys : List SortKey) : ∀ (equalities : List Predicate)
    (values : List Value), ∀ p ∈ branches equalities keys values, p.normal.isAlways = false := by
  induction keys with
  | nil =>
      intro equalities values p hp
      exact absurd hp (by simp [branches])
  | cons k keys ih =>
      intro equalities values p hp
      cases values with
      | nil => exact absurd hp (by simp [branches])
      | cons v values =>
          rw [branches, List.mem_cons] at hp
          rcases hp with rfl | hp
          -- the comparison in the key of the branch is a conjunct that stays
          · rw [normal_conjoin]
            apply isAlways_conjoin
            rw [normalConjuncts_append]
            exact List.append_ne_nil_of_right_ne_nil _ (by simp [normalConjuncts, normal, conjuncts])
          · exact ih _ values p hp

/-- **A keyset selects the rows strictly after its values.** -/
theorem holds_strictlyAfter {order : SortOrder} {values : List Value} {row : Value}
    (h : AllAlike values (order.valuesOf row)) :
    (strictlyAfter order values).holds row = .ok (order.puts values (order.valuesOf row)) := by
  -- there is a branch for every key
  have hne : branches [] order.keys values ≠ [] := by
    have hlength : values.length = order.keys.length := by
      rw [h.length_eq, SortOrder.length_valuesOf, SortOrder.size]
    cases hkeys : order.keys with
    | nil => exact absurd hkeys order.nonempty
    | cons k keys => cases values with
      | nil =>
          rw [hkeys] at hlength
          exact absurd hlength (by simp)
      | cons v values => exact List.cons_ne_nil _ _
  rw [strictlyAfter, holds_disjoin hne (isAlways_of_mem_branches order.keys [] values),
    holdsAny_branches row order.keys h (b := true) rfl]
  rfl

/-- The keyset of the reversed order selects the rows strictly before its values. -/
theorem holds_strictlyAfter_reversed {order : SortOrder} {values : List Value} {row : Value}
    (h : AllAlike values (order.valuesOf row)) :
    (strictlyAfter order.reversed values).holds row =
      .ok (order.puts (order.valuesOf row) values) := by
  rw [holds_strictlyAfter (by rwa [SortOrder.valuesOf_reversed]), SortOrder.valuesOf_reversed,
    SortOrder.reversed_puts]

theorem predicate_of_allAlike {order : SortOrder} {values : List Value} {row : Value}
    (h : AllAlike values (order.valuesOf row)) :
    predicate order values = .ok (strictlyAfter order values) := by
  have hlength : values.length = order.size := by
    rw [h.length_eq, SortOrder.length_valuesOf]
  rw [predicate, if_pos hlength]

/-- A keyset is in normal form. -/
theorem normal_strictlyAfter (order : SortOrder) (values : List Value) :
    (strictlyAfter order values).normal = strictlyAfter order values :=
  normal_disjoin _

theorem anyForeign_branches (keys : List SortKey) : ∀ (equalities : List Predicate)
    (values : List Value), anyForeign equalities = false →
    anyForeign (branches equalities keys values) = false := by
  induction keys with
  | nil =>
      intro equalities values _
      simp [branches, anyForeign]
  | cons k keys ih =>
      intro equalities values h
      cases values with
      | nil => simp [branches, anyForeign]
      | cons v values =>
          have hequal : anyForeign (equalities ++ [Predicate.equal k.field v]) = false := by
            rw [anyForeign_append, h]
            simp [anyForeign, hasForeign]
          rw [branches, anyForeign, hasForeign_conjoin, anyForeign_append, h, ih _ values hequal]
          simp [anyForeign, hasForeign]

/-- A keyset holds nothing foreign. -/
theorem hasForeign_strictlyAfter (order : SortOrder) (values : List Value) :
    (strictlyAfter order values).hasForeign = false := by
  rw [strictlyAfter, hasForeign_disjoin]
  exact anyForeign_branches order.keys [] values rfl

/-! ## Keysets that can be written -/

/-- Each branch writes the values of its equalities and its own, so all branches write all values. -/
theorem areWritable_branches_iff : ∀ {keys : List SortKey} {values : List Value}
    {equalities : List Predicate}, values.length = keys.length → areWritable equalities = true →
    (areWritable (branches equalities keys values) = true ↔ ∀ v ∈ values, v.isShowable = true) := by
  intro keys
  induction keys with
  | nil =>
      intro values equalities hlength _
      obtain rfl := List.length_eq_zero_iff.1 hlength
      exact iff_of_true rfl fun v hv => absurd hv List.not_mem_nil
  | cons k keys ih =>
      intro values equalities hlength hequalities
      cases values with
      | nil => exact absurd hlength (by simp)
      | cons v values =>
          rw [branches, areWritable, isWritable_conjoin, areWritable_append, hequalities,
            Bool.true_and, List.forall_mem_cons]
          change ((v.isShowable && true) && _) = true ↔ _
          rw [Bool.and_true, Bool.and_eq_true]
          refine and_congr_right fun hv => ih (Nat.succ.inj hlength) ?_
          rw [areWritable_append, hequalities, Bool.true_and]
          exact (Bool.and_true _).trans hv

/-- **A keyset can be written if and only if its values can.** -/
theorem isWritable_strictlyAfter_iff {order : SortOrder} {values : List Value}
    (hlength : values.length = order.size) :
    (strictlyAfter order values).isWritable = true ↔ ∀ v ∈ values, v.isShowable = true := by
  rw [strictlyAfter, isWritable_disjoin]
  exact areWritable_branches_iff hlength rfl

/-! ## Both sides of the values -/

/-- **A row is on one side of the values or at them.** On a row whose key values are alike the given
ones, the keyset holds exactly when the first key in which they differ puts the given value first;
and exactly one is the case: the keyset of the order holds, the keyset of the reversed order holds,
or the key values of the row are the given ones. -/
theorem selects_one_side {order : SortOrder} {values : List Value} {row : Value}
    (h : AllAlike values (order.valuesOf row)) :
    ∃ after before, predicate order values = .ok after ∧
      predicate order.reversed values = .ok before ∧
      (after.holds row = .ok true ↔ ∃ i k v w, order.keys[i]? = some k ∧ values[i]? = some v ∧
        (order.valuesOf row)[i]? = some w ∧ values.take i = (order.valuesOf row).take i ∧
        k.puts v w) ∧
      (after.holds row = .ok true ∧ before.holds row = .ok false ∧ order.valuesOf row ≠ values ∨
        after.holds row = .ok false ∧ before.holds row = .ok true ∧ order.valuesOf row ≠ values ∨
        after.holds row = .ok false ∧ before.holds row = .ok false ∧
          order.valuesOf row = values) := by
  have hreversed : AllAlike values (order.reversed.valuesOf row) := by
    rwa [SortOrder.valuesOf_reversed]
  have hlength : values.length = order.keys.length := by
    rw [h.length_eq, SortOrder.length_valuesOf, SortOrder.size]
  have hirrefl := precedes_irrefl order.keys values
  refine ⟨_, _, predicate_of_allAlike h, predicate_of_allAlike hreversed, ?_, ?_⟩
  · rw [holds_strictlyAfter h, Except.ok.injEq]
    exact precedes_iff_exists order.keys h
  · rw [holds_strictlyAfter h, holds_strictlyAfter_reversed h]
    simp only [Except.ok.injEq, SortOrder.puts, ← Bool.not_eq_true]
    rcases precedes_trichotomy order.keys h hlength with hafter | heq | hbefore
    · refine Or.inl ⟨hafter, precedes_asymm h hafter, fun heq => ?_⟩
      exact hirrefl (by rwa [heq] at hafter)
    · rw [← heq]
      exact Or.inr (Or.inr ⟨hirrefl, hirrefl, rfl⟩)
    · refine Or.inr (Or.inl ⟨precedes_asymm h.symm hbefore, hbefore, fun heq => ?_⟩)
      exact hirrefl (by rwa [heq] at hbefore)

end Keyset

namespace Standings

/-- Players by team, with most points first, then by name. -/
def order : SortOrder :=
  ⟨[⟨"team", .ascending⟩, ⟨"points", .descending⟩, ⟨"name", .ascending⟩], List.cons_ne_nil _ _⟩

/-- A player of the second team. -/
def player : Value :=
  .record [("name", .text "y"), ("points", .int 3), ("team", .text "b")]

end Standings

namespace Keyset

/-- A player who ties with the values in team and points is on the side that the name tells. -/
theorem selects_one_side_standings :
    AllAlike [.text "b", .int 3, .text "x"] (Standings.order.valuesOf Standings.player) ∧
    ∃ after before, predicate Standings.order [.text "b", .int 3, .text "x"] = .ok after ∧
      predicate Standings.order.reversed [.text "b", .int 3, .text "x"] = .ok before ∧
      after.holds Standings.player = .ok true ∧ before.holds Standings.player = .ok false := by
  have halike : AllAlike [.text "b", .int 3, .text "x"]
      (Standings.order.valuesOf Standings.player) :=
    .cons (.text "b" "b") (.cons (.int 3 3) (.cons (.text "x" "y") .nil))
  obtain ⟨after, before, hafter, hbefore, hselects, hone⟩ := selects_one_side halike
  have htrue : after.holds Standings.player = .ok true :=
    hselects.2 ⟨2, _, _, _, rfl, rfl, rfl, rfl, by cbv⟩
  refine ⟨halike, after, before, hafter, hbefore, htrue, ?_⟩
  rcases hone with ⟨-, hfalse, -⟩ | ⟨hfalse, -⟩ | ⟨-, hfalse, -⟩
  · exact hfalse
  · exact absurd (htrue.symm.trans hfalse) (by simp)
  · exact hfalse

end Keyset

end Listing
