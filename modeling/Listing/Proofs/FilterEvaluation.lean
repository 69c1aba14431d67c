import Mathlib
import Listing.Proofs.QuietValues
import Listing.Proofs.FilterMeaning

/-!
# Filters that fail on rows

A predicate fails on a row exactly as one of its leaves that is reached fails
(`Predicate.holds_eq_error_iff`). The leaves of a compiled filter compare the values of a row with
values in the form of their kinds, but what a field accepts and what is read for it are not the same:
a date field accepts days and points in time with an offset or without, a choice field accepts
members of an enumeration, a number field accepts not-a-numbers, and a pattern is matched against the
text of a value, which has to be written first. `Filter.decides_iff_no_clash` says on which rows a
filter fails, and with which faults.
-/

set_option autoImplicit false

namespace Listing

/-! ## Leaves that are reached -/

namespace Predicate

mutual

/-- The leaves that are evaluated on the row: a group is left at the part that decides it, or at the
part that fails. -/
def reached : Predicate → Value → List Predicate
  | all parts, row => reachedAll parts row
  | any parts, row => reachedAny parts row
  | always, _ => []
  | p, _ => [p]

/-- The leaves that are evaluated in a conjunction. -/
def reachedAll : List Predicate → Value → List Predicate
  | [], _ => []
  | p :: rest, row =>
    p.reached row ++ match p.holds row with
      | .ok true => reachedAll rest row
      | _ => []

/-- The leaves that are evaluated in a disjunction. -/
def reachedAny : List Predicate → Value → List Predicate
  | [], _ => []
  | p :: rest, row =>
    p.reached row ++ match p.holds row with
      | .ok false => reachedAny rest row
      | _ => []

end

mutual

/-- Only leaves are reached. -/
theorem mem_leaves_of_reached : ∀ {p q : Predicate} {row : Value}, q ∈ p.reached row → q ∈ p.leaves
  | all parts, q, row, h => by
      rw [reached] at h
      rw [leaves]
      exact mem_leavesOf_of_reachedAll h
  | any parts, q, row, h => by
      rw [reached] at h
      rw [leaves]
      exact mem_leavesOf_of_reachedAny h
  | always, q, row, h => by
      rw [reached] at h
      exact absurd h List.not_mem_nil
  | equal _ _, q, row, h | differ _ _, q, row, h | order _ _ _, q, row, h
  | like _ _ _, q, row, h | unlike _ _, q, row, h | among _ _, q, row, h | outside _ _, q, row, h
  | foreign _, q, row, h => by
      simpa [reached, leaves] using h

theorem mem_leavesOf_of_reachedAll : ∀ {parts : List Predicate} {q : Predicate} {row : Value},
    q ∈ reachedAll parts row → q ∈ leavesOf parts
  | [], q, row, h => by
      rw [reachedAll] at h
      exact absurd h List.not_mem_nil
  | p :: rest, q, row, h => by
      rw [reachedAll] at h
      rw [leavesOf]
      rcases List.mem_append.1 h with h | h
      · exact List.mem_append_left _ (mem_leaves_of_reached h)
      · split at h
        · exact List.mem_append_right _ (mem_leavesOf_of_reachedAll h)
        · exact absurd h List.not_mem_nil

theorem mem_leavesOf_of_reachedAny : ∀ {parts : List Predicate} {q : Predicate} {row : Value},
    q ∈ reachedAny parts row → q ∈ leavesOf parts
  | [], q, row, h => by
      rw [reachedAny] at h
      exact absurd h List.not_mem_nil
  | p :: rest, q, row, h => by
      rw [reachedAny] at h
      rw [leavesOf]
      rcases List.mem_append.1 h with h | h
      · exact List.mem_append_left _ (mem_leaves_of_reached h)
      · split at h
        · exact List.mem_append_right _ (mem_leavesOf_of_reachedAny h)
        · exact absurd h List.not_mem_nil

end

/-- Behind a part that does not fail, a fault comes from the leaves that are reached after it. -/
theorem exists_append_iff {p : Predicate} {row : Value} {e : Fault} {b : Bool}
    (hp : p.holds row = .error e ↔ ∃ q ∈ p.reached row, q.holds row = .error e)
    (h : p.holds row = .ok b) (others : List Predicate) :
    (∃ q ∈ p.reached row ++ others, q.holds row = .error e) ↔
      ∃ q ∈ others, q.holds row = .error e := by
  constructor
  · rintro ⟨q, hq, hfails⟩
    rcases List.mem_append.1 hq with hq | hq
    · exact absurd (h.symm.trans (hp.2 ⟨q, hq, hfails⟩)) (by simp)
    · exact ⟨q, hq, hfails⟩
  · rintro ⟨q, hq, hfails⟩
    exact ⟨q, List.mem_append_right _ hq, hfails⟩

mutual

/-- **A predicate fails as one of its leaves fails that is reached**, and only so. -/
theorem holds_eq_error_iff : ∀ (p : Predicate) (row : Value) (e : Fault),
    p.holds row = .error e ↔ ∃ q ∈ p.reached row, q.holds row = .error e
  | all parts, row, e => by
      rw [holds, reached]
      exact holdsAll_eq_error_iff parts row e
  | any parts, row, e => by
      rw [holds, reached]
      exact holdsAny_eq_error_iff parts row e
  | always, row, e => by simp [holds, reached]
  | equal _ _, row, e | differ _ _, row, e | order _ _ _, row, e | like _ _ _, row, e
  | unlike _ _, row, e | among _ _, row, e | outside _ _, row, e | foreign _, row, e => by
      simp [reached]

theorem holdsAll_eq_error_iff : ∀ (parts : List Predicate) (row : Value) (e : Fault),
    holdsAll parts row = .error e ↔ ∃ q ∈ reachedAll parts row, q.holds row = .error e
  | [], row, e => by simp [holdsAll, reachedAll]
  | p :: rest, row, e => by
      have hp := holds_eq_error_iff p row e
      rw [holdsAll, reachedAll]
      cases h : p.holds row with
      | error e' => rw [Result.error_bind, List.append_nil, ← hp, h]
      | ok b =>
          rw [Result.ok_bind, exists_append_iff hp h]
          cases b with
          | true => exact holdsAll_eq_error_iff rest row e
          | false => exact iff_of_false (by simp [pure, Except.pure]) (by simp)

theorem holdsAny_eq_error_iff : ∀ (parts : List Predicate) (row : Value) (e : Fault),
    holdsAny parts row = .error e ↔ ∃ q ∈ reachedAny parts row, q.holds row = .error e
  | [], row, e => by simp [holdsAny, reachedAny]
  | p :: rest, row, e => by
      have hp := holds_eq_error_iff p row e
      rw [holdsAny, reachedAny]
      cases h : p.holds row with
      | error e' => rw [Result.error_bind, List.append_nil, ← hp, h]
      | ok b =>
          rw [Result.ok_bind, exists_append_iff hp h]
          cases b with
          | true => exact iff_of_false (by simp [pure, Except.pure]) (by simp)
          | false => exact holdsAny_eq_error_iff rest row e

end

end Predicate

/-! ## Values that cannot be compared -/

/-- The first value has no order to the second, which was read from a text, and asking for it fails
with the fault. -/
inductive Value.Unordered : Value → Value → Fault → Prop
  /-- A day has no time of day. -/
  | day (d : Date) (t : Instant) : Unordered (.day d) (.instant t) .illTyped
  /-- Only one of the points in time has an offset. -/
  | offset {t t' : Instant} (h : t.offset.isSome ≠ t'.offset.isSome) :
    Unordered (.instant t) (.instant t') .illTyped
  /-- Members of an enumeration have no order. -/
  | member (m : Member Value) (s : String) : Unordered (.member m) (.text s) .illTyped
  /-- One of the numbers is a decimal and the first a not-a-number. -/
  | nowhere {v w : Value} {x y : Number} (hx : v.number? = some x) (hy : w.number? = some y)
    (hnan : x.isNaN = true) (hdecimal : (x.isDecimal || y.isDecimal) = true) :
    Unordered v w .invalidOperation

/-- What is no number has no order because of its type. -/
theorem Value.Unordered.eq_illTyped {v w : Value} {e : Fault} (h : v.Unordered w e)
    (hx : v.number? = none) : e = .illTyped := by
  cases h with
  | day | offset | member => rfl
  | nowhere hx' => exact absurd (hx'.symm.trans hx) (by simp)

/-- Of two numbers, only a not-a-number in the company of a decimal has no order. -/
theorem Value.unordered_iff_of_number {v w : Value} {x y : Number} {e : Fault}
    (hx : v.number? = some x) (hy : w.number? = some y) : v.Unordered w e ↔
      x.isNaN = true ∧ (x.isDecimal || y.isDecimal) = true ∧ e = .invalidOperation := by
  constructor
  · intro h
    cases h with
    | day | offset | member => exact absurd hx (by simp [number?])
    | nowhere hx' hy' hnan hdecimal =>
        obtain rfl := Option.some.inj (hx'.symm.trans hx)
        obtain rfl := Option.some.inj (hy'.symm.trans hy)
        exact ⟨hnan, hdecimal, rfl⟩
  · rintro ⟨hnan, hdecimal, rfl⟩
    exact .nowhere hx hy hnan hdecimal

/-- In every declared field the row has null or a value that the field accepts. -/
def Schema.Fits (s : Schema) (row : Value) : Prop :=
  ∀ name f, s.get? name = some f →
    row.fieldOrNull name = .null ∨ f.accepts (row.fieldOrNull name) = true

namespace Kind

variable {k : Kind} {choices : List String} {v w : Value} {e : Fault}

theorem isQuiet_of_reads (h : k.Reads v) : v.IsQuiet := by
  cases v with
  | decimal d =>
      cases k with
      | number =>
          cases d with
          | finite => rfl
          | infinite => rfl
          | nan => exact absurd h Bool.false_ne_true
      | _ => exact absurd h not_false
  | null | bool | int | float | text | instant | day | uuid | member => trivial
  | list | tuple | map | object => cases k <;> exact absurd h not_false

/-- A value that was read for a number is a number, and no not-a-number. -/
theorem exists_number_of_reads (h : number.Reads v) :
    ∃ y, v.number? = some y ∧ y.isNaN = false := by
  cases v with
  | int i => exact ⟨_, rfl, rfl⟩
  | decimal d =>
      cases d with
      | finite => exact ⟨_, rfl, rfl⟩
      | infinite => exact absurd h Bool.false_ne_true
      | nan => exact absurd h Bool.false_ne_true
  | _ => exact absurd h not_false

/-- **Equality fails on signaling not-a-numbers**, and on nothing else. -/
theorem equal_eq_error_iff (hv : v = .null ∨ k.accepts choices v = true) (hw : k.Reads w) :
    v.equal w = .error e ↔ ¬ v.IsQuiet ∧ e = .invalidOperation := by
  by_cases hquiet : v.IsQuiet
  · obtain ⟨b, hb⟩ := Value.equal_of_isQuiet v w hquiet (isQuiet_of_reads hw)
    rw [hb]
    exact iff_of_false (by simp) (fun h => h.1 hquiet)
  · -- a value that is not quiet is a decimal in the field of a number
    cases v with
    | decimal d =>
        have haccepts := hv.resolve_left (by simp)
        cases k with
        | number =>
            obtain ⟨y, hy, -⟩ := exists_number_of_reads hw
            have hsignals : (Number.decimal d).equalitySignals y = true := by
              rw [Number.equalitySignals, Bool.or_eq_true]
              exact .inl (Bool.of_not_eq_false hquiet)
            have hfails : (Value.decimal d).equal w = .error .invalidOperation := by
              rw [Value.equal_of_number rfl hy, if_pos hsignals]
            rw [hfails, Except.error.injEq]
            exact ⟨fun h => ⟨hquiet, h.symm⟩, fun h => h.2.symm⟩
        | _ => exact absurd haccepts Bool.false_ne_true
    | null | bool | int | float | text | instant | day | uuid | member => exact absurd trivial hquiet
    | list | tuple | map | object =>
        have haccepts := hv.resolve_left (by simp)
        cases k <;> exact absurd haccepts Bool.false_ne_true

theorem compares_eq_error_iff_of_number {op : Comparison} {x y : Number} (hx : v.number? = some x)
    (hy : w.number? = some y) (hnan : y.isNaN = false) :
    v.compares op w = .error e ↔ v.Unordered w e := by
  have hsignals : x.orderSignals y = true ↔ x.isNaN = true ∧ (x.isDecimal || y.isDecimal) = true := by
    rw [Number.orderSignals, hnan, Bool.or_false, Bool.and_eq_true, and_comm]
  rw [Value.compares_of_number op hx hy, Value.unordered_iff_of_number hx hy]
  split
  · next hfails =>
      obtain ⟨hxnan, hdecimal⟩ := hsignals.1 hfails
      rw [Except.error.injEq]
      exact ⟨fun h => ⟨hxnan, hdecimal, h.symm⟩, fun h => h.2.2.symm⟩
  · next hfine => exact iff_of_false (by simp) fun h => hfine (hsignals.2 ⟨h.1, h.2.1⟩)

/-- Values without order fail because of their types. -/
theorem eq_error_iff_of_unordered {r : Result Bool} (h : r = .error .illTyped)
    (hvalues : v.Unordered w .illTyped) : r = .error e ↔ v.Unordered w e := by
  have hnumber : v.number? = none := by cases hvalues <;> rfl
  rw [h, Except.error.injEq]
  constructor
  · rintro rfl
    exact hvalues
  · intro hfails
    exact (hfails.eq_illTyped hnumber).symm

theorem compares_text_eq_error_iff {op : Comparison} {s s' : String} :
    (Value.text s).compares op (.text s') = .error e ↔ (Value.text s).Unordered (.text s') e := by
  refine iff_of_false ?_ ?_
  · simp [Value.compares, Value.compareScalars, Value.number?]
  · rintro ⟨⟩
    contradiction

/-- Points in time have an order unless only one of them has an offset. -/
theorem compares_instant_eq_error_iff {op : Comparison} {t t' : Instant} :
    (Value.instant t).compares op (.instant t') = .error e ↔
      (Value.instant t).Unordered (.instant t') e := by
  have hnone : t.compare? t' = none ↔ t.offset.isSome ≠ t'.offset.isSome := by
    unfold Instant.compare?
    cases t.offset <;> cases t'.offset <;> simp
  cases horder : t.compare? t' with
  | none =>
      refine eq_error_iff_of_unordered ?_ (.offset (hnone.1 horder))
      simp [Value.compares, Value.compareScalars, Value.number?, horder]
  | some o =>
      refine iff_of_false ?_ ?_
      · simp [Value.compares, Value.compareScalars, Value.number?, horder]
      · intro h
        cases h with
        | offset hne => exact absurd (horder.symm.trans (hnone.2 hne)) (by simp)
        | nowhere hx => exact absurd hx (by simp [Value.number?])

/-- **Order fails on what has none**: the value of a row is asked for its order to a value that was
read for the same kind. -/
theorem compares_eq_error_iff {op : Comparison} (hv : k.accepts choices v = true) (hw : k.Reads w) :
    v.compares op w = .error e ↔ v.Unordered w e := by
  cases k with
  | text =>
      cases v with
      | text s =>
          cases w with
          | text s' => exact compares_text_eq_error_iff
          | _ => exact absurd hw not_false
      | _ => exact absurd hv Bool.false_ne_true
  | number =>
      obtain ⟨y, hy, hnan⟩ := exists_number_of_reads hw
      obtain ⟨x, hx⟩ : ∃ x, v.number? = some x := by
        cases v with
        | int i => exact ⟨_, rfl⟩
        | float x => exact ⟨_, rfl⟩
        | decimal d => exact ⟨_, rfl⟩
        | _ => exact absurd hv Bool.false_ne_true
      exact compares_eq_error_iff_of_number hx hy hnan
  | date =>
      cases w with
      | instant t' =>
          cases v with
          | instant t => exact compares_instant_eq_error_iff
          | day d =>
              refine eq_error_iff_of_unordered ?_ (.day d t')
              simp [Value.compares, Value.compareScalars, Value.number?]
          | _ => exact absurd hv Bool.false_ne_true
      | _ => exact absurd hw not_false
  | choice =>
      cases w with
      | text s' =>
          cases v with
          | text s => exact compares_text_eq_error_iff
          | member u =>
              refine eq_error_iff_of_unordered ?_ (.member u s')
              simp [Value.compares, Value.compareScalars, Value.number?]
          | _ => exact absurd hv Bool.false_ne_true
      | _ => exact absurd hw not_false
  | boolean =>
      cases w with
      | bool b' =>
          cases v with
          | bool b => exact compares_eq_error_iff_of_number rfl rfl rfl
          | _ => exact absurd hv Bool.false_ne_true
      | _ => exact absurd hw not_false
  | uuid =>
      cases w with
      | uuid u' =>
          cases v with
          | uuid u =>
              refine iff_of_false ?_ ?_
              · simp [Value.compares, Value.compareScalars, Value.number?]
              · rintro ⟨⟩
                contradiction
          | _ => exact absurd hv Bool.false_ne_true
      | _ => exact absurd hw not_false

theorem isNull_of_accepts (h : k.accepts choices v = true) : v.isNull = false := by
  cases v with
  | null => cases k <;> exact absurd h Bool.false_ne_true
  | _ => rfl

theorem isNull_of_reads (h : k.Reads w) : w.isNull = false := by
  cases w with
  | null => cases k <;> exact absurd h not_false
  | _ => rfl

/-- What a row lacks is asked for no order. -/
theorem comparesKnown_eq_error_iff {op : Comparison}
    (hv : v = .null ∨ k.accepts choices v = true) (hw : k.Reads w) :
    Predicate.comparesKnown op v w = .error e ↔ v.Unordered w e := by
  rcases hv with rfl | hv
  · refine iff_of_false (by simp [Predicate.comparesKnown, Value.isNull]) ?_
    intro h
    cases h with
    | nowhere hx => exact absurd hx (by simp [Value.number?])
  · rw [Predicate.comparesKnown, isNull_of_accepts hv, isNull_of_reads hw]
    exact compares_eq_error_iff hv hw

theorem exists_isAmong {ws : List Value} (hv : v.IsQuiet) (hws : ∀ w ∈ ws, w.IsQuiet) :
    ∃ b, v.isAmong ws = .ok b := by
  induction ws with
  | nil => exact ⟨false, rfl⟩
  | cons w ws ih =>
      obtain ⟨b, hb⟩ := Value.equal_of_isQuiet v w hv (hws w List.mem_cons_self)
      rw [Value.isAmong, hb]
      cases b with
      | true => exact ⟨true, rfl⟩
      | false => exact ih fun w' hw' => hws w' (List.mem_cons_of_mem w hw')

/-- Membership fails as equality does: already at the first of the values. -/
theorem isAmong_eq_error_iff {ws : List Value} (hv : v = .null ∨ k.accepts choices v = true)
    (hne : ws ≠ []) (hws : ∀ w ∈ ws, k.Reads w) :
    v.isAmong ws = .error e ↔ ¬ v.IsQuiet ∧ e = .invalidOperation := by
  by_cases hquiet : v.IsQuiet
  · obtain ⟨b, hb⟩ := exists_isAmong hquiet fun w hw => isQuiet_of_reads (hws w hw)
    rw [hb]
    exact iff_of_false (by simp) (fun h => h.1 hquiet)
  · obtain ⟨w, rest, rfl⟩ := List.exists_cons_of_ne_nil hne
    have hfails := (equal_eq_error_iff hv (hws w List.mem_cons_self)).2 ⟨hquiet, rfl⟩
    rw [Value.isAmong, hfails, Result.error_bind, Except.error.injEq]
    exact ⟨fun h => ⟨hquiet, h.symm⟩, fun h => h.2.symm⟩

end Kind

/-! ## Leaves that fail -/

namespace Predicate

/-- The leaf fails on the row with the fault: a signaling not-a-number is asked for equality, a value
for an order that it does not have, or a value whose text is too long to be written for a pattern. -/
def Clashes : Predicate → Value → Fault → Prop
  | equal f _, row, e | differ f _, row, e | among f _, row, e | outside f _, row, e =>
    ¬ (row.fieldOrNull f).IsQuiet ∧ e = .invalidOperation
  | order f _ v, row, e => (row.fieldOrNull f).Unordered v e
  | like f _ _, row, e | unlike f _, row, e =>
    (row.fieldOrNull f).isShowable = false ∧ e = .longInteger
  | _, _, _ => False

theorem knownNot_eq_error_iff {v : Value} {condition : Result Bool} {e : Fault} :
    knownNot v condition = .error e ↔ v ≠ .null ∧ condition = .error e := by
  cases v with
  | null => exact iff_of_false (by simp [knownNot, Value.isNull]) (fun h => h.1 rfl)
  | _ => cases condition <;> simp [knownNot, Value.isNull, Except.map]

/-- **A leaf in the form of its field fails as it clashes with the row**, and only so. -/
theorem holds_eq_error_iff_clashes {s : Schema} {q : Predicate} {row : Value} {e : Fault}
    (hq : s.Types q) (hrow : s.Fits row) : q.holds row = .error e ↔ q.Clashes row e := by
  have hnull : ∀ {v : Value}, ¬ v.IsQuiet → v ≠ .null := by
    rintro v hquiet rfl
    exact hquiet trivial
  cases q with
  | equal f v =>
      obtain ⟨d, hd, hv⟩ := hq
      rw [holds]
      exact Kind.equal_eq_error_iff (hrow f d hd) hv
  | differ f v =>
      obtain ⟨d, hd, hv⟩ := hq
      rw [holds, knownNot_eq_error_iff, Kind.equal_eq_error_iff (hrow f d hd) hv]
      exact and_iff_right_of_imp fun h => hnull h.1
  | among f vs =>
      obtain ⟨d, hd, hne, hvs⟩ := hq
      rw [holds]
      exact Kind.isAmong_eq_error_iff (hrow f d hd) hne hvs
  | outside f vs =>
      obtain ⟨d, hd, hne, hvs⟩ := hq
      rw [holds, knownNot_eq_error_iff, Kind.isAmong_eq_error_iff (hrow f d hd) hne hvs]
      exact and_iff_right_of_imp fun h => hnull h.1
  | order f op v =>
      obtain ⟨d, hd, hv⟩ := hq
      rw [holds]
      exact Kind.comparesKnown_eq_error_iff (hrow f d hd) hv
  | like f v anyCase =>
      obtain ⟨-, t, rfl⟩ := hq
      rw [holds]
      exact describes_text_eq_error_iff
  | unlike f v =>
      obtain ⟨-, t, rfl⟩ := hq
      rw [holds, knownNot_eq_error_iff, describes_text_eq_error_iff]
      refine and_iff_right_of_imp ?_
      -- null is a text that can be written
      rintro ⟨hlong, -⟩ hnull
      rw [hnull] at hlong
      exact absurd hlong nofun
  | always | all | any | foreign => exact absurd hq not_false

end Predicate

/-! ## Filters that fail -/

namespace Calendar

/-- Entries of a calendar, which are numbered and dated. -/
def schema : Schema where
  entity := "entries"
  fields := [("id", ⟨.number, Kind.number.operators, true, false, [], false⟩),
    ("at", ⟨.date, Kind.date.operators, false, false, [], false⟩)]
  tieBreaker := "id"
  defaultSort := []

/-- The entry at a date. -/
def entry (date : Value) : Value :=
  .record [("id", .int 1), ("at", date)]

/-- A point in time without an offset. -/
def morning : Instant :=
  ⟨⟨2024, 1, 2⟩, 9, 0, 0, 0, none⟩

theorem fits_entry {date : Value} (h : Kind.date.accepts [] date = true) :
    schema.Fits (entry date) := by
  intro name f hf
  simp only [Schema.get?, schema, Entries.get?] at hf
  split at hf
  · next hname =>
      subst hname
      obtain rfl := Option.some.inj hf
      exact .inr rfl
  · split at hf
    · next hname =>
        subst hname
        obtain rfl := Option.some.inj hf
        exact .inr h
    · exact absurd hf (by simp)

/-- Entries after the start of the year 2024. -/
def filters : List (String × Value) :=
  [("at", .text "gt:2024-01-01")]

/-- The date in the filter is read as a point in time without an offset. -/
def predicate : Predicate :=
  .order "at" .gt (.instant ⟨⟨2024, 1, 1⟩, 0, 0, 0, 0, none⟩)

theorem result_compile : (Filter.compile schema filters []).result = .ok predicate := by
  cbv

end Calendar

namespace Filter

/-- **Where a filter fails**: on a row that has null or an accepted value in every declared field, a
compiled filter gives a truth value exactly when no leaf that is reached clashes with the row, and
otherwise fails as that leaf clashes. -/
theorem decides_iff_no_clash {s : Schema} {filters junctions : List (String × Value)} {p : Predicate}
    (hcompiled : (compile s filters junctions).result = .ok p) {row : Value} (hrow : s.Fits row) :
    ((∃ b, p.holds row = .ok b) ↔ ∀ q ∈ p.reached row, ∀ e, ¬ q.Clashes row e) ∧
    ∀ e, p.holds row = .error e ↔ ∃ q ∈ p.reached row, q.Clashes row e := by
  have hfails : ∀ e, p.holds row = .error e ↔ ∃ q ∈ p.reached row, q.Clashes row e := by
    intro e
    rw [Predicate.holds_eq_error_iff]
    refine exists_congr fun q => and_congr_right fun hq => ?_
    have htypes := types_of_compile hcompiled q (Predicate.mem_leaves_of_reached hq)
    exact Predicate.holds_eq_error_iff_clashes htypes hrow
  refine ⟨?_, hfails⟩
  constructor
  · rintro ⟨b, hb⟩ q hq e hclash
    exact absurd (hb.symm.trans ((hfails e).2 ⟨q, hq, hclash⟩)) (by simp)
  · intro hnone
    cases h : p.holds row with
    | ok b => exact ⟨b, rfl⟩
    | error e =>
        obtain ⟨q, hq, hclash⟩ := (hfails e).1 h
        exact absurd hclash (hnone q hq e)

/-- An entry at a point in time without an offset is asked whether it is after the start of a year. -/
theorem decides_iff_no_clash_calendar :
    (compile Calendar.schema Calendar.filters []).result = .ok Calendar.predicate ∧
    Calendar.schema.Fits (Calendar.entry (.instant Calendar.morning)) ∧
    ∃ b, Calendar.predicate.holds (Calendar.entry (.instant Calendar.morning)) = .ok b := by
  have hfits : Calendar.schema.Fits (Calendar.entry (.instant Calendar.morning)) :=
    Calendar.fits_entry rfl
  refine ⟨Calendar.result_compile, hfits, ?_⟩
  refine (decides_iff_no_clash Calendar.result_compile hfits).1.2 ?_
  intro q hq e hclash
  obtain rfl := List.mem_singleton.1 hq
  cases hclash with
  | offset hne => exact hne rfl
  | nowhere hx => exact absurd (show none = some _ from hx) (by simp)

/-- An entry on a day, which the date field accepts, fails when it is asked so: the schema is
consistent and the filter was compiled. -/
theorem decides_fails :
    Calendar.schema.contradiction? = none ∧
    (compile Calendar.schema Calendar.filters []).result = .ok Calendar.predicate ∧
    Calendar.schema.Fits (Calendar.entry (.day Calendar.morning.date)) ∧
    Calendar.predicate.holds (Calendar.entry (.day Calendar.morning.date)) = .error .illTyped := by
  refine ⟨by cbv, Calendar.result_compile, Calendar.fits_entry rfl, ?_⟩
  cbv

end Filter

end Listing
