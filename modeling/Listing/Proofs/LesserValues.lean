import Listing.Proofs.KeyOrder
import Listing.Proofs.NumberValues

/-!
# Lesser values are not equal

Of two values that can be compared it can be asked whether they are equal, and where one of them is
less they are not, from whichever side it is asked (`Value.equal_of_compares`). Numbers and points in
time compare the same from both sides; lists are followed up to their first unequal values.
-/

set_option autoImplicit false

namespace Listing

namespace Number

/-- Places on the line compare the same from both sides. -/
theorem Extent.compare?_swap (a b : Extent) :
    (a.compare? b).map Ordering.swap = b.compare? a := by
  cases a with
  | finite negative c e =>
      cases b with
      | finite negative' c' e' =>
          rw [compare?_finite, compare?_finite, Option.map_some, ← Std.OrientedOrd.eq_swap]
      | _ => rfl
  | _ => cases b <;> rfl

theorem compare?_swap (x y : Number) : (x.compare? y).map Ordering.swap = y.compare? x := by
  cases x with
  | int i =>
      cases y with
      | int j => rw [compare?, compare?, Option.map_some, ← Std.OrientedOrd.eq_swap]
      | _ => exact Extent.compare?_swap _ _
  | _ => cases y <;> exact Extent.compare?_swap _ _

/-- Where it cannot be asked whether two numbers are equal, they cannot be compared. -/
theorem orderSignals_of_equalitySignals {x y : Number} (h : x.equalitySignals y = true) :
    x.orderSignals y = true := by
  have hnan : ∀ {z : Number}, z.isSignaling = true → z.isDecimal = true ∧ z.isNaN = true := by
    intro z hz
    cases z with
    | decimal d =>
        cases d with
        | nan negative signaling payload => exact ⟨rfl, rfl⟩
        | _ => exact absurd hz (by simp [isSignaling, Decimal.isSignaling])
    | _ => exact absurd hz Bool.false_ne_true
  rw [equalitySignals, Bool.or_eq_true] at h
  rw [orderSignals, Bool.and_eq_true, Bool.or_eq_true, Bool.or_eq_true]
  rcases h with h | h
  · exact ⟨.inl (hnan h).1, .inl (hnan h).2⟩
  · exact ⟨.inr (hnan h).1, .inr (hnan h).2⟩

theorem equalitySignals_comm (x y : Number) : x.equalitySignals y = y.equalitySignals x :=
  Bool.or_comm _ _

end Number

namespace Instant

theorem compare?_swap (s t : Instant) : (s.compare? t).map Ordering.swap = t.compare? s := by
  rw [compare?, compare?]
  cases s.offset with
  | none =>
      cases t.offset with
      | none => exact congrArg some Std.OrientedOrd.eq_swap.symm
      | some o' => rfl
  | some o =>
      cases t.offset with
      | none => rfl
      | some o' => exact congrArg some Std.OrientedOrd.eq_swap.symm

end Instant

namespace Value

variable {v w : Value} {op : Comparison} {b : Bool}

/-- Two scalars that can be compared are two numbers, or of one other type that has an order. -/
theorem cases_of_compareScalars (h : compareScalars op v w = .ok b) :
    (∃ x y, v.number? = some x ∧ w.number? = some y) ∨ (∃ s t, v = text s ∧ w = text t) ∨
      (∃ s t, v = instant s ∧ w = instant t) ∨ (∃ d d', v = day d ∧ w = day d') ∨
      ∃ u u', v = uuid u ∧ w = uuid u' := by
  unfold compareScalars at h
  split at h
  · next x y hx hy => exact .inl ⟨x, y, hx, hy⟩
  split at h
  · exact .inr (.inl ⟨_, _, rfl, rfl⟩)
  · exact .inr (.inr (.inl ⟨_, _, rfl, rfl⟩))
  · exact .inr (.inr (.inr (.inl ⟨_, _, rfl, rfl⟩)))
  · exact .inr (.inr (.inr (.inr ⟨_, _, rfl, rfl⟩)))
  · exact absurd h (Result.error_ne_ok _ _)

theorem ok_false_ne_ok_true : (.ok false : Result Bool) ≠ .ok true :=
  fun h => Bool.false_ne_true (Except.ok.inj h)

theorem eq_some_eq_of_swap {o o' : Option Ordering} (h : o.map Ordering.swap = o') :
    (o' == some .eq) = (o == some .eq) := by
  subst h
  rcases o with _ | _ | _ | _ <;> rfl

theorem ne_some_eq_of_admits {o : Option Ordering} (h : (o.map Comparison.lt.admits).getD false) :
    (o == some .eq) = false := by
  rcases o with _ | _ | _ | _
  · rfl
  · rfl
  · exact absurd h Bool.false_ne_true
  · rfl

theorem equalScalars_of_number {x y : Number} (hx : v.number? = some x) (hy : w.number? = some y)
    (h : compareScalars .lt v w = .ok b) :
    ∃ c, equalScalars v w = .ok c ∧ equalScalars w v = .ok c ∧ (b = true → c = false) := by
  simp only [compareScalars, hx, hy] at h
  split at h
  · exact absurd h (Result.error_ne_ok _ _)
  next hsignals =>
  have hquiet : x.equalitySignals y = false :=
    Bool.eq_false_iff.2 (mt Number.orderSignals_of_equalitySignals hsignals)
  have hquiet' : y.equalitySignals x = false := by
    rwa [Number.equalitySignals_comm]
  simp only [equalScalars, hx, hy, hquiet, hquiet']
  refine ⟨x.compare? y == some .eq, rfl,
    congrArg Except.ok (eq_some_eq_of_swap (Number.compare?_swap x y)), ?_⟩
  rintro rfl
  apply ne_some_eq_of_admits
  cases ho : x.compare? y with
  | none =>
      rw [ho] at h
      exact absurd (Except.ok.inj h) Bool.false_ne_true
  | some o =>
      rw [ho] at h
      exact Except.ok.inj h

/-- Of scalars that can be compared it can be asked from either side whether they are equal, and of
a lesser and a greater one they are not. -/
theorem equalScalars_of_compareScalars (h : compareScalars .lt v w = .ok b) :
    ∃ c, equalScalars v w = .ok c ∧ equalScalars w v = .ok c ∧ (b = true → c = false) := by
  rcases cases_of_compareScalars h with ⟨x, y, hx, hy⟩ | ⟨s, t, rfl, rfl⟩ | ⟨s, t, rfl, rfl⟩ |
    ⟨d, d', rfl, rfl⟩ | ⟨u, u', rfl, rfl⟩
  · exact equalScalars_of_number hx hy h
  · obtain rfl := Except.ok.inj h
    refine ⟨s == t, rfl, congrArg Except.ok (Bool.beq_comm), fun hlt => ?_⟩
    rw [beq_eq_false_iff_ne]
    rintro rfl
    rw [compareTexts_eq_eq.2 rfl] at hlt
    exact absurd hlt Bool.false_ne_true
  · refine ⟨s.compare? t == some .eq, rfl,
      congrArg Except.ok (eq_some_eq_of_swap (Instant.compare?_swap s t)), ?_⟩
    rintro rfl
    apply ne_some_eq_of_admits
    cases ho : s.compare? t with
    | none => exact absurd h (by simp [compareScalars, number?, ho])
    | some o => simpa [compareScalars, number?, ho] using h
  · obtain rfl := Except.ok.inj h
    refine ⟨d == d', rfl, congrArg Except.ok (Bool.beq_comm), fun hlt => ?_⟩
    rw [beq_eq_false_iff_ne]
    rintro rfl
    rw [Date.compare, compare_eq_iff_eq.2 rfl] at hlt
    exact absurd hlt Bool.false_ne_true
  · obtain rfl := Except.ok.inj h
    refine ⟨u.number == u'.number, rfl, congrArg Except.ok (Bool.beq_comm), fun hlt => ?_⟩
    rw [beq_eq_false_iff_ne]
    intro heq
    rw [compare_eq_iff_eq.2 heq] at hlt
    exact absurd hlt Bool.false_ne_true

theorem equal_of_compareScalars (h : compareScalars op v w = .ok b) :
    w.equal v = equalScalars w v := by
  rcases cases_of_compareScalars h with ⟨x, y, -, hy⟩ | ⟨s, t, rfl, rfl⟩ | ⟨s, t, rfl, rfl⟩ |
    ⟨d, d', rfl, rfl⟩ | ⟨u, u', rfl, rfl⟩
  · cases w with
    | list | tuple | map | object => exact absurd hy (Option.some_ne_none y).symm
    | _ => simp only [equal]
  all_goals simp only [equal]

mutual

/-- Of values that can be compared it can be asked whether they are equal, and of a lesser and a
greater one they are not. -/
theorem equal_of_compares : ∀ (v w : Value) {b : Bool}, v.compares .lt w = .ok b →
    ∃ c, v.equal w = .ok c ∧ (b = true → c = false ∧ w.equal v ≠ .ok true)
  | list vs, w, b, h => by
      cases w with
      | list ws =>
          rw [compares] at h
          obtain ⟨c, hc, hlt⟩ := equalAll_of_comparesAll vs ws h
          rw [equal, equal]
          split
          · next hlength =>
            rw [if_pos hlength.symm]
            exact ⟨c, hc, hlt⟩
          · next hlength =>
            rw [if_neg (Ne.symm hlength)]
            exact ⟨false, rfl, fun _ => ⟨rfl, ok_false_ne_ok_true⟩⟩
      | _ => exact absurd h (by simp [compares])
  | tuple vs, w, b, h => by
      cases w with
      | tuple ws =>
          rw [compares] at h
          rw [equal, equal]
          exact equalAll_of_comparesAll vs ws h
      | _ => exact absurd h (by simp [compares])
  | map _, w, b, h | object _, w, b, h => by
      simp only [compares] at h
      rcases cases_of_compareScalars h with ⟨x, y, hx, -⟩ | ⟨s, t, hv, -⟩ | ⟨s, t, hv, -⟩ |
        ⟨d, d', hv, -⟩ | ⟨u, u', hv, -⟩
      · exact absurd hx (Option.some_ne_none x).symm
      all_goals exact absurd hv Value.noConfusion
  | null, w, b, h | bool _, w, b, h | int _, w, b, h | float _, w, b, h | decimal _, w, b, h
  | text _, w, b, h | instant _, w, b, h | day _, w, b, h | uuid _, w, b, h | member _, w, b, h => by
      simp only [compares] at h
      obtain ⟨c, hc, hc', hlt⟩ := equalScalars_of_compareScalars h
      have hback : w.equal _ = .ok c := (equal_of_compareScalars h).trans hc'
      simp only [equal]
      refine ⟨c, hc, fun hb => ⟨hlt hb, ?_⟩⟩
      rw [hback, hlt hb]
      exact ok_false_ne_ok_true

theorem equalAll_of_comparesAll : ∀ (vs ws : List Value) {b : Bool}, comparesAll .lt vs ws = .ok b →
    ∃ c, equalAll vs ws = .ok c ∧ (b = true → c = false ∧ equalAll ws vs ≠ .ok true)
  | [], [], b, h => by
      rw [comparesAll] at h
      obtain rfl := Except.ok.inj h
      exact ⟨true, by rw [equalAll]; rfl, fun hb => absurd hb Bool.false_ne_true⟩
  | [], w :: ws, b, h => by
      rw [equalAll, equalAll]
      exact ⟨false, rfl, fun _ => ⟨rfl, ok_false_ne_ok_true⟩⟩
  | v :: vs, [], b, h => by
      rw [equalAll, equalAll]
      exact ⟨false, rfl, fun _ => ⟨rfl, ok_false_ne_ok_true⟩⟩
  | v :: vs, w :: ws, b, h => by
      rw [comparesAll] at h
      obtain ⟨c, hc, h⟩ := Result.bind_eq_ok.1 h
      rw [equalAll, equalAll, hc]
      cases c with
      -- behind values that are equal the rest decides
      | true =>
          obtain ⟨c, hc, hlt⟩ := equalAll_of_comparesAll vs ws h
          refine ⟨c, hc, fun hb => ⟨(hlt hb).1, fun hequal => ?_⟩⟩
          obtain ⟨c', -, hequal⟩ := Result.bind_eq_ok.1 hequal
          cases c' with
          | true => exact (hlt hb).2 hequal
          | false => exact absurd hequal ok_false_ne_ok_true
      | false =>
          refine ⟨false, rfl, fun hb => ⟨rfl, fun hequal => ?_⟩⟩
          obtain ⟨c', hc', hequal⟩ := Result.bind_eq_ok.1 hequal
          obtain ⟨c, -, hlt⟩ := equal_of_compares v w h
          cases c' with
          | true => exact (hlt hb).2 hc'
          | false => exact absurd hequal ok_false_ne_ok_true

end

end Value

end Listing
