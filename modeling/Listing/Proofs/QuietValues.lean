import Mathlib.Data.List.Basic
import Listing.Value.Compare

/-!
# Quiet values

Only a signaling not-a-number makes a question of equality fail. A value is quiet when there is none
in it at any depth, and whether two quiet values are equal is always decided
(`Value.equal_of_isQuiet`). Of two numbers, equality and order are given by `Value.equal_of_number` and
`Value.compares_of_number`, faults included.
-/

set_option autoImplicit false

namespace Listing.Value

mutual

/-- No signaling not-a-number is the value or in it. -/
def IsQuiet : Value → Prop
  | decimal d => d.isSignaling = false
  | list vs => AreQuiet vs
  | tuple vs => AreQuiet vs
  | map es => AreQuietEntries es
  | object as => AreQuietAttributes as
  | _ => True

/-- All values are quiet. -/
def AreQuiet : List Value → Prop
  | [] => True
  | v :: vs => IsQuiet v ∧ AreQuiet vs

/-- All keys and values of the entries are quiet. -/
def AreQuietEntries : List (Value × Value) → Prop
  | [] => True
  | (k, v) :: rest => IsQuiet k ∧ IsQuiet v ∧ AreQuietEntries rest

/-- All values of the attributes are quiet. -/
def AreQuietAttributes : List (String × Value) → Prop
  | [] => True
  | (_, v) :: rest => IsQuiet v ∧ AreQuietAttributes rest

end

theorem isQuiet_of_mem_entries : ∀ {es : List (Value × Value)}, AreQuietEntries es →
    ∀ e ∈ es, e.2.IsQuiet := by
  intro es
  induction es with
  | nil =>
      intro _ e he
      exact absurd he List.not_mem_nil
  | cons first es ih =>
      intro h e he
      rw [AreQuietEntries] at h
      rcases List.mem_cons.1 he with rfl | he
      · exact h.2.1
      · exact ih h.2.2 e he

theorem isQuiet_of_attributeNamed? {name : String} {w : Value} :
    ∀ {as : List (String × Value)}, AreQuietAttributes as → attributeNamed? name as = some w →
      w.IsQuiet := by
  intro as
  induction as with
  | nil =>
      intro _ h
      exact absurd h (by simp [attributeNamed?])
  | cons first as ih =>
      intro hquiet h
      obtain ⟨s, v⟩ := first
      rw [AreQuietAttributes] at hquiet
      rw [attributeNamed?] at h
      split at h
      · obtain rfl := Option.some.inj h
        exact hquiet.1
      · exact ih hquiet.2 h

theorem isSignaling_of_isQuiet {v : Value} {x : Number} (h : v.IsQuiet) (hx : v.number? = some x) :
    x.isSignaling = false := by
  cases v with
  | decimal d =>
      obtain rfl := Option.some.inj hx
      rw [IsQuiet] at h
      exact h
  | bool b =>
      obtain rfl := Option.some.inj hx
      rfl
  | int i =>
      obtain rfl := Option.some.inj hx
      rfl
  | float y =>
      obtain rfl := Option.some.inj hx
      rfl
  | _ => exact absurd hx (by simp [number?])

/-- Two quiet scalars can be asked whether they are equal. -/
theorem equalScalars_of_isQuiet {v w : Value} (hv : v.IsQuiet) (hw : w.IsQuiet) :
    ∃ b, equalScalars v w = .ok b := by
  unfold equalScalars
  split
  · rename_i x y hx hy
    -- only a signaling number makes the comparison of numbers fail
    have hsignals : x.equalitySignals y = false := by
      rw [Number.equalitySignals, isSignaling_of_isQuiet hv hx, isSignaling_of_isQuiet hw hy]
      rfl
    rw [hsignals]
    exact ⟨_, rfl⟩
  · split <;> exact ⟨_, rfl⟩

mutual

/-- **Quiet values can be asked whether they are equal.** -/
theorem equal_of_isQuiet : ∀ v w : Value, v.IsQuiet → w.IsQuiet → ∃ b, v.equal w = .ok b
  | list vs, w, hv, hw => by
      cases w with
      | list ws =>
          rw [IsQuiet] at hv hw
          rw [equal]
          split
          · exact equalAll_of_areQuiet vs ws hv hw
          · exact ⟨_, rfl⟩
      | _ => exact ⟨false, by simp only [equal]⟩
  | tuple vs, w, hv, hw => by
      cases w with
      | tuple ws =>
          rw [IsQuiet] at hv hw
          rw [equal]
          exact equalAll_of_areQuiet vs ws hv hw
      | _ => exact ⟨false, by simp only [equal]⟩
  | map es, w, hv, hw => by
      cases w with
      | map fs =>
          rw [IsQuiet] at hv hw
          rw [equal]
          split
          · exact equalEntries_of_areQuiet es fs hv hw
          · exact ⟨_, rfl⟩
      | _ => exact ⟨false, by simp only [equal]⟩
  | object as, w, hv, hw => by
      cases w with
      | object bs =>
          rw [IsQuiet] at hv hw
          rw [equal]
          split
          · exact equalAttributes_of_areQuiet as bs hv hw
          · exact ⟨_, rfl⟩
      | _ => exact ⟨false, by simp only [equal]⟩
  | null, w, hv, hw | bool _, w, hv, hw | int _, w, hv, hw | float _, w, hv, hw
  | decimal _, w, hv, hw | text _, w, hv, hw | instant _, w, hv, hw | day _, w, hv, hw
  | uuid _, w, hv, hw | member _, w, hv, hw => by
      simp only [equal]
      exact equalScalars_of_isQuiet hv hw

theorem equalAll_of_areQuiet : ∀ vs ws : List Value, AreQuiet vs → AreQuiet ws →
    ∃ b, equalAll vs ws = .ok b
  | [], ws, _, _ => ⟨ws.isEmpty, by rw [equalAll]⟩
  | v :: vs, [], _, _ => ⟨false, by rw [equalAll]⟩
  | v :: vs, w :: ws, hv, hw => by
      rw [AreQuiet] at hv hw
      obtain ⟨b, hb⟩ := equal_of_isQuiet v w hv.1 hw.1
      rw [equalAll, hb]
      cases b with
      | true => exact equalAll_of_areQuiet vs ws hv.2 hw.2
      | false => exact ⟨false, rfl⟩

theorem equalEntries_of_areQuiet : ∀ es fs : List (Value × Value), AreQuietEntries es →
    AreQuietEntries fs → ∃ b, equalEntries es fs = .ok b
  | [], fs, _, _ => ⟨true, by rw [equalEntries]⟩
  | (k, v) :: rest, fs, hv, hw => by
      rw [AreQuietEntries] at hv
      rw [equalEntries]
      split
      · exact ⟨false, rfl⟩
      -- an entry with an equal key was found: the values are compared, then the rest
      · rename_i f hf
        obtain ⟨b, hb⟩ :=
          equal_of_isQuiet v f.2 hv.2.1 (isQuiet_of_mem_entries hw f (List.mem_of_find?_eq_some hf))
        rw [hb]
        cases b with
        | true => exact equalEntries_of_areQuiet rest fs hv.2.2 hw
        | false => exact ⟨false, rfl⟩

theorem equalAttributes_of_areQuiet : ∀ as bs : List (String × Value), AreQuietAttributes as →
    AreQuietAttributes bs → ∃ b, equalAttributes as bs = .ok b
  | [], bs, _, _ => ⟨true, by rw [equalAttributes]⟩
  | (name, v) :: rest, bs, hv, hw => by
      rw [AreQuietAttributes] at hv
      rw [equalAttributes]
      split
      · exact ⟨false, rfl⟩
      -- an attribute of that name was found: the values are compared, then the rest
      · rename_i w hfound
        obtain ⟨b, hb⟩ := equal_of_isQuiet v w hv.1 (isQuiet_of_attributeNamed? hw hfound)
        rw [hb]
        cases b with
        | true => exact equalAttributes_of_areQuiet rest bs hv.2 hw
        | false => exact ⟨false, rfl⟩

end

/-! ## Numbers -/

/-- Equality of numbers fails when one of them is signaling. -/
theorem equal_of_number {v w : Value} {x y : Number} (hx : v.number? = some x)
    (hy : w.number? = some y) : v.equal w =
      if x.equalitySignals y then .error .invalidOperation else .ok (x.compare? y == some .eq) := by
  have hscalars : v.equal w = equalScalars v w := by
    cases v with
    | list | tuple | map | object => exact absurd hx (by simp [number?])
    | _ => simp only [equal]
  rw [hscalars]
  unfold equalScalars
  simp only [hx, hy]

/-- The order of numbers fails when one of them is a decimal and one a not-a-number. -/
theorem compares_of_number {v w : Value} {x y : Number} (op : Comparison) (hx : v.number? = some x)
    (hy : w.number? = some y) : v.compares op w =
      if x.orderSignals y then .error .invalidOperation
      else .ok (((x.compare? y).map op.admits).getD false) := by
  have hscalars : v.compares op w = compareScalars op v w := by
    cases v with
    | list | tuple => exact absurd hx (by simp [number?])
    | _ => simp only [compares]
  rw [hscalars]
  unfold compareScalars
  simp only [hx, hy]
  cases x.compare? y <;> rfl

end Listing.Value
